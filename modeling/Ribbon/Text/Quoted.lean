import Ribbon.Text.Printable

/-!
# Quoted texts

A text in double quotes, on one line and with nothing in it that does not show.
-/

namespace Ribbon.Text

def byNumber (c : Char) : List Char :=
  ['\\', 'u', '{'] ++ Nat.toDigits 16 c.toNat ++ ['}']

def escape (c : Char) : List Char :=
  if c = '"' then ['\\', '"']
  else if c = '\\' then ['\\', '\\']
  else if c = '\n' then ['\\', 'n']
  else if c = '\r' then ['\\', 'r']
  else if c = '\t' then ['\\', 't']
  else if c = '\x00' then ['\\', '0']
  else if isPrintable c then [c]
  else byNumber c

def quoted (s : List Char) : List Char :=
  '"' :: (s.flatMap escape ++ ['"'])


end Ribbon.Text
