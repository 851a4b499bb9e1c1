import Mathlib.Tactic.SplitIfs
import Ribbon.Text.Hex
import Ribbon.Text.Quoted

/-!
# Quoted texts are read back

A quoted text is one line and ends at its second unescaped quote. Which characters are printable
has no say in that: a character is read back from its number as well as from itself.
-/

namespace Ribbon.Text

/-! ## Reading -/

/-- The character that a letter after a backslash stands for. -/
def short? (c : Char) : Option Char :=
  if c = '"' ∨ c = '\\' then some c
  else if c = 'n' then some '\n'
  else if c = 'r' then some '\r'
  else if c = 't' then some '\t'
  else if c = '0' then some '\x00'
  else none

/-- How far an escape has come. -/
inductive Escape
  | none
  | backslash
  | brace
  /-- The value of the digits so far. -/
  | digits (n : Nat)
  deriving DecidableEq, Repr

/-- The text up to the closing quote, after which there must be nothing. -/
def unescape? : Escape → List Char → Option (List Char)
  | _, [] => none
  | .none, c :: r =>
    if c = '"' then if r.isEmpty then some [] else none
    else if c = '\\' then unescape? .backslash r
    else (unescape? .none r).map (c :: ·)
  | .backslash, c :: r =>
    if c = 'u' then unescape? .brace r
    else (short? c).bind fun d => (unescape? .none r).map (d :: ·)
  | .brace, c :: r => if c = '{' then unescape? (.digits 0) r else none
  | .digits n, c :: r =>
    if c = '}' then (unescape? .none r).map (Char.ofNat n :: ·)
    else (hexValue? c).bind fun d => unescape? (.digits (16 * n + d)) r

def unquote? : List Char → Option (List Char)
  | [] => none
  | c :: r => if c = '"' then unescape? .none r else none

example : unquote? (quoted ['"', '\x1b', 'n', '\n']) = some ['"', '\x1b', 'n', '\n'] := by
  decide +kernel

/-! ## Numbers of characters -/

theorem hexValue?_digitChar {d : Nat} (h : d < 16) : hexValue? d.digitChar = some d := by
  revert d
  decide

theorem unescape?_digit (n : Nat) {d : Nat} (hd : d < 16) (rest : List Char) :
    unescape? (.digits n) (d.digitChar :: rest) = unescape? (.digits (16 * n + d)) rest := by
  have hvalue := hexValue?_digitChar hd
  have hclose : d.digitChar ≠ '}' := by
    intro h
    have hnone : hexValue? '}' = none := by decide
    rw [h, hnone] at hvalue
    cases hvalue
  rw [unescape?, if_neg hclose, hvalue, Option.bind_some]

theorem unescape?_toDigits (n : Nat) (rest : List Char) :
    unescape? (.digits 0) (Nat.toDigits 16 n ++ rest) = unescape? (.digits n) rest := by
  induction n using Nat.strongRecOn generalizing rest with
  | _ n ih =>
    by_cases hn : n < 16
    · rw [Nat.toDigits_of_lt_base hn, List.singleton_append, unescape?_digit 0 hn]
      simp
    · -- All digits but the last one make up `n / 16`.
      have hlast : n % 16 < 16 := Nat.mod_lt n (by decide)
      rw [Nat.toDigits_of_base_le (by decide) (by omega), List.append_assoc, ih _ (by omega),
        List.singleton_append, unescape?_digit _ hlast, Nat.div_add_mod]

theorem unescape?_byNumber (c : Char) (rest : List Char) :
    unescape? .none (byNumber c ++ rest) = (unescape? .none rest).map (c :: ·) := by
  have hopen : unescape? .none (byNumber c ++ rest) =
      unescape? (.digits 0) (Nat.toDigits 16 c.toNat ++ ('}' :: rest)) := by
    simp [byNumber, unescape?]
  rw [hopen, unescape?_toDigits, unescape?, if_pos rfl, Char.ofNat_toNat]

/-! ## Quoted texts -/

theorem unescape?_escape (c : Char) (rest : List Char) :
    unescape? .none (escape c ++ rest) = (unescape? .none rest).map (c :: ·) := by
  unfold escape
  split_ifs with hquote hbackslash hfeed hreturn htab hnul hprintable
  · subst hquote; rfl
  · subst hbackslash; rfl
  · subst hfeed; rfl
  · subst hreturn; rfl
  · subst htab; rfl
  · subst hnul; rfl
  · rw [List.singleton_append, unescape?, if_neg hquote, if_neg hbackslash]
  · exact unescape?_byNumber c rest

theorem unescape?_flatMap (s : List Char) :
    unescape? .none (s.flatMap escape ++ ['"']) = some s := by
  induction s with
  | nil => rfl
  | cons c r ih => rw [List.flatMap_cons, List.append_assoc, unescape?_escape, ih, Option.map_some]

theorem unquote?_quoted (s : List Char) : unquote? (quoted s) = some s := by
  rw [quoted, unquote?, if_pos rfl, unescape?_flatMap]

/-! ## One line -/

theorem newline_notMem_toDigits (n : Nat) : '\n' ∉ Nat.toDigits 16 n := by
  induction n using Nat.strongRecOn with
  | _ n ih =>
    have hdigit : ∀ d, d < 16 → '\n' ≠ d.digitChar := by decide
    by_cases hn : n < 16
    · rw [Nat.toDigits_of_lt_base hn, List.mem_singleton]
      exact hdigit n hn
    · rw [Nat.toDigits_of_base_le (by decide) (by omega), List.mem_append, List.mem_singleton]
      rintro (h | h)
      · exact ih _ (by omega) h
      · exact hdigit _ (Nat.mod_lt n (by decide)) h

theorem newline_notMem_escape (c : Char) : '\n' ∉ escape c := by
  unfold escape
  split_ifs with hquote hbackslash hfeed hreturn htab hnul hprintable
  · decide
  · decide
  · decide
  · decide
  · decide
  · decide
  · simpa using Ne.symm hfeed
  · simp [byNumber, newline_notMem_toDigits]

theorem newline_notMem_quoted (s : List Char) : '\n' ∉ quoted s := by
  simp [quoted, newline_notMem_escape]

end Ribbon.Text
