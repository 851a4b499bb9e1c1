/-!
# Small letters

Words that settings offer are plain Latin words; a setting may write them in any mix of capitals.
-/

namespace Ribbon.Text

/-- The Latin small letter that a character stands for: its own small form for A to Z, `k` for the
Kelvin sign. No other character has a small form in a to z, so two texts that differ in another
character than these are different words. -/
def smallLatin (c : Char) : Char :=
  if c = '\u212A' then 'k' else c.toLower

def spells (s word : List Char) : Bool :=
  s.map smallLatin == word

end Ribbon.Text
