import Mathlib.Tactic.ByContra
import Mathlib.Tactic.SplitIfs

/-!
# The order of texts

Texts are in the order of their characters, which is that of the bytes they have in UTF-8.
-/

namespace Ribbon.Text

open String (utf8EncodeChar)

def bytes (s : String) : List UInt8 :=
  s.toByteArray.data.toList

theorem bytes_eq (s : String) : bytes s = s.toList.flatMap utf8EncodeChar := by
  rw [bytes, ← String.utf8Encode_toList, List.utf8Encode, List.toList_data_toByteArray]

theorem byte_cons_lt_iff {a b : Nat} {r t : List UInt8} (ha : a < 256) (hb : b < 256) :
    UInt8.ofNat a :: r < UInt8.ofNat b :: t ↔ a < b ∨ a = b ∧ r < t := by
  rw [List.cons_lt_cons_iff, UInt8.lt_iff_toNat_lt, ← UInt8.toNat_inj, UInt8.toNat_ofNat_of_lt' ha,
    UInt8.toNat_ofNat_of_lt' hb]

/-- Two characters differ within the bytes of both, so that nothing after them counts. -/
theorem encode_lt {c d : Char} (h : c < d) (r t : List UInt8) :
    utf8EncodeChar c ++ r < utf8EncodeChar d ++ t := by
  have hlt : c.val.toNat < d.val.toNat := h
  have hd : d.val.toNat < 1114112 := by
    have hvalid := d.valid
    simp only [UInt32.isValidChar, Nat.isValidChar] at hvalid
    omega
  -- The bytes hold the digits of the number to base 64, which are got one after the other.
  have hthree (k : Nat) : k / 4096 = k / 64 / 64 := (Nat.div_div_eq_div_mul k 64 64).symm
  have hfour (k : Nat) : k / 262144 = k / 64 / 64 / 64 := by
    rw [Nat.div_div_eq_div_mul, Nat.div_div_eq_div_mul]
  unfold utf8EncodeChar
  simp only [hthree, hfour]
  generalize c.val.toNat = m at *
  generalize d.val.toNat = n at *
  -- One case for each two lengths; in those where the first is longer, `m < n` is false.
  split_ifs <;>
    simp (disch := omega) only [List.cons_append, List.nil_append, byte_cons_lt_iff] <;>
    omega

theorem flatMap_encode_lt {s t : List Char} (h : s < t) :
    s.flatMap utf8EncodeChar < t.flatMap utf8EncodeChar := by
  induction t generalizing s with
  | nil => exact absurd h (List.not_lt_nil s)
  | cons d t ih =>
    cases s with
    | nil =>
      obtain ⟨b, r, hbytes⟩ := List.exists_cons_of_ne_nil (String.utf8EncodeChar_ne_nil (c := d))
      rw [List.flatMap_nil, List.flatMap_cons, hbytes, List.cons_append]
      exact List.nil_lt_cons b _
    | cons c s =>
      rw [List.flatMap_cons, List.flatMap_cons]
      rcases List.cons_lt_cons_iff.mp h with hlt | ⟨rfl, hlt⟩
      · exact encode_lt hlt _ _
      · exact List.append_left_lt (ih hlt)

theorem lt_iff_bytes_lt {s t : String} : s < t ↔ bytes s < bytes t := by
  rw [bytes_eq, bytes_eq]
  refine ⟨fun h => flatMap_encode_lt h, fun h => ?_⟩
  by_contra hno
  rcases List.le_iff_lt_or_eq.mp (List.not_lt.mp hno) with hlt | heq
  · exact List.lt_asymm h (flatMap_encode_lt hlt)
  · rw [heq] at h
    exact List.lt_irrefl _ h

end Ribbon.Text
