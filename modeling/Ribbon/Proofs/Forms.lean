import Mathlib
import Ribbon.Color
import Ribbon.Proofs.Slices

/-!
# Forms of a color

A color is written as a word or by six or three hexadecimal digits, and blanks around it do not
count. Each form has a full form, which is what is shown for the color. `readByBytes?` takes the
digits out of a text by bytes and reads them as numbers of a byte. It would fail where a cut goes
through a character, where a number is none or is too great; it never does.
-/

namespace Ribbon.Text

/-! ## Blanks around a text -/

/-- What is left of a text without the blanks at its two ends. -/
def Trims (s t : List Char) : Prop :=
  ∃ a b, s = a ++ (t ++ b) ∧ (∀ c ∈ a, isBlank c = true) ∧ (∀ c ∈ b, isBlank c = true) ∧ Trimmed t

theorem trim_append_left {a : List Char} (ha : ∀ c ∈ a, isBlank c = true) (s : List Char) :
    trim (a ++ s) = trim s := by
  rw [trim, List.dropWhile_append_of_pos ha, trim]

theorem trim_append_right {b : List Char} (hb : ∀ c ∈ b, isBlank c = true) (s : List Char) :
    trim (s ++ b) = trim s := by
  have hnone : b.dropWhile isBlank = [] := List.dropWhile_eq_nil_iff.mpr hb
  have hback : ∀ c ∈ b.reverse, isBlank c = true := fun c hc => hb c (List.mem_reverse.mp hc)
  unfold trim
  rw [List.dropWhile_append, hnone]
  split
  · rename_i hempty
    rw [List.isEmpty_iff.mp hempty]
  · rw [List.reverse_append, List.dropWhile_append_of_pos hback]

theorem of_head?_dropWhile {p : Char → Bool} {s : List Char} {c : Char}
    (h : (s.dropWhile p).head? = some c) : p c = false := by
  have hnot := List.head?_dropWhile_not p s
  rwa [h] at hnot

theorem trims_trim (s : List Char) : Trims s (trim s) := by
  obtain ⟨b, hb, hrest⟩ : ∃ b, (∀ c ∈ b, isBlank c = true) ∧ s.dropWhile isBlank = trim s ++ b := by
    refine ⟨((s.dropWhile isBlank).reverse.takeWhile isBlank).reverse, ?_, ?_⟩
    · exact fun c hc => List.mem_takeWhile_imp (List.mem_reverse.mp hc)
    · rw [trim, ← List.reverse_append, List.takeWhile_append_dropWhile, List.reverse_reverse]
  refine ⟨s.takeWhile isBlank, b, ?_, fun c hc => List.mem_takeWhile_imp hc, hb, ?_, ?_⟩
  · rw [← hrest, List.takeWhile_append_dropWhile]
  · intro c hc
    apply of_head?_dropWhile (s := s)
    rw [hrest, List.head?_append, hc, Option.some_or]
  · intro c hc
    rw [trim, List.getLast?_reverse] at hc
    exact of_head?_dropWhile hc

theorem trims_iff {s t : List Char} : Trims s t ↔ t = trim s := by
  constructor
  · rintro ⟨a, b, rfl, ha, hb, ht⟩
    rw [trim_append_left ha, trim_append_right hb, trim_of_trimmed ht]
  · rintro rfl
    exact trims_trim s

/-! ## Words in any case -/

/-- A word with each of its letters small or as a capital. -/
def InAnyCase (word t : List Char) : Prop := List.Forall₂ (fun c d => c = d ∨ c = d.toUpper) t word

theorem toLower_eq_iff {c d : Char} (hd : d.isLower = true) :
    c.toLower = d ↔ c = d ∨ c = d.toUpper := by
  have hsmall : d.toLower = d := Char.toLower_eq_of_not_isUpper (Char.not_isUpper_of_isLower hd)
  constructor
  · rintro rfl
    by_cases hc : c.isUpper = true
    · right
      rw [Char.toUpper_toLower_eq_toUpper]
      exact (Char.toUpper_eq_of_not_isLower (Char.not_isLower_of_isUpper hc)).symm
    · exact .inl (Char.toLower_eq_of_not_isUpper hc).symm
  · rintro (rfl | rfl)
    · exact hsmall
    · rw [Char.toLower_toUpper_eq_toLower, hsmall]

theorem inAnyCase_iff {word t : List Char} (hword : ∀ d ∈ word, d.isLower = true) :
    InAnyCase word t ↔ t.map Char.toLower = word := by
  induction word generalizing t with
  | nil => simp [InAnyCase]
  | cons d word ih =>
    obtain ⟨hd, hword⟩ := List.forall_mem_cons.mp hword
    cases t with
    | nil => simp [InAnyCase]
    | cons c t =>
      have hrest := ih (t := t) hword
      rw [InAnyCase] at hrest ⊢
      rw [List.forall₂_cons, hrest, List.map_cons, List.cons.injEq, toLower_eq_iff hd]

/-! ## Hexadecimal digits -/

def HexDigit (c : Char) : Prop :=
  ('0' ≤ c ∧ c ≤ '9') ∨ ('A' ≤ c ∧ c ≤ 'F') ∨ ('a' ≤ c ∧ c ≤ 'f')

theorem exists_hexValue?_iff {c : Char} : (∃ n, hexValue? c = some n) ↔ HexDigit c := by
  unfold hexValue? HexDigit
  split
  · simp [*]
  · split
    · simp [*]
    · split <;> simp [*]

theorem toNat_le_of_hexDigit {c : Char} (h : HexDigit c) : c.toNat ≤ 102 := by
  rcases h with h | h | h
  · exact Nat.le_trans h.2 (by decide)
  · exact Nat.le_trans h.2 (by decide)
  · exact h.2

theorem byteLength_of_hexDigits {s : List Char} (h : ∀ c ∈ s, HexDigit c) :
    byteLength s = s.length := by
  induction s with
  | nil => rfl
  | cons c r ih =>
    obtain ⟨hc, hr⟩ := List.forall_mem_cons.mp h
    have hle : c.toNat ≤ 127 := Nat.le_trans (toNat_le_of_hexDigit hc) (by decide)
    rw [byteLength_cons, Char.utf8Size_eq_one_iff.mpr hle, ih hr, List.length_cons, Nat.add_comm]

theorem slice?_of_hexDigits {a t b : List Char} (h : ∀ c ∈ a ++ (t ++ b), HexDigit c) :
    slice? a.length (a.length + t.length) (a ++ (t ++ b)) = some t := by
  rw [List.forall_mem_append, List.forall_mem_append] at h
  refine slice?_eq_some_iff.mpr ⟨a, b, rfl, byteLength_of_hexDigits h.1, ?_⟩
  rw [byteLength_append, byteLength_of_hexDigits h.1, byteLength_of_hexDigits h.2.1]

theorem hexDigit_of_ascii : ∀ m < 128, ∀ n ∈ hexValue? (Char.ofNat m),
    hexDigit n = (Char.ofNat m).toUpper := by decide

theorem hexDigit_of_hexValue? {c : Char} {n : Nat} (h : hexValue? c = some n) :
    hexDigit n = c.toUpper := by
  have hle := toNat_le_of_hexDigit (exists_hexValue?_iff.mp ⟨n, h⟩)
  rw [← Char.ofNat_toNat c] at h ⊢
  exact hexDigit_of_ascii c.toNat (by omega) n h

/-- Digits and what they stand for. -/
def Values (digits : List Char) (ns : List Nat) : Prop :=
  List.Forall₂ (fun d n => hexValue? d = some n) digits ns

theorem mapM_hexValue?_iff {digits : List Char} {ns : List Nat} :
    digits.mapM hexValue? = some ns ↔ Values digits ns := by
  unfold Values
  induction digits generalizing ns with
  | nil => simp [eq_comm]
  | cons d digits ih =>
    rw [List.mapM_cons, List.forall₂_cons_left_iff]
    simp only [Option.bind_eq_bind, Option.bind_eq_some_iff, ih]
    constructor
    · rintro ⟨n, hn, ns, hns, ⟨⟩⟩
      exact ⟨n, ns, hn, hns, rfl⟩
    · rintro ⟨n, ns, hn, hns, rfl⟩
      exact ⟨n, hn, ns, hns, rfl⟩

theorem exists_values_iff_hexDigits {digits : List Char} :
    (∃ ns, Values digits ns) ↔ ∀ d ∈ digits, HexDigit d := by
  induction digits with
  | nil => simp [Values]
  | cons d digits ih =>
    rw [List.forall_mem_cons, ← exists_hexValue?_iff, ← ih]
    constructor
    · rintro ⟨_, hv⟩
      cases hv with
      | cons hn hns => exact ⟨⟨_, hn⟩, _, hns⟩
    · rintro ⟨⟨n, hn⟩, ns, hns⟩
      exact ⟨n :: ns, .cons hn hns⟩

theorem Values.map_hexDigit {digits : List Char} {ns : List Nat} (h : Values digits ns) :
    ns.map hexDigit = digits.map Char.toUpper := by
  induction h with
  | nil => rfl
  | cons hn _ ih => rw [List.map_cons, List.map_cons, hexDigit_of_hexValue? hn, ih]

theorem Values.lt {digits : List Char} {ns : List Nat} (h : Values digits ns) : ∀ n ∈ ns, n < 16 := by
  induction h with
  | nil => simp
  | cons hn _ ih => exact List.forall_mem_cons.mpr ⟨hexValue?_lt hn, ih⟩

/-- The number of a byte that digits stand for. A plus sign may come before them. -/
def byteNumber? (s : List Char) : Option UInt8 :=
  let digits := match s with
    | '+' :: r => r
    | s => s
  if digits.isEmpty then none else ((hexNumber? digits).filter (· < 256)).map UInt8.ofNat

theorem byteNumber?_of_values {digits : List Char} {ns : List Nat} (h : Values digits ns)
    (hne : digits ≠ []) (hlt : ns.foldl (fun n d => 16 * n + d) 0 < 256) :
    byteNumber? digits = some (UInt8.ofNat (ns.foldl (fun n d => 16 * n + d) 0)) := by
  have hnumber : hexNumber? digits = some (ns.foldl (fun n d => 16 * n + d) 0) := by
    rw [hexNumber?, mapM_hexValue?_iff.mpr h]
    rfl
  unfold byteNumber?
  split
  · -- A plus sign is no digit.
    cases h with
    | cons hn _ => cases hn
  · simp [hne, hnumber, hlt]

end Ribbon.Text

namespace Ribbon.Color

open Text

/-! ## Forms -/

/-- The ways in which a color is written, each with its full form. -/
inductive Form : List Char → List Char → Prop
  | word {u : List Char} (hu : InAnyCase "transparent".toList u) : Form u "transparent".toList
  | six {digits : List Char} (hlength : digits.length = 6) (hdigits : ∀ d ∈ digits, HexDigit d) :
    Form ('#' :: digits) ('#' :: digits.map Char.toUpper)
  | three {digits : List Char} (hlength : digits.length = 3) (hdigits : ∀ d ∈ digits, HexDigit d) :
    Form ('#' :: digits) ('#' :: (digits.map Char.toUpper).flatMap fun d => [d, d])

theorem channelDigits_channel {m n : Nat} (hm : m < 16) (hn : n < 16) :
    channelDigits (channel m n) = [hexDigit m, hexDigit n] := by
  have hvalue : (channel m n).toNat = 16 * m + n :=
    UInt8.toNat_ofNat_of_lt' (Nat.lt_of_lt_of_le (by omega) (Nat.le_refl 256))
  rw [channelDigits, hvalue, show (16 * m + n) / 16 = m by omega, show (16 * m + n) % 16 = n by omega]

theorem shown_six {ns : List Nat} (hlength : ns.length = 6) (hlt : ∀ n ∈ ns, n < 16) :
    ∃ c, ofDigits? ns = some c ∧ c.shown.toList = '#' :: ns.map hexDigit := by
  match ns, hlength with
  | [a, b, c, d, e, f], _ =>
    refine ⟨_, rfl, ?_⟩
    simp only [List.forall_mem_cons] at hlt
    obtain ⟨ha, hb, hc, hd, he, hf, -⟩ := hlt
    simp [shown, channelDigits_channel, ha, hb, hc, hd, he, hf]

theorem shown_three {ns : List Nat} (hlength : ns.length = 3) (hlt : ∀ n ∈ ns, n < 16) :
    ∃ c, ofDigits? ns = some c ∧
      c.shown.toList = '#' :: (ns.map hexDigit).flatMap fun d => [d, d] := by
  match ns, hlength with
  | [a, b, c], _ =>
    refine ⟨_, rfl, ?_⟩
    simp only [List.forall_mem_cons] at hlt
    obtain ⟨ha, hb, hc, -⟩ := hlt
    simp [shown, channelDigits_channel, ha, hb, hc]

theorem length_of_ofDigits? {ns : List Nat} {c : Color} (h : ofDigits? ns = some c) :
    ns.length = 6 ∨ ns.length = 3 := by
  unfold ofDigits? at h
  split at h
  · exact .inl rfl
  · exact .inr rfl
  · cases h

theorem ofDigits?_eq_none {ns : List Nat} (hsix : ns.length ≠ 6) (hthree : ns.length ≠ 3) :
    ofDigits? ns = none := by
  refine Option.eq_none_iff_forall_ne_some.mpr fun c hc => ?_
  rcases length_of_ofDigits? hc with h | h
  · exact hsix h
  · exact hthree h

theorem ofHash?_of_values {digits : List Char} {ns : List Nat} (h : Values digits ns) :
    ofHash? ('#' :: digits) = ofDigits? ns := by
  rw [ofHash?, mapM_hexValue?_iff.mpr h]
  rfl

theorem exists_values_of_ofHash? {digits : List Char} {c : Color}
    (h : ofHash? ('#' :: digits) = some c) : ∃ ns, Values digits ns ∧ ofDigits? ns = some c := by
  obtain ⟨ns, hns, hc⟩ := Option.bind_eq_some_iff.mp h
  exact ⟨ns, mapM_hexValue?_iff.mp hns, hc⟩

theorem inAnyCase_transparent {u : List Char} :
    InAnyCase "transparent".toList u ↔ u.map Char.toLower = "transparent".toList :=
  inAnyCase_iff (by simp)

theorem ofTrimmed?_hash (digits : List Char) :
    ofTrimmed? ('#' :: digits) = ofHash? ('#' :: digits) := by
  have hhash : Char.toLower '#' = '#' := rfl
  simp [ofTrimmed?, hhash]

theorem exists_of_form {u t : List Char} (h : Form u t) :
    ∃ c, ofTrimmed? u = some c ∧ c.shown.toList = t := by
  cases h with
  | word hu =>
    refine ⟨transparent, ?_, rfl⟩
    rw [ofTrimmed?, if_pos (inAnyCase_transparent.mp hu)]
  | six hlength hdigits =>
    obtain ⟨ns, hns⟩ := exists_values_iff_hexDigits.mpr hdigits
    rw [ofTrimmed?_hash, ofHash?_of_values hns, ← hns.map_hexDigit]
    exact shown_six (hns.length_eq ▸ hlength) hns.lt
  | three hlength hdigits =>
    obtain ⟨ns, hns⟩ := exists_values_iff_hexDigits.mpr hdigits
    rw [ofTrimmed?_hash, ofHash?_of_values hns, ← hns.map_hexDigit]
    exact shown_three (hns.length_eq ▸ hlength) hns.lt

theorem form_of_ofHash? {u : List Char} {c : Color} (h : ofHash? u = some c) :
    Form u c.shown.toList := by
  unfold ofHash? at h
  split at h
  · rename_i digits
    obtain ⟨ns, hns, hc⟩ := exists_values_of_ofHash? h
    have hdigits := exists_values_iff_hexDigits.mp ⟨ns, hns⟩
    rcases length_of_ofDigits? hc with hlength | hlength
    · obtain ⟨d, hd, hshown⟩ := shown_six hlength hns.lt
      obtain rfl : c = d := Option.some.inj (hc.symm.trans hd)
      rw [hshown, hns.map_hexDigit]
      exact .six (hns.length_eq.trans hlength) hdigits
    · obtain ⟨d, hd, hshown⟩ := shown_three hlength hns.lt
      obtain rfl : c = d := Option.some.inj (hc.symm.trans hd)
      rw [hshown, hns.map_hexDigit]
      exact .three (hns.length_eq.trans hlength) hdigits
  · cases h

theorem form_iff {u t : List Char} : Form u t ↔ ∃ c, ofTrimmed? u = some c ∧ c.shown.toList = t := by
  refine ⟨exists_of_form, ?_⟩
  rintro ⟨c, hc, rfl⟩
  unfold ofTrimmed? at hc
  split at hc
  · rename_i hword
    cases hc
    exact .word (inAnyCase_transparent.mpr hword)
  · exact form_of_ofHash? hc

/-! ## Digits taken out by bytes -/

/-- What could go wrong with a channel: its place in the text, its digits or its size. -/
inductive Misread
  | place
  | digits
  | size
  deriving DecidableEq, Repr

def channelAt (digits : List Char) (i j : Nat) : Except Misread UInt8 :=
  match slice? i j digits with
  | none => .error .place
  | some t =>
    match byteNumber? t with
    | none => .error .digits
    | some v => .ok v

/-- The channel of one digit that counts twice. -/
def doubledAt (digits : List Char) (i : Nat) : Except Misread UInt8 := do
  let v ← channelAt digits i (i + 1)
  if 0x11 * v.toNat < 256 then .ok (0x11 * v) else .error .size

def ofSixBytes (digits : List Char) : Except Misread Color := do
  let red ← channelAt digits 0 2
  let green ← channelAt digits 2 4
  let blue ← channelAt digits 4 6
  return solid ⟨red, green, blue⟩

def ofThreeBytes (digits : List Char) : Except Misread Color := do
  let red ← doubledAt digits 0
  let green ← doubledAt digits 1
  let blue ← doubledAt digits 2
  return solid ⟨red, green, blue⟩

/-- The color of what comes after a hash sign, if it is one. -/
def hashByBytes (digits : List Char) : Except Misread (Option Color) :=
  if digits.all fun d => (hexValue? d).isSome then
    if byteLength digits = 6 then (ofSixBytes digits).map some
    else if byteLength digits = 3 then (ofThreeBytes digits).map some
    else .ok none
  else .ok none

/-- Reading a color with its digits taken out by bytes. -/
def readByBytes (s : String) : Except Misread (Except Fault Color) :=
  let t := trim s.toList
  let refused := Except.error (.color (String.ofList t))
  if t.map Char.toLower = "transparent".toList then .ok (.ok transparent)
  else match t with
    | '#' :: digits => (hashByBytes digits).map fun found => found.elim refused .ok
    | _ => .ok refused

theorem channelAt_of_values {a t b : List Char} {ns : List Nat} {n : Nat}
    (h : ∀ c ∈ a ++ (t ++ b), HexDigit c) (hv : Values t ns) (hne : t ≠ [])
    (hn : ns.foldl (fun n d => 16 * n + d) 0 = n) (hlt : n < 256) :
    channelAt (a ++ (t ++ b)) a.length (a.length + t.length) = .ok (UInt8.ofNat n) := by
  have hnumber : byteNumber? t = some (UInt8.ofNat n) := by
    rw [byteNumber?_of_values hv hne (by omega), hn]
  simp only [channelAt, slice?_of_hexDigits h, hnumber]

theorem channelAt_pair {a b : List Char} {d e : Char} {m n : Nat}
    (h : ∀ c ∈ a ++ ([d, e] ++ b), HexDigit c) (hv : Values [d, e] [m, n]) :
    channelAt (a ++ ([d, e] ++ b)) a.length (a.length + 2) = .ok (channel m n) := by
  have hm : m < 16 := hv.lt m (by simp)
  have hn : n < 16 := hv.lt n (by simp)
  exact channelAt_of_values h hv (by simp) (by simp) (by omega)

theorem doubledAt_single {a b : List Char} {d : Char} {n : Nat}
    (h : ∀ c ∈ a ++ ([d] ++ b), HexDigit c) (hv : Values [d] [n]) :
    doubledAt (a ++ ([d] ++ b)) a.length = .ok (channel n n) := by
  have hn : n < 16 := hv.lt n (by simp)
  have hvalue : (UInt8.ofNat n).toNat = n :=
    UInt8.toNat_ofNat_of_lt' (Nat.lt_of_lt_of_le hn (by decide))
  have hdoubled : ∀ n < 16, 0x11 * UInt8.ofNat n = channel n n := by decide
  have hchannel : channelAt (a ++ ([d] ++ b)) a.length (a.length + 1) = .ok (UInt8.ofNat n) :=
    channelAt_of_values h hv (by simp) (by simp) (by omega)
  rw [doubledAt, hchannel, bind_eq_ok]
  refine ⟨_, rfl, ?_⟩
  rw [if_pos (by omega), hdoubled n hn]

theorem ofSixBytes_eq {digits : List Char} {ns : List Nat} (h : Values digits ns)
    (hlength : digits.length = 6) : (ofSixBytes digits).map some = .ok (ofDigits? ns) := by
  have hns : ns.length = 6 := h.length_eq.symm.trans hlength
  match digits, ns, hlength, hns, h with
  | [a, b, c, d, e, f], [k, l, m, n, p, q], _, _, h =>
    have hall := exists_values_iff_hexDigits.mp ⟨_, h⟩
    simp only [Values, List.forall₂_cons] at h
    obtain ⟨hk, hl, hm, hn, hp, hq, -⟩ := h
    have hred : channelAt [a, b, c, d, e, f] 0 2 = .ok (channel k l) :=
      channelAt_pair (a := []) (b := [c, d, e, f]) hall (.cons hk (.cons hl .nil))
    have hgreen : channelAt [a, b, c, d, e, f] 2 4 = .ok (channel m n) :=
      channelAt_pair (a := [a, b]) (b := [e, f]) hall (.cons hm (.cons hn .nil))
    have hblue : channelAt [a, b, c, d, e, f] 4 6 = .ok (channel p q) :=
      channelAt_pair (a := [a, b, c, d]) (b := []) hall (.cons hp (.cons hq .nil))
    rw [ofSixBytes, hred, hgreen, hblue]
    rfl

theorem ofThreeBytes_eq {digits : List Char} {ns : List Nat} (h : Values digits ns)
    (hlength : digits.length = 3) : (ofThreeBytes digits).map some = .ok (ofDigits? ns) := by
  have hns : ns.length = 3 := h.length_eq.symm.trans hlength
  match digits, ns, hlength, hns, h with
  | [a, b, c], [k, l, m], _, _, h =>
    have hall := exists_values_iff_hexDigits.mp ⟨_, h⟩
    simp only [Values, List.forall₂_cons] at h
    obtain ⟨hk, hl, hm, -⟩ := h
    have hred : doubledAt [a, b, c] 0 = .ok (channel k k) :=
      doubledAt_single (a := []) (b := [b, c]) hall (.cons hk .nil)
    have hgreen : doubledAt [a, b, c] 1 = .ok (channel l l) :=
      doubledAt_single (a := [a]) (b := [c]) hall (.cons hl .nil)
    have hblue : doubledAt [a, b, c] 2 = .ok (channel m m) :=
      doubledAt_single (a := [a, b]) (b := []) hall (.cons hm .nil)
    rw [ofThreeBytes, hred, hgreen, hblue]
    rfl

theorem hashByBytes_eq (digits : List Char) : hashByBytes digits = .ok (ofHash? ('#' :: digits)) := by
  have htest : (digits.all fun d => (hexValue? d).isSome) = true ↔ ∀ d ∈ digits, HexDigit d := by
    simp [Option.isSome_iff_exists, exists_hexValue?_iff]
  unfold hashByBytes
  split
  · rename_i hdigits
    obtain ⟨ns, hns⟩ := exists_values_iff_hexDigits.mpr (htest.mp hdigits)
    rw [byteLength_of_hexDigits (htest.mp hdigits), ofHash?_of_values hns]
    split
    · rename_i hsix
      exact ofSixBytes_eq hns hsix
    · rename_i hsix
      split
      · rename_i hthree
        exact ofThreeBytes_eq hns hthree
      · rename_i hthree
        rw [hns.length_eq] at hsix hthree
        rw [ofDigits?_eq_none hsix hthree]
  · rename_i hdigits
    have hnone : ofHash? ('#' :: digits) = none := by
      refine Option.eq_none_iff_forall_ne_some.mpr fun c hc => hdigits (htest.mpr ?_)
      obtain ⟨ns, hns, -⟩ := exists_values_of_ofHash? hc
      exact exists_values_iff_hexDigits.mp ⟨ns, hns⟩
    rw [hnone]

/-- A sign would pass for a part of a number. It does not pass for a digit before. -/
example : byteNumber? ['+', 'f'] = some 15 ∧ hashByBytes ['+', 'f', 'f'] = .ok none := by decide

theorem readByBytes_eq (s : String) : readByBytes s = .ok (read s) := by
  unfold readByBytes read
  simp only
  generalize trim s.toList = t
  by_cases hword : t.map Char.toLower = "transparent".toList
  · rw [if_pos hword, ofTrimmed?, if_pos hword]
  · rw [if_neg hword, ofTrimmed?, if_neg hword]
    split
    · rename_i digits
      rw [hashByBytes_eq]
      cases ofHash? ('#' :: digits) <;> rfl
    · rename_i hhash
      rw [ofHash?.eq_2 t hhash]

/-! ## Main result -/

theorem trimmed_shown (c : Color) : Trimmed c.shown.toList := by
  have hdigit : ∀ n < 16, isBlank (hexDigit n) = false := by decide
  cases c with
  | transparent => exact ⟨by simp [shown, isBlank], by simp [shown, isBlank]⟩
  | solid rgb =>
    have hlast := hdigit (rgb.blue.toNat % 16) (Nat.mod_lt _ (by decide))
    constructor
    · simp [shown, isBlank]
    · simpa [shown, channelDigits] using hlast

theorem read_shown (c : Color) : read c.shown = .ok c := by
  rw [read, trim_of_trimmed (trimmed_shown c), ofTrimmed?_shown]

/-- A text is read as a color exactly if it is one of its forms, blanks around it aside, and what is
shown is the full form. Nothing goes wrong in taking out the digits, and what is shown for a color
is read as that color. -/
theorem read_forms :
    (∀ s : String, ∃ u, (∀ t, Trims s.toList t ↔ t = u) ∧
      (∀ t, Form u t ↔ ∃ c, read s = .ok c ∧ c.shown.toList = t) ∧
      (∀ e, read s = .error e ↔ (∀ t, ¬ Form u t) ∧ e = .color (String.ofList u)) ∧
      readByBytes s = .ok (read s)) ∧
    ∀ c : Color, read c.shown = .ok c := by
  refine ⟨fun s => ⟨trim s.toList, fun t => trims_iff, ?_, ?_, readByBytes_eq s⟩, read_shown⟩
  · simp only [form_iff, read_eq_ok, implies_true]
  · intro e
    have hrefused : (∀ c, read s ≠ .ok c) ↔ ∀ t, ¬ Form (trim s.toList) t := by
      simp [form_iff, read_eq_ok]
    rw [read_eq_error, hrefused]

end Ribbon.Color
