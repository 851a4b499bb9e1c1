import Ribbon.Lexicon
import Ribbon.Proofs.Turns

/-!
# Lexemes taken out by bytes

A line is held as UTF-8, and its pieces lie between two of its bytes. `ofBytes?` looks for separators
from left to right and takes the pieces out one after the other. It would fail where a cut goes
through a character or past the end; it never does, and its pieces are those of `allOfLine`. What a
rule sees after a lexeme is how the next lexeme begins.
-/

namespace Ribbon.Text

/-! ## Slices of a text -/

/-- A place in a text at which a character begins, or the end of the text. -/
def Boundary (n : Nat) (s : List Char) : Prop := ∃ a b, s = a ++ b ∧ byteLength a = n

/-- The first `n` bytes; nothing if the cut is inside a character or past the end. -/
def firstBytes? (n : Nat) : List Char → Option (List Char)
  | [] => if n = 0 then some [] else none
  | c :: r =>
    if n = 0 then some []
    else if c.utf8Size ≤ n then (firstBytes? (n - c.utf8Size) r).map (c :: ·) else none

/-- The bytes from `i` up to `j`; nothing if one of them is no boundary. -/
def slice? (i j : Nat) (s : List Char) : Option (List Char) :=
  if i ≤ j then (afterBytes? i s).bind (firstBytes? (j - i)) else none

theorem firstBytes?_zero (s : List Char) : firstBytes? 0 s = some [] := by
  cases s <;> rfl

theorem firstBytes?_append (a b : List Char) : firstBytes? (byteLength a) (a ++ b) = some a := by
  induction a with
  | nil => exact firstBytes?_zero b
  | cons c r ih =>
    have hpos := c.utf8Size_pos
    have hne : byteLength (c :: r) ≠ 0 := by
      rw [byteLength_cons]
      omega
    rw [List.cons_append, firstBytes?, if_neg hne, byteLength_cons, if_pos (Nat.le_add_right _ _),
      Nat.add_sub_cancel_left, ih]
    rfl

theorem firstBytes?_eq_some_iff {n : Nat} {s a : List Char} :
    firstBytes? n s = some a ↔ ∃ b, s = a ++ b ∧ byteLength a = n := by
  constructor
  · intro h
    induction s generalizing n a with
    | nil =>
      simp only [firstBytes?] at h
      split at h
      · exact ⟨[], by simp_all⟩
      · cases h
    | cons c r ih =>
      simp only [firstBytes?] at h
      split at h
      · exact ⟨c :: r, by simp_all⟩
      · split at h
        · obtain ⟨a, ha, rfl⟩ := Option.map_eq_some_iff.mp h
          obtain ⟨b, rfl, hlen⟩ := ih ha
          exact ⟨b, rfl, by rw [byteLength_cons]; omega⟩
        · cases h
  · rintro ⟨b, rfl, rfl⟩
    exact firstBytes?_append a b

theorem slice?_eq_some_iff {i j : Nat} {s t : List Char} :
    slice? i j s = some t ↔
      ∃ a b, s = a ++ (t ++ b) ∧ byteLength a = i ∧ byteLength (a ++ t) = j := by
  unfold slice?
  constructor
  · intro h
    split at h
    · rename_i hle
      obtain ⟨r, hr, ht⟩ := Option.bind_eq_some_iff.mp h
      obtain ⟨a, rfl, ha⟩ := afterBytes?_eq_some_iff.mp hr
      obtain ⟨b, rfl, hb⟩ := firstBytes?_eq_some_iff.mp ht
      exact ⟨a, b, rfl, ha, by rw [byteLength_append]; omega⟩
    · cases h
  · rintro ⟨a, b, rfl, rfl, rfl⟩
    rw [byteLength_append, if_pos (Nat.le_add_right _ _), afterBytes?_append, Option.bind_some,
      Nat.add_sub_cancel_left, firstBytes?_append]

example : slice? 1 3 ['a', 'π', 'b'] = some ['π'] ∧ slice? 2 3 ['a', 'π', 'b'] = none := by decide

theorem boundary_of_slice {i j : Nat} {s t : List Char} (h : slice? i j s = some t) :
    Boundary i s ∧ Boundary j s := by
  obtain ⟨a, b, rfl, hi, hj⟩ := slice?_eq_some_iff.mp h
  exact ⟨⟨a, t ++ b, rfl, hi⟩, ⟨a ++ t, b, (List.append_assoc a t b).symm, hj⟩⟩

end Ribbon.Text

namespace Ribbon.Lexeme

open Text

/-! ## Pieces of a line by bytes -/

/-- Where the separators of a code text begin and stop, when it begins at byte `n`: from left to
right, blanks as far as they go, or one mark. -/
def separatorBytes (n : Nat) : List Char → List (Nat × Nat)
  | [] => []
  | c :: r =>
    if isBlank c then
      let stop := n + byteLength (c :: r.takeWhile isBlank)
      (n, stop) :: separatorBytes stop (r.dropWhile isBlank)
    else if isMark c then (n, n + c.utf8Size) :: separatorBytes (n + c.utf8Size) r
    else separatorBytes (n + c.utf8Size) r
termination_by s => s.length
decreasing_by
  · have := (List.dropWhile_sublist isBlank (l := r)).length_le
    rw [List.length_cons]
    omega
  · exact Nat.lt_succ_self _
  · exact Nat.lt_succ_self _

/-- What lies between the separators of a code text, and they themselves, from byte `last` on. -/
def piecesByBytes? (code : List Char) (last : Nat) : List (Nat × Nat) → Option (List Lexeme)
  | [] => do
    let plain ← slice? last (byteLength code) code
    return [⟨plain, last, false⟩]
  | (start, stop) :: rest => do
    let plain ← slice? last start code
    let separator ← slice? start stop code
    let pieces ← piecesByBytes? code stop rest
    return ⟨plain, last, false⟩ :: ⟨separator, start, false⟩ :: pieces

/-- The byte at which the comment of a line begins. -/
def commentByte? (line : List Char) : Option Nat :=
  let (code, comment) := cutComment line
  if comment.isEmpty then none else some (byteLength code)

/-- The pieces of a line, taken out of it by bytes. -/
def ofBytes? (line : List Char) : Option (List Lexeme) :=
  match commentByte? line with
  | none => piecesByBytes? line 0 (separatorBytes 0 line)
  | some start => do
    let code ← slice? 0 start line
    let pieces ← piecesByBytes? code 0 (separatorBytes 0 code)
    let comment ← slice? start (byteLength line) line
    return pieces ++ [⟨comment, start, true⟩]

theorem slice?_append (a t b : List Char) :
    slice? (byteLength a) (byteLength a + byteLength t) (a ++ (t ++ b)) = some t :=
  slice?_eq_some_iff.mpr ⟨a, b, rfl, rfl, byteLength_append a t⟩

theorem slice?_last (a t : List Char) :
    slice? (byteLength a) (byteLength (a ++ t)) (a ++ t) = some t :=
  slice?_eq_some_iff.mpr ⟨a, [], by rw [List.append_nil], rfl, rfl⟩

theorem separatorBytes_plain {p : List Char} (hp : ∀ c ∈ p, isPlain c = true) (n : Nat)
    (r : List Char) : separatorBytes n (p ++ r) = separatorBytes (n + byteLength p) r := by
  induction p generalizing n with
  | nil => rfl
  | cons c p ih =>
    obtain ⟨hc, hp⟩ := List.forall_mem_cons.mp hp
    obtain ⟨hmark, hblank⟩ : isMark c = false ∧ isBlank c = false := by simpa [isPlain] using hc
    have hstep : separatorBytes n (c :: (p ++ r)) = separatorBytes (n + c.utf8Size) (p ++ r) := by
      rw [separatorBytes.eq_def]
      simp only [hblank, hmark, Bool.false_eq_true, if_false]
    rw [List.cons_append, hstep, ih hp, byteLength_cons, Nat.add_assoc]

theorem separatorBytes_mark {c : Char} (hc : c ∈ marks) (n : Nat) (r : List Char) :
    separatorBytes n (c :: r) = (n, n + c.utf8Size) :: separatorBytes (n + c.utf8Size) r := by
  rw [separatorBytes.eq_def]
  simp only [isBlank_of_mark hc, (isMark_iff c).mpr hc, Bool.false_eq_true, if_false, if_true]

theorem separatorBytes_blank {s r : List Char} (hs : BlankRun s)
    (hr : ∀ c ∈ r.head?, isBlank c = false) (n : Nat) :
    separatorBytes n (s ++ r) = (n, n + byteLength s) :: separatorBytes (n + byteLength s) r := by
  obtain ⟨hne, hs⟩ := hs
  obtain ⟨c, s, rfl⟩ := List.exists_cons_of_ne_nil hne
  obtain ⟨hc, hs⟩ := List.forall_mem_cons.mp hs
  have hrun : r.takeWhile isBlank = [] ∧ r.dropWhile isBlank = r := by
    cases r with
    | nil => exact ⟨rfl, rfl⟩
    | cons d r => simp [hr d rfl]
  rw [List.cons_append, separatorBytes.eq_def]
  simp only [hc, if_true, List.takeWhile_append_of_pos hs, List.dropWhile_append_of_pos hs, hrun.1,
    hrun.2, List.append_nil]

theorem separatorBytes_separator {p s q : List Char} {rest : List (List Char × List Char)}
    (hk : Proper ⟨p, (s, q) :: rest⟩) (n : Nat) :
    separatorBytes n (s ++ (Cut.mk q rest).texts.flatten) =
      (n, n + byteLength s) :: separatorBytes (n + byteLength s) (Cut.mk q rest).texts.flatten := by
  rcases hk.separator (s, q) List.mem_cons_self with hblank | ⟨c, hc, hs⟩
  · exact separatorBytes_blank hblank (not_blank_next hk hblank) n
  · obtain rfl : s = [c] := hs
    exact separatorBytes_mark hc n _

/-- What comes before byte `last` has been taken out, and the rest of the cut is still there. -/
theorem piecesByBytes?_eq (before plain : List Char) (rest : List (List Char × List Char))
    (hk : Proper ⟨plain, rest⟩) :
    piecesByBytes? (before ++ (Cut.mk plain rest).texts.flatten) (byteLength before)
        (separatorBytes (byteLength before) (Cut.mk plain rest).texts.flatten) =
      some (placed (byteLength before) (Cut.mk plain rest).texts) := by
  induction rest generalizing before plain with
  | nil =>
    have hnone : separatorBytes (byteLength before) (plain ++ []) = [] := by
      rw [separatorBytes_plain hk.first, separatorBytes.eq_def]
    rw [List.append_nil] at hnone
    rw [Cut.flatten_texts_nil, hnone, piecesByBytes?, slice?_last]
    rfl
  | cons sq rest ih =>
    obtain ⟨separator, next⟩ := sq
    have hseparator := slice?_append (before ++ plain) separator (Cut.mk next rest).texts.flatten
    have hrest := ih (before ++ plain ++ separator) next hk.tail
    simp only [List.append_assoc, byteLength_append, ← Nat.add_assoc] at hseparator hrest
    rw [Cut.flatten_texts_cons, separatorBytes_plain hk.first, separatorBytes_separator hk,
      piecesByBytes?, slice?_append, hseparator, hrest]
    rfl

theorem piecesByBytes?_cut (code : List Char) :
    piecesByBytes? code 0 (separatorBytes 0 code) = some (placed 0 (cut code).texts) := by
  have h := piecesByBytes?_eq [] (cut code).first (cut code).rest (proper_cut code)
  rwa [List.nil_append, flatten_cut, byteLength_nil] at h

theorem ofBytes?_eq (line : List Char) : ofBytes? line = some (allOfLine line) := by
  have hwhole := cutComment_append line
  rw [allOfLine_eq, ofBytes?, commentByte?, ofComment]
  by_cases hempty : (cutComment line).2.isEmpty = true
  · rw [List.isEmpty_iff] at hempty
    rw [hempty, List.append_nil] at hwhole
    simp [hempty, hwhole, piecesByBytes?_cut]
  · have hcode := slice?_append [] (cutComment line).1 (cutComment line).2
    have hcomment := slice?_last (cutComment line).1 (cutComment line).2
    rw [List.nil_append, byteLength_nil, Nat.zero_add, hwhole] at hcode
    rw [hwhole] at hcomment
    simp [hempty, hcode, hcomment, piecesByBytes?_cut]

/-! ## Lexemes from one end of a line to the other -/

theorem tiles_iff_isChain (n : Nat) (xs : List Lexeme) :
    Tiles n xs ↔ (∀ x ∈ xs.head?, x.offset = n) ∧ xs.IsChain fun x y => y.offset = x.stop := by
  induction xs generalizing n with
  | nil => simp [Tiles]
  | cons x xs ih =>
    rw [Tiles, ih, List.isChain_cons]
    simp

/-- Lexemes that lie side by side on a line from its first byte to its last. -/
structure Spans (line : List Char) (xs : List Lexeme) : Prop where
  empty : xs = [] → line = []
  first : ∀ x ∈ xs.head?, x.offset = 0
  next : xs.IsChain fun x y => y.offset = x.stop
  last : ∀ x ∈ xs.getLast?, x.stop = byteLength line
  boundary : ∀ x ∈ xs, Boundary x.offset line ∧ Boundary x.stop line
  slice : ∀ x ∈ xs, slice? x.offset x.stop line = some x.text

theorem slice_ofLine {line : List Char} {x : Lexeme} (hx : x ∈ ofLine line) :
    slice? x.offset x.stop line = some x.text := by
  obtain ⟨before, after, hsplit⟩ := List.append_of_mem hx
  obtain ⟨hline, hoffset⟩ := line_around hsplit
  exact slice?_eq_some_iff.mpr ⟨spelled before, spelled after, hline, hoffset.symm, by
    rw [byteLength_append, stop, hoffset]⟩

theorem stop_last {line : List Char} {x : Lexeme} (hx : (ofLine line).getLast? = some x) :
    x.stop = byteLength line := by
  obtain ⟨before, hsplit⟩ := List.getLast?_eq_some_iff.mp hx
  obtain ⟨hline, hoffset⟩ := line_around hsplit
  rw [hline, stop, hoffset]
  simp [spelled]

theorem spans_ofLine (line : List Char) : Spans line (ofLine line) where
  empty hnil := by rw [← spelled_ofLine line, hnil, spelled, List.map_nil, List.flatten_nil]
  first := ((tiles_iff_isChain 0 _).mp (tiles_ofLine line)).1
  next := ((tiles_iff_isChain 0 _).mp (tiles_ofLine line)).2
  last _ hx := stop_last hx
  boundary _ hx := boundary_of_slice (slice_ofLine hx)
  slice _ hx := slice_ofLine hx

theorem stop_le {line : List Char} {x : Lexeme} (hx : x ∈ ofLine line) :
    x.stop ≤ byteLength line := by
  obtain ⟨a, b, hline, hstop⟩ := ((spans_ofLine line).boundary x hx).2
  rw [← hstop, hline, byteLength_append]
  exact Nat.le_add_right _ _

/-! ## Looking ahead -/

theorem next?_eq_some_iff (line : List Char) (i : Nat) (hi : i < (ofLine line).length) (c : Char) :
    (ofLine line)[i].next? line = some c ↔
      ∃ y ∈ (ofLine line)[i + 1]?, y.text.head? = some c := by
  rw [next?_getElem line i hi, Option.bind_eq_some_iff]
  rfl

theorem next?_eq_none_iff (line : List Char) (i : Nat) (hi : i < (ofLine line).length) :
    (ofLine line)[i].next? line = none ↔ i + 1 = (ofLine line).length := by
  rw [next?_getElem line i hi]
  cases hy : (ofLine line)[i + 1]? with
  | none =>
    have hlen := List.getElem?_eq_none_iff.mp hy
    exact iff_of_true rfl (by omega)
  | some y =>
    obtain ⟨hlt, -⟩ := List.getElem?_eq_some_iff.mp hy
    have hne := text_ne_nil (List.mem_of_getElem? hy)
    exact iff_of_false (by simpa using hne) (by omega)

/-- Lexemes lie side by side on their line, none of them is cut out wrongly, and the character after
one of them is the first of the next one. Rules that look ahead see no more than that, and they do
not fail at a lexeme of a line whose length is a word. -/
theorem lexemes_contiguous (line : List Char) :
    Spans line (ofLine line) ∧ ofBytes? line = some (allOfLine line) ∧
    (byteLength line < Word.size → ∀ x ∈ ofLine line, x.lookAhead line = .ok (x.next? line) ∧
      ∀ {π : Type} [Pattern π] (rules : Lexicon (Test π)),
        rules.classify line x = .ok (rules.categoryOf line x)) ∧
    ∀ i : Fin (ofLine line).length,
      (((ofLine line).get i).next? line = none ↔ i.val + 1 = (ofLine line).length) ∧
      (∀ c, ((ofLine line).get i).next? line = some c ↔
        ∃ y ∈ (ofLine line)[i.val + 1]?, y.text.head? = some c) ∧
      ∀ {π : Type} [Pattern π] (pattern : π) (excluded : List String) (c : Char),
        (Test.nameBefore pattern excluded c).holds line ((ofLine line).get i) = true ↔
          (Test.name pattern excluded).holds line ((ofLine line).get i) = true ∧
            ∃ y ∈ (ofLine line)[i.val + 1]?, y.text.head? = some c := by
  refine ⟨spans_ofLine line, ofBytes?_eq line, fun hlength x hx => ?_, fun i => ⟨?_, ?_, ?_⟩⟩
  · have hstop : x.stop < Word.size := Nat.lt_of_le_of_lt (stop_le hx) hlength
    exact ⟨lookAhead_of_lt hstop line, fun rules => rules.classify_of_lt line hstop⟩
  · exact next?_eq_none_iff line i i.isLt
  · exact next?_eq_some_iff line i i.isLt
  · intro π _ pattern excluded c
    simp only [Test.holds]
    rw [Bool.and_eq_true, beq_iff_eq]
    exact and_congr_right fun _ => next?_eq_some_iff line i i.isLt c

end Ribbon.Lexeme
