import Ribbon.Proofs.Runs

/-!
# Places

The lexemes of a line lie side by side, and what comes right after one is the beginning of the next.
-/

namespace Ribbon.Lexeme

open Text

/-! ## Side by side -/

/-- Each lexeme begins at the byte at which the one before it stops, the first at `n`. -/
def Tiles : Nat → List Lexeme → Prop
  | _, [] => True
  | n, x :: xs => x.offset = n ∧ Tiles x.stop xs

/-- What the lexemes spell out together. -/
def spelled (xs : List Lexeme) : List Char := (xs.map text).flatten

theorem spelled_append (xs ys : List Lexeme) : spelled (xs ++ ys) = spelled xs ++ spelled ys := by
  simp [spelled]

theorem spelled_cons (x : Lexeme) (xs : List Lexeme) : spelled (x :: xs) = x.text ++ spelled xs := by
  simp [spelled]

theorem spelled_ofLine (line : List Char) : spelled (ofLine line) = line := flatten_ofLine line

theorem tiles_placed (n : Nat) (ts : List (List Char)) : Tiles n (placed n ts) := by
  induction ts generalizing n with
  | nil => exact trivial
  | cons t ts ih => exact ⟨rfl, ih _⟩

theorem tiles_filter (n : Nat) (xs : List Lexeme) (h : Tiles n xs) :
    Tiles n (xs.filter fun x => !x.text.isEmpty) := by
  induction xs generalizing n with
  | nil => exact trivial
  | cons x xs ih =>
    obtain ⟨hx, hxs⟩ := h
    by_cases hempty : x.text = []
    · have hstop : x.stop = n := by rw [stop, hempty, hx, byteLength_nil, Nat.add_zero]
      simpa [hempty] using ih n (hstop ▸ hxs)
    · simpa [hempty] using ⟨hx, ih _ hxs⟩

theorem tiles_append (n : Nat) (xs ys : List Lexeme) :
    Tiles n (xs ++ ys) ↔ Tiles n xs ∧ Tiles (n + byteLength (spelled xs)) ys := by
  induction xs generalizing n with
  | nil => simp [Tiles, spelled]
  | cons x xs ih =>
    rw [List.cons_append, Tiles, Tiles, ih, spelled_cons, byteLength_append, and_assoc]
    constructor
    · rintro ⟨hx, hxs, hys⟩
      rw [stop, hx, Nat.add_assoc] at hys
      exact ⟨hx, hxs, hys⟩
    · rintro ⟨hx, hxs, hys⟩
      rw [← Nat.add_assoc, ← hx] at hys
      exact ⟨hx, hxs, hys⟩

theorem spelled_ofCode (code : List Char) : spelled (ofCode code) = code := by
  unfold spelled
  rw [map_text_ofCode]
  exact (canonical_cut code).flatten

theorem spelled_placed (n : Nat) (ts : List (List Char)) : spelled (placed n ts) = ts.flatten := by
  rw [spelled, map_text_placed]

theorem tiles_allOfLine (line : List Char) : Tiles 0 (allOfLine line) := by
  rw [allOfLine_eq, tiles_append, spelled_placed, flatten_cut, Nat.zero_add]
  refine ⟨tiles_placed 0 _, ?_⟩
  unfold ofComment
  split
  · exact trivial
  · exact ⟨rfl, trivial⟩

theorem tiles_ofLine (line : List Char) : Tiles 0 (ofLine line) :=
  tiles_filter 0 _ (tiles_allOfLine line)

theorem text_ne_nil {line : List Char} {x : Lexeme} (h : x ∈ ofLine line) : x.text ≠ [] := by
  have := (List.mem_filter.mp h).2
  simpa using this

/-! ## The next character -/

/-- A lexeme with the text before it and the text after it. -/
theorem line_around {line : List Char} {xs ys : List Lexeme} {x : Lexeme}
    (h : ofLine line = xs ++ x :: ys) :
    line = spelled xs ++ (x.text ++ spelled ys) ∧ x.offset = byteLength (spelled xs) := by
  have htiles := tiles_ofLine line
  rw [h, tiles_append, Nat.zero_add] at htiles
  refine ⟨?_, htiles.2.1⟩
  rw [← spelled_ofLine line, h, spelled_append, spelled_cons]

theorem next?_of_split {line : List Char} {xs ys : List Lexeme} {x : Lexeme}
    (h : ofLine line = xs ++ x :: ys) : x.next? line = (spelled ys).head? := by
  obtain ⟨hline, hoffset⟩ := line_around h
  have hstop : x.stop = byteLength (spelled xs ++ x.text) := by
    rw [stop, hoffset, byteLength_append]
  rw [next?, hstop, hline, ← List.append_assoc, afterBytes?_append]
  rfl

/-- Looking one character ahead is looking at the next lexeme. -/
theorem next?_getElem (line : List Char) (i : Nat) (hi : i < (ofLine line).length) :
    (ofLine line)[i].next? line = (ofLine line)[i + 1]?.bind fun y => y.text.head? := by
  have hsplit : ofLine line = (ofLine line).take i ++ (ofLine line)[i] :: (ofLine line).drop (i + 1) := by
    rw [← List.drop_eq_getElem_cons hi, List.take_append_drop]
  rw [next?_of_split hsplit, ← List.head?_drop]
  cases hdrop : (ofLine line).drop (i + 1) with
  | nil => rfl
  | cons y ys =>
    have hy : y ∈ ofLine line := List.mem_of_mem_drop (hdrop ▸ List.mem_cons_self)
    obtain ⟨c, r, hc⟩ := List.exists_cons_of_ne_nil (text_ne_nil hy)
    simp [spelled_cons, hc]

end Ribbon.Lexeme
