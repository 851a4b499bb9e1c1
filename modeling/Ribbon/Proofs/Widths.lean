import Mathlib.Data.List.Induction
import Mathlib.Order.Monotone.Defs
import Ribbon.Proofs.Timeline

/-!
# Widths of a line

The widths of segments and their sum stop at the last word. A line that is cut into segments is as
wide as it is whole, also where the widths of its segments stop there one by one.
-/

namespace Ribbon

open Text

namespace Word

/-- Summands that are cut off leave the sum as it is, cut off itself. -/
theorem saturate_add (m n : Nat) : saturate (saturate m + saturate n) = saturate (m + n) := by
  rw [saturate_add_saturate, Nat.add_comm, saturate_add_saturate, Nat.add_comm]

theorem saturate_mono {m n : Nat} (h : m ≤ n) : saturate m ≤ saturate n := by
  simp only [saturate]
  omega

end Word

namespace Strip

/-- One step of adding widths up. -/
theorem width_concat (n : Nat) (gs : List Segment) (g : Segment) :
    (Strip.mk n (gs ++ [g])).width = Word.saturate ((Strip.mk n gs).width + g.width) := by
  simp [width]

theorem text_concat (n : Nat) (gs : List Segment) (g : Segment) :
    (Strip.mk n (gs ++ [g])).text = (Strip.mk n gs).text ++ g.text := by
  simp [text]

end Strip

namespace Scheme

variable {τ : Type} (k : Scheme τ)

theorem widthOf_append (s t : List Char) :
    k.widthOf (s ++ t) = Word.saturate (k.widthOf s + k.widthOf t) := by
  unfold widthOf
  rw [List.length_append, Nat.add_mul, Word.saturate_add]

theorem widthOf_mono {s t : List Char} (h : s.length ≤ t.length) : k.widthOf s ≤ k.widthOf t :=
  Word.saturate_mono (Nat.mul_le_mul_right k.charWidth h)

/-- Whatever has been added up so far is as wide as its text. -/
theorem width_eq_widthOf (n : Nat) {gs : List Segment} (h : ∀ g ∈ gs, g.width = k.widthOf g.text) :
    (Strip.mk n gs).width = k.widthOf (Strip.mk n gs).text := by
  induction gs using List.reverseRecOn with
  | nil => simp [Strip.width, Strip.text, widthOf, Word.saturate]
  | append_singleton gs g ih =>
    obtain ⟨hgs, hg⟩ := List.forall_mem_append.mp h
    rw [Strip.width_concat, Strip.text_concat, widthOf_append, ih hgs, hg g List.mem_cons_self]

variable [Tests τ]

theorem width_of_mem_segments {line : List Char} {g : Segment} (h : g ∈ k.segments line) :
    g.width = k.widthOf g.text := by
  obtain ⟨x, -, rfl⟩ := exists_lexeme_of_mem_segments k h
  rfl

theorem width_take (line : List Char) (n i : Nat) :
    (Strip.mk n ((k.segments line).take i)).width =
      k.widthOf (Strip.mk n ((k.segments line).take i)).text :=
  width_eq_widthOf k n fun _ hg => width_of_mem_segments k (List.mem_of_mem_take hg)

theorem length_text_take (gs : List Segment) (n : Nat) {i j : Nat} (h : i ≤ j) :
    (Strip.mk n (gs.take i)).text.length ≤ (Strip.mk n (gs.take j)).text.length := by
  obtain ⟨rest, hrest⟩ := List.take_prefix_take_left (l := gs) h
  rw [← hrest]
  simp [Strip.text]

/-- Cutting a line into segments neither adds width nor takes any away. Each product and each sum on
the way is exact as long as it is a word and stops at the last word otherwise, so that the sums never
fall. -/
theorem width_preserved (line : List Char) (n : Nat) :
    (Strip.mk n (k.segments line)).width = k.widthOf line ∧
    k.widthOf line = min 0xFFFFFFFFFFFFFFFF (line.length * k.charWidth) ∧
    (∀ g ∈ k.segments line, g.width = min 0xFFFFFFFFFFFFFFFF (g.text.length * k.charWidth)) ∧
    (∀ i, (Strip.mk n ((k.segments line).take i)).width = min 0xFFFFFFFFFFFFFFFF
      ((Strip.mk n ((k.segments line).take i)).text.length * k.charWidth)) ∧
    Monotone fun i => (Strip.mk n ((k.segments line).take i)).width := by
  refine ⟨?_, rfl, fun g hg => width_of_mem_segments k hg, fun i => width_take k line n i, ?_⟩
  · rw [width_eq_widthOf k n fun _ hg => width_of_mem_segments k hg, text_strip]
  · intro i j h
    simp only [width_take]
    exact widthOf_mono k (length_text_take (k.segments line) n h)

/-- The first segment is too wide for a word, the others are not. -/
theorem width_preserved_saturated :
    (⟨['a', 'b', 'c'], .variableName, 0xFFFFFFFFFFFFFFFF⟩ : Segment) ∈
        (standard 0x7FFFFFFFFFFFFFFF).segments ['a', 'b', 'c', ' ', 'x'] ∧
      0xFFFFFFFFFFFFFFFF = min 0xFFFFFFFFFFFFFFFF (3 * 0x7FFFFFFFFFFFFFFF) ∧
      (Strip.mk 1 ((standard 0x7FFFFFFFFFFFFFFF).segments ['a', 'b', 'c', ' ', 'x'])).width =
        (standard 0x7FFFFFFFFFFFFFFF).widthOf ['a', 'b', 'c', ' ', 'x'] := by
  have hmem : (⟨['a', 'b', 'c'], .variableName, 0xFFFFFFFFFFFFFFFF⟩ : Segment) ∈
      (standard 0x7FFFFFFFFFFFFFFF).segments ['a', 'b', 'c', ' ', 'x'] := by decide
  obtain ⟨hwhole, -, hsegments, -⟩ :=
    width_preserved (standard 0x7FFFFFFFFFFFFFFF) ['a', 'b', 'c', ' ', 'x'] 1
  exact ⟨hmem, hsegments _ hmem, hwhole⟩

end Scheme

end Ribbon
