import Mathlib.Data.List.Sort
import Ribbon.Proofs.Places
import Ribbon.Strip

/-!
# Faithful strips

The strips of a text are its lines that are not empty, each with its number and its whole text. The
strips of a line do not depend on the lines around it.
-/

namespace Ribbon.Scheme

open Text

/-! ## Lines -/

theorem dropReturn_eq (p : List Char) :
    dropReturn p = if p.getLast? = some '\r' then p.dropLast else p := by
  fun_induction dropReturn p with
  | case1 => rfl
  | case2 => rfl
  | case3 c r hreturn ih =>
    cases r with
    | nil =>
      have hc : c ≠ '\r' := fun h => hreturn (by rw [h]) rfl
      simp [dropReturn, hc]
    | cons d s =>
      rw [ih, List.getLast?_cons_cons, List.dropLast_cons_cons]
      split <;> rfl

/-- A text cut at its line feeds, and at most one `\r` taken off the end of each piece. -/
def pieces (text : List Char) : List (List Char) :=
  (text.splitOn '\n').map fun p => if p.getLast? = some '\r' then p.dropLast else p

theorem lines_eq_pieces (text : List Char) : lines text = pieces text := by
  unfold lines pieces
  exact List.map_congr_left fun p _ => dropReturn_eq p

theorem newline_notMem_line {text line : List Char} (h : line ∈ lines text) : '\n' ∉ line := by
  obtain ⟨p, hp, rfl⟩ := List.mem_map.mp h
  have hsub : (dropReturn p).Sublist p := by
    rw [dropReturn_eq]
    split
    · exact List.dropLast_sublist p
    · exact List.Sublist.refl p
  exact fun hmem => notMem_of_mem_splitOn hp (hsub.subset hmem)

/-! ## Strips and lines -/

variable {τ : Type} [Tests τ] (k : Scheme τ)

theorem strip?_of_ne_nil {line : List Char} (h : line ≠ []) (n : Nat) :
    k.strip? (line, n) = some ⟨n, k.segments line⟩ := by
  unfold strip?
  split
  · rename_i hnil
    exact absurd ((k.segments_eq_nil_iff line).mp hnil) h
  · rfl

/-- The lines that are not empty, each with its place counted from 1. -/
def filled (ls : List (List Char)) : List (List Char × Nat) :=
  (ls.zipIdx 1).filter fun p => !p.1.isEmpty

theorem filterMap_strip? (ps : List (List Char × Nat)) :
    ps.filterMap k.strip? =
      (ps.filter fun p => !p.1.isEmpty).map fun p => ⟨p.2, k.segments p.1⟩ := by
  induction ps with
  | nil => rfl
  | cons p ps ih =>
    obtain ⟨line, n⟩ := p
    cases line with
    | nil => exact ih
    | cons c r => simp [strip?_of_ne_nil k (List.cons_ne_nil c r), ih]

theorem strips_eq (text : List Char) :
    k.strips text = (filled (lines text)).map fun p => ⟨p.2, k.segments p.1⟩ :=
  filterMap_strip? k _

/-- A strip has the text of the line it was cut from. -/
theorem text_strip (n : Nat) (line : List Char) : (Strip.mk n (k.segments line)).text = line :=
  k.flatten_segments line

theorem map_strips (text : List Char) :
    (k.strips text).map (fun s => (s.text, s.number)) = filled (lines text) := by
  rw [strips_eq, List.map_map]
  conv_rhs => rw [← List.map_id (filled (lines text))]
  apply List.map_congr_left
  intro p _
  simp [text_strip]

theorem mem_filled {ls : List (List Char)} {line : List Char} {n : Nat} :
    (line, n) ∈ filled ls ↔ (1 ≤ n ∧ ls[n - 1]? = some line) ∧ line ≠ [] := by
  unfold filled
  rw [List.mem_filter, List.mk_mem_zipIdx_iff_le_and_getElem?_sub]
  simp

theorem filled_of_mem_strips {text : List Char} {s : Strip} (h : s ∈ k.strips text) :
    (s.text, s.number) ∈ filled (lines text) := by
  rw [← map_strips k]
  exact List.mem_map_of_mem h

theorem segments_of_mem_strips {text : List Char} {s : Strip} (h : s ∈ k.strips text) :
    s.segments = k.segments s.text := by
  rw [strips_eq] at h
  obtain ⟨p, -, rfl⟩ := List.mem_map.mp h
  rw [text_strip]

theorem numbers_increase (text : List Char) :
    ((k.strips text).map (·.number)).Pairwise (· < ·) := by
  have hnumbers : (k.strips text).map (·.number) = (filled (lines text)).map (·.2) := by
    rw [← map_strips k, List.map_map]
    rfl
  have hsub : ((filled (lines text)).map (·.2)).Sublist (((lines text).zipIdx 1).map (·.2)) :=
    List.filter_sublist.map _
  rw [hnumbers]
  apply List.Pairwise.sublist hsub
  rw [List.zipIdx_map_snd]
  exact List.pairwise_lt_range'

/-! ## Segments -/

theorem exists_lexeme_of_mem_segments {line : List Char} {g : Segment} (h : g ∈ k.segments line) :
    ∃ x ∈ Lexeme.ofLine line, g = k.segment line x := by
  obtain ⟨x, hx, rfl⟩ := List.mem_map.mp h
  exact ⟨x, hx, rfl⟩

theorem segment_sound {line : List Char} (hline : '\n' ∉ line) {g : Segment}
    (h : g ∈ k.segments line) :
    g.text ≠ [] ∧ '\n' ∉ g.text ∧ g.width = min (0xFFFFFFFFFFFFFFFF) (g.text.length * k.charWidth) := by
  obtain ⟨x, hx, rfl⟩ := exists_lexeme_of_mem_segments k h
  refine ⟨Lexeme.text_ne_nil hx, ?_, rfl⟩
  intro hmem
  apply hline
  rw [← Lexeme.flatten_ofLine line]
  exact List.mem_flatten_of_mem (List.mem_map_of_mem hx) hmem

theorem strips_faithful (text : List Char) :
    (∀ n, (∃ s ∈ k.strips text, s.number = n) ↔
      1 ≤ n ∧ ∃ p, (pieces text)[n - 1]? = some p ∧ p ≠ []) ∧
    ((k.strips text).map (·.number)).Pairwise (· < ·) ∧
    (∀ s ∈ k.strips text, (pieces text)[s.number - 1]? = some s.text) ∧
    ∀ s ∈ k.strips text, ∀ g ∈ s.segments, g.text ≠ [] ∧ '\n' ∉ g.text ∧
      g.width = min (0xFFFFFFFFFFFFFFFF) (g.text.length * k.charWidth) := by
  rw [← lines_eq_pieces]
  refine ⟨?_, numbers_increase k text, ?_, ?_⟩
  · intro n
    constructor
    · rintro ⟨s, hs, rfl⟩
      obtain ⟨⟨hpos, hline⟩, hne⟩ := mem_filled.mp (filled_of_mem_strips k hs)
      exact ⟨hpos, s.text, hline, hne⟩
    · rintro ⟨hpos, p, hp, hne⟩
      have hmem : (p, n) ∈ filled (lines text) := mem_filled.mpr ⟨⟨hpos, hp⟩, hne⟩
      rw [← map_strips k] at hmem
      obtain ⟨s, hs, heq⟩ := List.mem_map.mp hmem
      exact ⟨s, hs, congrArg Prod.snd heq⟩
  · intro s hs
    exact (mem_filled.mp (filled_of_mem_strips k hs)).1.2
  · intro s hs g hg
    have hline := (mem_filled.mp (filled_of_mem_strips k hs)).1.2
    rw [segments_of_mem_strips k hs] at hg
    exact segment_sound k (newline_notMem_line (List.mem_of_getElem? hline)) hg

theorem strips_faithful_blank_line :
    (∃ s ∈ (standard 8).strips ['a', '\r', '\n', '\n', 'b'], s.number = 3) ∧
      ¬ ∃ s ∈ (standard 8).strips ['a', '\r', '\n', '\n', 'b'], s.number = 2 := by
  have hnumbers := (strips_faithful (standard 8) ['a', '\r', '\n', '\n', 'b']).1
  have hblank : (pieces ['a', '\r', '\n', '\n', 'b'])[1]? = some [] := by decide
  rw [hnumbers 3, hnumbers 2]
  refine ⟨⟨by decide, ['b'], by decide, by decide⟩, ?_⟩
  rintro ⟨-, p, hp, hne⟩
  rw [hblank, Option.some.injEq] at hp
  exact hne hp.symm

end Ribbon.Scheme

/-! ## A line feed keeps two texts apart -/

namespace Ribbon.Text

theorem length_splitOn (x : Char) (s : List Char) : (s.splitOn x).length = s.count x + 1 := by
  induction s with
  | nil => rfl
  | cons c r ih =>
    rw [splitOn_cons, List.count_cons]
    split
    · rename_i h
      simp [h, ih]
    · rename_i h
      simp [h, ih]

theorem length_lines (s : List Char) : (lines s).length = s.count '\n' + 1 := by
  rw [lines, List.length_map, length_splitOn]

end Ribbon.Text

namespace Ribbon

/-- The strip that a line has when `n` more lines come before it. -/
def Strip.below (n : Nat) (s : Strip) : Strip := { s with number := s.number + n }

namespace Scheme

open Text

variable {τ : Type} [Tests τ] (k : Scheme τ)

theorem strip?_below (n : Nat) (line : List Char) (i : Nat) :
    k.strip? (line, i + n) = (k.strip? (line, i)).map (.below n) := by
  unfold strip?
  split <;> simp_all [Strip.below]

theorem filterMap_strip?_zipIdx (ls : List (List Char)) (n : Nat) :
    (ls.zipIdx (1 + n)).filterMap k.strip? = ((ls.zipIdx 1).filterMap k.strip?).map (.below n) := by
  rw [Nat.add_comm, ← List.map_snd_add_zipIdx_eq_zipIdx, List.filterMap_map, List.map_filterMap]
  exact List.filterMap_congr fun p _ => strip?_below k n p.1 p.2

theorem strips_append (a b : List Char) :
    k.strips (a ++ '\n' :: b) = k.strips a ++ (k.strips b).map (.below (a.count '\n' + 1)) := by
  unfold strips
  rw [lines_append, List.zipIdx_append, List.filterMap_append, filterMap_strip?_zipIdx, length_lines]

theorem number_bounds {text : List Char} {s : Strip} (h : s ∈ k.strips text) :
    1 ≤ s.number ∧ s.number ≤ text.count '\n' + 1 := by
  obtain ⟨⟨hpos, hline⟩, -⟩ := mem_filled.mp (filled_of_mem_strips k h)
  obtain ⟨hlt, -⟩ := List.getElem?_eq_some_iff.mp hline
  rw [length_lines] at hlt
  exact ⟨hpos, by omega⟩

/-- The strips of the lines before a line feed are those of the text before it, whatever comes
after. -/
theorem strips_independent (a b : List Char) :
    k.strips (a ++ '\n' :: b) = k.strips a ++ (k.strips b).map (.below (a.count '\n' + 1)) ∧
      (k.strips (a ++ '\n' :: b)).filter (fun s => s.number ≤ a.count '\n' + 1) = k.strips a := by
  have hkept : (k.strips a).filter (fun s => s.number ≤ a.count '\n' + 1) = k.strips a := by
    rw [List.filter_eq_self]
    intro s hs
    exact decide_eq_true (number_bounds k hs).2
  have hgone : ((k.strips b).map (.below (a.count '\n' + 1))).filter
      (fun s : Strip => s.number ≤ a.count '\n' + 1) = [] := by
    rw [List.filter_eq_nil_iff]
    intro s hs hle
    obtain ⟨t, ht, rfl⟩ := List.mem_map.mp hs
    have hpos := (number_bounds k ht).1
    have hbelow : t.number + (a.count '\n' + 1) ≤ a.count '\n' + 1 := of_decide_eq_true hle
    omega
  refine ⟨strips_append k a b, ?_⟩
  rw [strips_append, List.filter_append, hkept, hgone, List.append_nil]

end Scheme

end Ribbon
