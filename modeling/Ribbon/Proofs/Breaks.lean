import Ribbon.Proofs.Timeline

/-!
# Line breaks

A break is `\n` or the pair `\r\n`. The strips of a text hold everything between its breaks, but
for a `\r` at the very end of the text, which is lost although no break is there.
-/

namespace Ribbon.Text

/-- What stands between the breaks of a text. -/
def between : List Char → List (List Char)
  | [] => [[]]
  | '\r' :: '\n' :: r => [] :: between r
  | '\n' :: r => [] :: between r
  | c :: r => (between r).modifyHead (c :: ·)

/-- The characters of a text that are not in a break. -/
def unbroken : List Char → List Char
  | [] => []
  | '\r' :: '\n' :: r => unbroken r
  | '\n' :: r => unbroken r
  | c :: r => c :: unbroken r

theorem between_ne_nil (s : List Char) : between s ≠ [] := by
  fun_induction between s with
  | case1 => simp
  | case2 => simp
  | case3 => simp
  | case4 c r _ _ ih => simpa using ih

theorem flatten_between (s : List Char) : (between s).flatten = unbroken s := by
  fun_induction between s with
  | case1 => rfl
  | case2 r ih => simpa [unbroken] using ih
  | case3 r ih => simpa [unbroken] using ih
  | case4 c r hpair hfeed ih =>
    obtain ⟨p, ps, hps⟩ := List.exists_cons_of_ne_nil (between_ne_nil r)
    rw [unbroken.eq_4 c r hpair hfeed, ← ih, hps]
    simp

/-! ## Lines are what stands between breaks, but for a return at the end -/

theorem dropReturn_cons {c : Char} {r : List Char} (h : c = '\r' → r ≠ []) :
    dropReturn (c :: r) = c :: dropReturn r :=
  dropReturn.eq_3 c r h

theorem head?_dropReturn {r s : List Char} {d : Char} (h : dropReturn r = d :: s) :
    r.head? = some d := by
  cases r with
  | nil => cases h
  | cons c r =>
    by_cases hlone : c = '\r' ∧ r = []
    · rw [hlone.1, hlone.2] at h
      cases h
    · rw [dropReturn_cons fun hc hr => hlone ⟨hc, hr⟩, List.cons.injEq] at h
      rw [h.1]
      rfl

theorem head?_of_splitOn_nil {r : List Char} {ps : List (List Char)}
    (h : r.splitOn '\n' = [] :: ps) : r = [] ∨ r.head? = some '\n' := by
  cases r with
  | nil => exact Or.inl rfl
  | cons d r =>
    rw [splitOn_cons] at h
    split at h
    · rename_i hd
      exact Or.inr (by rw [hd]; rfl)
    · obtain ⟨q, qs, hq⟩ := List.exists_cons_of_ne_nil (List.splitOn_ne_nil '\n' r)
      rw [hq] at h
      cases h

theorem lines_cons {c : Char} {r : List Char} (hc : c ≠ '\n')
    (h : c = '\r' → r ≠ [] ∧ r.head? ≠ some '\n') :
    lines (c :: r) = (lines r).modifyHead (c :: ·) := by
  obtain ⟨p, ps, hp⟩ := List.exists_cons_of_ne_nil (List.splitOn_ne_nil '\n' r)
  have hkeep : dropReturn (c :: p) = c :: dropReturn p := by
    apply dropReturn_cons
    rintro hreturn rfl
    rcases head?_of_splitOn_nil hp with hnil | hfeed
    · exact (h hreturn).1 hnil
    · exact (h hreturn).2 hfeed
  unfold lines
  rw [splitOn_cons, if_neg hc, hp]
  simp [hkeep]

theorem lines_eq_between (s : List Char) : lines s = between (dropReturn s) := by
  fun_induction between s with
  | case1 => rfl
  | case2 r ih =>
    have hdrop : dropReturn ('\r' :: '\n' :: r) = '\r' :: '\n' :: dropReturn r := by
      rw [dropReturn_cons (by simp), dropReturn_cons (by simp)]
    rw [hdrop, between, ← ih]
    exact lines_append ['\r'] r
  | case3 r ih =>
    rw [dropReturn_cons (by simp), between, ← ih]
    exact lines_append [] r
  | case4 c r hpair hfeed ih =>
    by_cases hlone : c = '\r' ∧ r = []
    · rw [hlone.1, hlone.2]
      rfl
    · have hreturn : c = '\r' → r ≠ [] := fun hc hr => hlone ⟨hc, hr⟩
      have hnext : c = '\r' → r.head? ≠ some '\n' := by
        intro hc hhead
        obtain ⟨r', hr'⟩ := List.head?_eq_some_iff.mp hhead
        exact hpair r' hc hr'
      rw [dropReturn_cons hreturn, lines_cons hfeed fun hc => ⟨hreturn hc, hnext hc⟩, ih]
      rw [between.eq_4 c _ (fun r' hc hr' => hnext hc (head?_dropReturn hr')) hfeed]

theorem unbroken_append_return (s : List Char) : unbroken (s ++ ['\r']) = unbroken s ++ ['\r'] := by
  fun_induction unbroken s with
  | case1 => rfl
  | case2 r ih => simpa [unbroken] using ih
  | case3 r ih => simpa [unbroken] using ih
  | case4 c r hpair hfeed ih =>
    rw [List.cons_append, unbroken.eq_4 c _ _ hfeed, ih, List.cons_append]
    intro r' hc hr'
    cases r with
    | nil => simp at hr'
    | cons d r =>
      simp only [List.cons_append, List.cons.injEq] at hr'
      exact hpair r hc (by rw [hr'.1])

end Ribbon.Text

namespace Ribbon.Scheme

open Text

variable {τ : Type} [Tests τ] (k : Scheme τ)

theorem flatten_filled (ls : List (List Char)) : ((filled ls).map (·.1)).flatten = ls.flatten := by
  have hmap : (filled ls).map (·.1) = ((ls.zipIdx 1).map (·.1)).filter fun p => !p.isEmpty := by
    unfold filled
    rw [List.filter_map]
    rfl
  rw [hmap, List.flatten_filter_not_isEmpty, List.zipIdx_map_fst]

/-- Only breaks are dropped: each line that is not empty comes whole and with its number, and no
character outside a break is missing. -/
structure KeepsAll (text : List Char) : Prop where
  lines : (k.strips text).map (fun s => (s.text, s.number)) = filled (between text)
  characters : ((k.strips text).map (·.text)).flatten = unbroken text

theorem characters_strips (text : List Char) :
    ((k.strips text).map (·.text)).flatten = unbroken (dropReturn text) := by
  have htexts : (k.strips text).map (·.text) = (filled (lines text)).map (·.1) := by
    rw [← map_strips k, List.map_map]
    rfl
  rw [htexts, flatten_filled, lines_eq_between, flatten_between]

theorem keepsAll_iff (text : List Char) :
    (KeepsAll k text ↔ text.getLast? ≠ some '\r') ∧
    (k.strips text).map (fun s => (s.text, s.number)) = filled (between (dropReturn text)) ∧
    ((k.strips text).map (·.text)).flatten = unbroken (dropReturn text) := by
  have hlines : (k.strips text).map (fun s => (s.text, s.number)) =
      filled (between (dropReturn text)) := by
    rw [map_strips, lines_eq_between]
  refine ⟨⟨?_, ?_⟩, hlines, characters_strips k text⟩
  · intro h hlast
    obtain ⟨t, rfl⟩ := List.getLast?_eq_some_iff.mp hlast
    have hkept := h.characters
    rw [characters_strips, dropReturn_eq, if_pos hlast, List.dropLast_concat,
      unbroken_append_return] at hkept
    simp at hkept
  · intro hlast
    have hsame : dropReturn text = text := by rw [dropReturn_eq, if_neg hlast]
    refine ⟨?_, ?_⟩
    · rw [hlines, hsame]
    · rw [characters_strips, hsame]

theorem not_keepsAll_final_return : ¬ KeepsAll (Scheme.standard 8) ['a', '\r'] := by
  intro h
  have hkept := h.characters
  revert hkept
  decide

end Ribbon.Scheme
