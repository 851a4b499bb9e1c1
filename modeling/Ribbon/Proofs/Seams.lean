import Ribbon.Proofs.Places

/-!
# Lines put together

What the lexemes of a line have to do with those of its parts. More text after a line disturbs its
last lexeme alone; a separator between two texts keeps them apart.
-/

namespace Ribbon.Lexeme

open Text

/-! ## Comments -/

theorem cutComment_of_closed {a : List Char} (h : ¬ ['/', '/'] <:+: a) : cutComment a = (a, []) := by
  have hat := cutComment_at a
  have hnil := hat.eq_nil_iff.mpr h
  have hwhole := hat.whole
  rw [hnil, List.append_nil] at hwhole
  exact Prod.ext hwhole hnil

/-- Two slashes on the two sides of a seam would open a comment that begins before it. -/
theorem cutComment_append_left {a b : List Char} (h : ¬ ['/', '/'] <:+: a)
    (hseam : a.getLast? = some '/' → b.head? ≠ some '/') :
    cutComment (a ++ b) = (a ++ (cutComment b).1, (cutComment b).2) := by
  induction a with
  | nil => rfl
  | cons c r ih =>
    have hno : ¬ opensComment (c :: (r ++ b)) = true := by
      rw [opensComment_iff]
      intro hopens
      cases r with
      | nil =>
        obtain ⟨rfl, hb⟩ := List.cons_prefix_cons.mp hopens
        obtain ⟨t, ht⟩ := hb
        exact hseam rfl (by rw [List.nil_append] at ht; rw [← ht]; rfl)
      | cons d r =>
        obtain ⟨rfl, hr⟩ := List.cons_prefix_cons.mp hopens
        obtain ⟨rfl, -⟩ := List.cons_prefix_cons.mp hr
        exact h ⟨[], r, rfl⟩
    have hr : ¬ ['/', '/'] <:+: r := fun hin => h (hin.trans (List.suffix_cons c r).isInfix)
    have hrseam : r.getLast? = some '/' → b.head? ≠ some '/' := by
      intro hlast
      apply hseam
      rw [List.getLast?_cons, hlast]
      rfl
    rw [List.cons_append, cutComment, if_neg hno, ih hr hrseam, List.cons_append]

/-- What follows a comment belongs to it. -/
theorem cutComment_append_right {a : List Char} (h : (cutComment a).2 ≠ []) (b : List Char) :
    cutComment (a ++ b) = ((cutComment a).1, (cutComment a).2 ++ b) := by
  induction a with
  | nil => exact absurd rfl h
  | cons c r ih =>
    rw [cutComment] at h
    rw [List.cons_append, cutComment, cutComment]
    by_cases hopens : opensComment (c :: r) = true
    · have hlong : opensComment (c :: (r ++ b)) = true := by
        rw [opensComment_iff] at hopens ⊢
        exact hopens.trans (List.prefix_append (c :: r) b)
      rw [if_pos hopens, if_pos hlong, List.cons_append]
    · rw [if_neg hopens] at h ⊢
      have hlong : ¬ opensComment (c :: (r ++ b)) = true := by
        cases r with
        | nil => exact absurd rfl h
        | cons d r => simpa [opensComment] using hopens
      rw [if_neg hlong, ih h]

theorem infix_of_seam {a b : List Char} {x y : Char} (ha : a.getLast? = some x)
    (hb : b.head? = some y) : [x, y] <:+: a ++ b := by
  obtain ⟨u, rfl⟩ := List.getLast?_eq_some_iff.mp ha
  obtain ⟨v, rfl⟩ := List.head?_eq_some_iff.mp hb
  exact ⟨u, v, by simp⟩

theorem head?_code {line : List Char} {c : Char} (h : (cutComment line).1.head? = some c) :
    line.head? = some c := by
  rw [← cutComment_append line, List.head?_append, h]
  rfl

/-! ## Runs -/

theorem runs_eq_splitBy (code : List Char) : (cut code).runs = code.splitBy joins :=
  (canonical_cut code).eq_splitBy

theorem runs_append {a b : List Char} (hseam : ∀ x ∈ a.getLast?, ∀ y ∈ b.head?, joins x y = false) :
    (cut (a ++ b)).runs = (cut a).runs ++ (cut b).runs := by
  rw [runs_eq_splitBy, List.splitBy_append hseam, ← runs_eq_splitBy, ← runs_eq_splitBy]

/-- The last run may be exchanged for any text that begins like it, or be left out. -/
theorem runs_exchange {code : List Char} {lead : List (List Char)} {p : List Char}
    (h : (cut code).runs = lead ++ [p]) {t : List Char} (ht : ∀ c ∈ t.head?, p.head? = some c) :
    (cut (lead.flatten ++ t)).runs = lead ++ (cut t).runs := by
  have hcut := canonical_cut code
  rw [h] at hcut
  obtain ⟨hchain, -, hlink⟩ := List.isChain_append.mp hcut.apart
  have hlead : Canonical lead.flatten lead :=
    ⟨rfl, fun q hq => hcut.run q (List.mem_append_left [p] hq), hchain⟩
  have hseam : ∀ x ∈ lead.flatten.getLast?, ∀ y ∈ t.head?, joins x y = false := by
    intro x hx y hy
    rcases List.eq_nil_or_concat' lead with rfl | ⟨front, q, rfl⟩
    · cases hx
    · have hq : Run q := hcut.run q (by simp)
      have hp : Run p := hcut.run p (by simp)
      rw [List.flatten_append, List.flatten_singleton, List.getLast?_append_of_ne_nil _ hq.ne_nil] at hx
      exact not_joins_of_apart hq hp (hlink q (by simp) p rfl) (List.mem_of_mem_getLast? hx)
        (List.mem_of_mem_head? (ht y hy))
  rw [runs_append hseam, ← (canonical_iff _ _).mp hlead]

/-! ## Places -/

theorem placed_append (n : Nat) (ts us : List (List Char)) :
    placed n (ts ++ us) = placed n ts ++ placed (n + byteLength ts.flatten) us := by
  induction ts generalizing n with
  | nil => rfl
  | cons t ts ih =>
    rw [List.cons_append, placed, ih, placed, List.flatten_cons, byteLength_append, Nat.add_assoc,
      List.cons_append]

/-- Empty texts take no place. -/
theorem filter_placed (n : Nat) (ts : List (List Char)) :
    (placed n ts).filter (fun x => !x.text.isEmpty) = placed n (ts.filter fun t => !t.isEmpty) := by
  induction ts generalizing n with
  | nil => rfl
  | cons t ts ih =>
    rw [placed]
    cases t with
    | nil => simpa using ih n
    | cons c r => simpa [placed] using ih (n + byteLength (c :: r))

theorem ofCode_eq (code : List Char) : ofCode code = placed 0 (cut code).runs := filter_placed 0 _

theorem ofLine_of_closed {a : List Char} (h : ¬ ['/', '/'] <:+: a) : ofLine a = placed 0 (cut a).runs := by
  rw [ofLine_eq, cutComment_of_closed h, ofCode_eq]
  exact List.append_nil _

/-- The lexeme that follows `n` more bytes of its line. -/
def shift (n : Nat) (x : Lexeme) : Lexeme := { x with offset := n + x.offset }

theorem placed_shift (n m : Nat) (ts : List (List Char)) :
    placed (n + m) ts = (placed m ts).map (shift n) := by
  induction ts generalizing m with
  | nil => rfl
  | cons t ts ih =>
    rw [placed, placed, Nat.add_assoc, ih]
    rfl

theorem ofComment_append (a code comment : List Char) :
    ofComment (a ++ code) comment = (ofComment code comment).map (shift (byteLength a)) := by
  unfold ofComment
  split
  · rfl
  · rw [byteLength_append]
    rfl

/-! ## More text after a line -/

/-- A comment may begin in the last run of the code when more text follows, but not before it. -/
theorem exists_ofLine_append_runs {a : List Char} (h : ¬ ['/', '/'] <:+: a)
    {lead : List (List Char)} {p : List Char} (hruns : (cut a).runs = lead ++ [p]) (b : List Char) :
    ∃ ys, ofLine (a ++ b) = placed 0 lead ++ ys := by
  have hcanon := canonical_cut a
  rw [hruns] at hcanon
  have hp : p ≠ [] := (hcanon.run p (by simp)).ne_nil
  have hflat : lead.flatten ++ p = a := by simpa using hcanon.flatten
  have hcut : cutComment (lead.flatten ++ (p ++ b)) =
      (lead.flatten ++ (cutComment (p ++ b)).1, (cutComment (p ++ b)).2) := by
    apply cutComment_append_left
    · exact fun hin => h (hin.trans (hflat ▸ (List.prefix_append _ p).isInfix))
    · intro hlast hhead
      rw [List.head?_append_of_ne_nil _ hp] at hhead
      exact h (hflat ▸ infix_of_seam hlast hhead)
  have hhead : ∀ c ∈ (cutComment (p ++ b)).1.head?, p.head? = some c := by
    intro c hc
    rw [← List.head?_append_of_ne_nil p hp]
    exact head?_code hc
  have hline : a ++ b = lead.flatten ++ (p ++ b) := by rw [← hflat, List.append_assoc]
  rw [hline, ofLine_eq, hcut, ofCode_eq, runs_exchange hruns hhead, placed_append, List.append_assoc]
  exact ⟨_, rfl⟩

theorem exists_ofLine_append (a b : List Char) :
    ∃ ys, ofLine (a ++ b) = (ofLine a).dropLast ++ ys := by
  by_cases h : ['/', '/'] <:+: a
  · -- The last lexeme is a comment, and the code before it stays as it is.
    have hne : (cutComment a).2 ≠ [] := fun hnil => (cutComment_at a).eq_nil_iff.mp hnil h
    have hlast : ofComment (cutComment a).1 (cutComment a).2 =
        [⟨(cutComment a).2, byteLength (cutComment a).1, true⟩] := by
      simp [ofComment, hne]
    rw [ofLine_eq, cutComment_append_right hne, ofLine_eq a, hlast, List.dropLast_concat]
    exact ⟨_, rfl⟩
  · rw [ofLine_of_closed h]
    rcases List.eq_nil_or_concat' (cut a).runs with hnil | ⟨lead, p, hruns⟩
    · rw [hnil]
      exact ⟨_, rfl⟩
    · rw [hruns, placed_append, placed, placed, List.dropLast_concat]
      exact exists_ofLine_append_runs h hruns b

theorem spelled_ne_nil {line : List Char} {xs : List Lexeme} (h : xs ⊆ ofLine line) (hne : xs ≠ []) :
    spelled xs ≠ [] := by
  obtain ⟨x, r, rfl⟩ := List.exists_cons_of_ne_nil hne
  rw [spelled_cons]
  exact List.append_ne_nil_of_left_ne_nil (text_ne_nil (h List.mem_cons_self)) _

/-- What comes after a lexeme that is not the last one stays the same. -/
theorem next?_append {a b : List Char} {x : Lexeme} (hx : x ∈ (ofLine a).dropLast) :
    x.next? (a ++ b) = x.next? a := by
  obtain ⟨ys, hlong⟩ := exists_ofLine_append a b
  obtain ⟨before, after, hsplit⟩ := List.append_of_mem hx
  have hne : ofLine a ≠ [] := by
    rintro hnil
    rw [hnil] at hx
    cases hx
  have hshort : ofLine a = before ++ x :: (after ++ [(ofLine a).getLast hne]) := by
    rw [← List.cons_append, ← List.append_assoc, ← hsplit, List.dropLast_concat_getLast]
  rw [hsplit, List.append_assoc, List.cons_append] at hlong
  have hspelled : spelled (after ++ ys) = spelled (after ++ [(ofLine a).getLast hne]) ++ b := by
    have htwo : spelled (ofLine (a ++ b)) = spelled (ofLine a) ++ b := by
      rw [spelled_ofLine, spelled_ofLine]
    rw [hlong, hshort] at htwo
    simpa [spelled_append, spelled_cons] using htwo
  have hrest : spelled (after ++ [(ofLine a).getLast hne]) ≠ [] := by
    have hsub : after ++ [(ofLine a).getLast hne] ⊆ ofLine a := by
      intro y hy
      rw [hshort]
      exact List.mem_append_right before (List.mem_cons_of_mem x hy)
    exact spelled_ne_nil hsub (by simp)
  rw [next?_of_split hlong, next?_of_split hshort, hspelled, List.head?_append_of_ne_nil _ hrest]

/-! ## A separator between two texts -/

/-- A mark separates whatever stands around it, and blanks what is not blank. -/
def Separates (a s b : List Char) : Prop :=
  MarkText s ∨
    BlankRun s ∧ (∀ c ∈ a.getLast?, isBlank c = false) ∧ ∀ c ∈ b.head?, isBlank c = false

section Separates

variable {a s b : List Char}

theorem Separates.run (h : Separates a s b) : Run s := by
  rcases h with h | h
  · exact .inr (.inl h)
  · exact .inl h.1

theorem Separates.slash_notMem (h : Separates a s b) : '/' ∉ s := by
  rintro hmem
  rcases h with ⟨c, hc, rfl⟩ | h
  · obtain rfl := List.mem_singleton.mp hmem
    revert hc
    decide
  · exact absurd (h.1.2 _ hmem) (by decide)

theorem Separates.left (h : Separates a s b) : ∀ x ∈ a.getLast?, ∀ y ∈ s.head?, joins x y = false := by
  intro x hx y hy
  rcases h with ⟨c, hc, rfl⟩ | ⟨hblank, hleft, -⟩
  · cases hy
    simp [joins, isBlank_of_mark hc, isPlain_of_mark hc]
  · simp [joins, hleft x hx, isPlain_of_blank (hblank.2 y (List.mem_of_mem_head? hy))]

theorem Separates.right (h : Separates a s b) : ∀ x ∈ s.getLast?, ∀ y ∈ b.head?, joins x y = false := by
  intro x hx y hy
  rcases h with ⟨c, hc, rfl⟩ | ⟨hblank, -, hright⟩
  · cases hx
    simp [joins, isBlank_of_mark hc, isPlain_of_mark hc]
  · simp [joins, hright y hy, isPlain_of_blank (hblank.2 x (List.mem_of_mem_getLast? hx))]

theorem Separates.cutComment (h : Separates a s b) (ha : ¬ ['/', '/'] <:+: a) :
    cutComment (a ++ (s ++ b)) = (a ++ (s ++ (Lexeme.cutComment b).1), (Lexeme.cutComment b).2) := by
  have hs : ¬ ['/', '/'] <:+: s := fun hin => h.slash_notMem (hin.subset List.mem_cons_self)
  rw [cutComment_append_left ha, cutComment_append_left hs]
  · exact fun hlast _ => h.slash_notMem (List.mem_of_mem_getLast? hlast)
  · intro _ hhead
    rw [List.head?_append_of_ne_nil _ h.run.ne_nil] at hhead
    exact h.slash_notMem (List.mem_of_mem_head? hhead)

theorem runs_of_run (h : Run s) : (cut s).runs = [s] :=
  ((canonical_iff s [s]).mp ⟨by simp, by simpa using h, by simp⟩).symm

theorem Separates.runs (h : Separates a s b) :
    (cut (a ++ (s ++ (Lexeme.cutComment b).1))).runs =
      (cut a).runs ++ s :: (cut (Lexeme.cutComment b).1).runs := by
  have hleft : ∀ x ∈ a.getLast?, ∀ y ∈ (s ++ (Lexeme.cutComment b).1).head?, joins x y = false := by
    rw [List.head?_append_of_ne_nil _ h.run.ne_nil]
    exact h.left
  have hright : ∀ x ∈ s.getLast?, ∀ y ∈ (Lexeme.cutComment b).1.head?, joins x y = false :=
    fun x hx y hy => h.right x hx y (head?_code hy)
  rw [runs_append hleft, runs_append hright, runs_of_run h.run]
  rfl

theorem ofLine_join (h : Separates a s b) (ha : ¬ ['/', '/'] <:+: a) :
    ofLine (a ++ (s ++ b)) =
      ofLine a ++ ⟨s, byteLength a, false⟩ :: (ofLine b).map (shift (byteLength (a ++ s))) := by
  have hplace : byteLength (a ++ s) + 0 = 0 + byteLength a + byteLength s := by
    rw [byteLength_append]
    omega
  have hcode : placed (0 + byteLength a + byteLength s) (cut (Lexeme.cutComment b).1).runs =
      (ofCode (Lexeme.cutComment b).1).map (shift (byteLength (a ++ s))) := by
    rw [ofCode_eq, ← placed_shift, hplace]
  rw [ofLine_eq, h.cutComment ha, ofCode_eq, h.runs, placed_append, placed,
    (canonical_cut a).flatten, ← ofLine_of_closed ha, hcode, ofLine_eq b, List.map_append,
    ← ofComment_append, Nat.zero_add, List.append_assoc, List.append_assoc]
  rfl

theorem spelled_shift (n : Nat) (xs : List Lexeme) : spelled (xs.map (shift n)) = spelled xs := by
  unfold spelled
  rw [List.map_map]
  rfl

theorem next?_shift (h : Separates a s b) (ha : ¬ ['/', '/'] <:+: a) {x : Lexeme}
    (hx : x ∈ ofLine b) :
    (shift (byteLength (a ++ s)) x).next? (a ++ (s ++ b)) = x.next? b := by
  obtain ⟨before, after, hsplit⟩ := List.append_of_mem hx
  have hjoin : ofLine (a ++ (s ++ b)) =
      (ofLine a ++ ⟨s, byteLength a, false⟩ :: before.map (shift (byteLength (a ++ s)))) ++
        shift (byteLength (a ++ s)) x :: after.map (shift (byteLength (a ++ s))) := by
    rw [ofLine_join h ha, hsplit, List.map_append, List.map_cons, List.append_assoc, List.cons_append]
  rw [next?_of_split hjoin, next?_of_split hsplit, spelled_shift]

/-- The last lexeme of the first text comes right before the separator. -/
theorem next?_last (h : Separates a s b) (ha : ¬ ['/', '/'] <:+: a) {before : List Lexeme}
    {x : Lexeme} (hsplit : ofLine a = before ++ [x]) :
    x.next? a = none ∧ x.next? (a ++ (s ++ b)) = s.head? := by
  have hjoin := ofLine_join h ha
  rw [hsplit, List.append_assoc, List.singleton_append] at hjoin
  refine ⟨next?_of_split hsplit, ?_⟩
  rw [next?_of_split hjoin, spelled_cons, List.head?_append_of_ne_nil _ h.run.ne_nil]

theorem Separates.head?_iff (h : Separates a s b) : s.head? = some '(' ↔ s = ['('] := by
  constructor
  · intro hhead
    rcases h with ⟨c, -, rfl⟩ | ⟨hblank, -⟩
    · rw [List.head?_cons, Option.some.injEq] at hhead
      rw [hhead]
    · exact absurd (hblank.2 _ (List.mem_of_mem_head? hhead)) (by decide)
  · rintro rfl
    rfl

end Separates

end Ribbon.Lexeme
