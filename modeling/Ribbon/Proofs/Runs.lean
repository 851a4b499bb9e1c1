import Mathlib.Data.List.SplitBy
import Ribbon.Proofs.Comment

/-!
# Runs

The code of a line falls into blank runs, marks and plain runs, and into nothing coarser or finer.
`Canonical` says what such a list of texts is; there is one for each code text, and it is the one
that `ofLine` delivers.
-/

namespace Ribbon.Lexeme

open Text

/-! ## Kinds of texts -/

def BlankRun (t : List Char) : Prop := t ≠ [] ∧ ∀ c ∈ t, isBlank c = true

def MarkText (t : List Char) : Prop := ∃ c ∈ marks, t = [c]

def PlainRun (t : List Char) : Prop := t ≠ [] ∧ ∀ c ∈ t, isPlain c = true

theorem isMark_iff (c : Char) : isMark c = true ↔ c ∈ marks := List.contains_iff_mem

theorem isPlain_iff (c : Char) : isPlain c = true ↔ c ∉ marks ∧ isBlank c = false := by
  simp [isPlain, isMark]

theorem isBlank_of_mark {c : Char} (h : c ∈ marks) : isBlank c = false := by
  have hall : (marks.all fun c => !isBlank c) = true := by decide
  simpa using List.all_eq_true.mp hall c h

theorem isPlain_of_blank {c : Char} (h : isBlank c = true) : isPlain c = false := by
  simp [isPlain, h]

theorem isPlain_of_mark {c : Char} (h : c ∈ marks) : isPlain c = false := by
  simp [isPlain, (isMark_iff c).mpr h]

theorem BlankRun.not_plain {t : List Char} (h : BlankRun t) : ¬ PlainRun t := by
  rintro ⟨-, hplain⟩
  obtain ⟨c, r, rfl⟩ := List.exists_cons_of_ne_nil h.1
  have hc := isPlain_of_blank (h.2 c List.mem_cons_self)
  rw [hplain c List.mem_cons_self] at hc
  cases hc

theorem MarkText.not_blank {t : List Char} (h : MarkText t) : ¬ BlankRun t := by
  rintro ⟨-, hblank⟩
  obtain ⟨c, hc, rfl⟩ := h
  have := isBlank_of_mark hc
  rw [hblank c List.mem_cons_self] at this
  cases this

theorem MarkText.not_plain {t : List Char} (h : MarkText t) : ¬ PlainRun t := by
  rintro ⟨-, hplain⟩
  obtain ⟨c, hc, rfl⟩ := h
  have := isPlain_of_mark hc
  rw [hplain c List.mem_cons_self] at this
  cases this

def Run (t : List Char) : Prop := BlankRun t ∨ MarkText t ∨ PlainRun t

theorem Run.ne_nil {t : List Char} (h : Run t) : t ≠ [] := by
  rcases h with h | ⟨c, -, rfl⟩ | h
  · exact h.1
  · simp
  · exact h.1

/-- Two runs that stand side by side do not belong together. -/
def Apart (a b : List Char) : Prop := ¬ (BlankRun a ∧ BlankRun b) ∧ ¬ (PlainRun a ∧ PlainRun b)

/-- The code as runs, none of which could be longer. -/
structure Canonical (code : List Char) (ts : List (List Char)) : Prop where
  flatten : ts.flatten = code
  run : ∀ t ∈ ts, Run t
  apart : ts.IsChain Apart

/-! ## There is one canonical list -/

/-- Characters that share a run when they stand side by side. -/
def joins (x y : Char) : Bool := (isBlank x && isBlank y) || (isPlain x && isPlain y)

theorem joins_of_run {t : List Char} (h : Run t) : t.IsChain fun x y => joins x y = true := by
  have hpairs : ∀ f : Char → Bool, (∀ x y, f x = true → f y = true → joins x y = true) →
      (∀ c ∈ t, f c = true) → t.IsChain fun x y => joins x y = true := by
    intro f hf hall
    apply List.Pairwise.isChain
    exact List.pairwise_of_forall_mem_list fun x hx y hy => hf x y (hall x hx) (hall y hy)
  rcases h with h | ⟨c, -, rfl⟩ | h
  · exact hpairs isBlank (fun x y hx hy => by simp [joins, hx, hy]) h.2
  · simp
  · exact hpairs isPlain (fun x y hx hy => by simp [joins, hx, hy]) h.2

theorem not_joins_of_apart {a b : List Char} (ha : Run a) (hb : Run b) (h : Apart a b) {x y : Char}
    (hx : x ∈ a) (hy : y ∈ b) : joins x y = false := by
  rcases ha with ha | ⟨m, hm, rfl⟩ | ha
  · have hblank := ha.2 x hx
    rcases hb with hb | ⟨n, hn, rfl⟩ | hb
    · exact absurd ⟨ha, hb⟩ h.1
    · rw [List.mem_singleton] at hy
      subst hy
      simp [joins, isPlain_of_blank hblank, isBlank_of_mark hn]
    · have hplain := (isPlain_iff y).mp (hb.2 y hy)
      simp [joins, isPlain_of_blank hblank, hplain.2]
  · rw [List.mem_singleton] at hx
    subst hx
    simp [joins, isBlank_of_mark hm, isPlain_of_mark hm]
  · have hplain := ha.2 x hx
    have hblank := ((isPlain_iff x).mp hplain).2
    rcases hb with hb | ⟨n, hn, rfl⟩ | hb
    · simp [joins, hblank, isPlain_of_blank (hb.2 y hy)]
    · rw [List.mem_singleton] at hy
      subst hy
      simp [joins, hblank, isPlain_of_mark hn]
    · exact absurd ⟨ha, hb⟩ h.2

/-- Uniqueness: a canonical list cuts the code wherever two neighbours do not join. -/
theorem Canonical.eq_splitBy {code : List Char} {ts : List (List Char)} (h : Canonical code ts) :
    ts = code.splitBy joins := by
  symm
  rw [List.splitBy_eq_iff]
  refine ⟨h.flatten.symm, ?_, fun t ht => joins_of_run (h.run t ht), ?_⟩
  · intro hnil
    exact (h.run [] hnil).ne_nil rfl
  · apply h.apart.imp_of_mem_imp
    intro a b ha hb hab
    have hra := h.run a ha
    have hrb := h.run b hb
    exact ⟨hra.ne_nil, hrb.ne_nil,
      not_joins_of_apart hra hrb hab (List.getLast_mem _) (List.head_mem _)⟩

/-! ## The cut of a code text is canonical -/

/-- What cutting keeps up: plain texts and separators take turns, and two blank separators have a
plain text between them that is not empty. -/
structure Proper (k : Cut) : Prop where
  first : ∀ c ∈ k.first, isPlain c = true
  separator : ∀ sp ∈ k.rest, BlankRun sp.1 ∨ MarkText sp.1
  plain : ∀ sp ∈ k.rest, ∀ c ∈ sp.2, isPlain c = true
  apart : k.rest.IsChain fun a b => a.2 = [] → ¬ (BlankRun a.1 ∧ BlankRun b.1)

theorem proper_separate {k : Cut} (hk : Proper k) {s : List Char} (hs : BlankRun s ∨ MarkText s)
    (hgap : k.first = [] → ∀ sp ∈ k.rest.head?, ¬ (BlankRun s ∧ BlankRun sp.1)) :
    Proper (k.separate s) := by
  refine ⟨by simp [Cut.separate], ?_, ?_, ?_⟩
  · intro sp hsp
    rcases List.mem_cons.mp hsp with rfl | hsp
    · exact hs
    · exact hk.separator sp hsp
  · intro sp hsp
    rcases List.mem_cons.mp hsp with rfl | hsp
    · exact hk.first
    · exact hk.plain sp hsp
  · exact List.isChain_cons.mpr ⟨fun sp hsp hnil => hgap hnil sp hsp, hk.apart⟩

/-- The blanks that a cut begins with may become longer by one. -/
theorem proper_lengthen {b c : Char} {s p : List Char} {rest : List (List Char × List Char)}
    (hk : Proper ⟨[], (b :: s, p) :: rest⟩) (hb : isBlank b = true) (hc : isBlank c = true) :
    Proper ⟨[], (c :: b :: s, p) :: rest⟩ := by
  have hold : BlankRun (b :: s) := by
    rcases hk.separator (b :: s, p) List.mem_cons_self with h | ⟨m, hm, heq⟩
    · exact h
    · simp only [List.cons.injEq] at heq
      rw [heq.1, isBlank_of_mark hm] at hb
      cases hb
  have hnew : BlankRun (c :: b :: s) := ⟨by simp, by simpa [hc] using hold.2⟩
  obtain ⟨hhead, htail⟩ := List.isChain_cons.mp hk.apart
  refine ⟨by simp, ?_, ?_, ?_⟩
  · intro sp hsp
    rcases List.mem_cons.mp hsp with rfl | hsp
    · exact Or.inl hnew
    · exact hk.separator sp (List.mem_cons_of_mem _ hsp)
  · intro sp hsp
    rcases List.mem_cons.mp hsp with rfl | hsp
    · exact hk.plain (b :: s, p) List.mem_cons_self
    · exact hk.plain sp (List.mem_cons_of_mem _ hsp)
  · refine List.isChain_cons.mpr ⟨?_, htail⟩
    rintro sp hsp hp ⟨-, hblank⟩
    exact hhead sp hsp hp ⟨hold, hblank⟩

theorem proper_addBlank {k : Cut} (hk : Proper k) {c : Char} (hc : isBlank c = true) :
    Proper (k.addBlank c) := by
  have hone : BlankRun [c] := ⟨by simp, by simpa using hc⟩
  unfold Cut.addBlank
  split
  · rename_i b s p rest
    split
    · rename_i hb
      exact proper_lengthen hk hb hc
    · rename_i hb
      apply proper_separate hk (Or.inl hone)
      rintro - sp hsp ⟨-, hblank⟩
      simp only [List.head?_cons, Option.mem_def, Option.some.injEq] at hsp
      subst hsp
      exact hb (hblank.2 b List.mem_cons_self)
  · -- The cut begins with a plain text, or it holds nothing.
    rename_i hother
    apply proper_separate hk (Or.inl hone)
    rintro hnil ⟨s, p⟩ hsp ⟨-, hblank⟩
    obtain ⟨rest, hrest⟩ := List.head?_eq_some_iff.mp hsp
    obtain ⟨b, s, rfl⟩ := List.exists_cons_of_ne_nil hblank.1
    apply hother b s p rest
    rw [← hnil, ← hrest]

theorem proper_add {k : Cut} (hk : Proper k) (c : Char) : Proper (k.add c) := by
  unfold Cut.add
  split
  · rename_i hmark
    have hc : MarkText [c] := ⟨c, (isMark_iff c).mp hmark, rfl⟩
    apply proper_separate hk (Or.inr hc)
    rintro - sp - ⟨hblank, -⟩
    exact hc.not_blank hblank
  · rename_i hmark
    split
    · rename_i hblank
      exact proper_addBlank hk hblank
    · rename_i hblank
      have hc : isPlain c = true := by simp [isPlain, hmark, hblank]
      exact ⟨by simpa [hc] using hk.first, hk.separator, hk.plain, hk.apart⟩

theorem proper_cut (code : List Char) : Proper (cut code) := by
  induction code with
  | nil => exact ⟨by simp [cut], by simp [cut], by simp [cut], by simp [cut]⟩
  | cons c r ih => exact proper_add ih c

def Cut.runs (k : Cut) : List (List Char) := k.texts.filter fun t => !t.isEmpty

theorem Cut.runs_nil (p : List Char) : (Cut.mk p []).runs = if p = [] then [] else [p] := by
  cases p <;> rfl

theorem Cut.runs_cons (p s q : List Char) (rest : List (List Char × List Char)) (hs : s ≠ []) :
    (Cut.mk p ((s, q) :: rest)).runs = (Cut.mk p []).runs ++ s :: (Cut.mk q rest).runs := by
  cases p <;> simp [Cut.runs, Cut.texts, hs]

theorem Proper.tail {p s q : List Char} {rest : List (List Char × List Char)}
    (hk : Proper ⟨p, (s, q) :: rest⟩) : Proper ⟨q, rest⟩ where
  first := hk.plain (s, q) List.mem_cons_self
  separator sp hsp := hk.separator sp (List.mem_cons_of_mem _ hsp)
  plain sp hsp := hk.plain sp (List.mem_cons_of_mem _ hsp)
  apart := hk.apart.of_cons

theorem run_of_mem_runs {k : Cut} (hk : Proper k) {t : List Char} (ht : t ∈ k.runs) : Run t := by
  obtain ⟨ht, hne⟩ := List.mem_filter.mp ht
  have hne : t ≠ [] := by simpa using hne
  rcases List.mem_cons.mp ht with rfl | ht
  · exact Or.inr (Or.inr ⟨hne, hk.first⟩)
  · obtain ⟨⟨s, p⟩, hsp, ht⟩ := List.mem_flatMap.mp ht
    simp only [List.mem_cons, List.not_mem_nil, or_false] at ht
    rcases ht with rfl | rfl
    · rcases hk.separator _ hsp with h | h
      · exact Or.inl h
      · exact Or.inr (Or.inl h)
    · exact Or.inr (Or.inr ⟨hne, hk.plain _ hsp⟩)

theorem Proper.separator_ne_nil {k : Cut} (hk : Proper k) {sp : List Char × List Char}
    (hsp : sp ∈ k.rest) : sp.1 ≠ [] := by
  rcases hk.separator sp hsp with h | ⟨c, -, hc⟩
  · exact h.1
  · simp [hc]

theorem not_plain_of_separator {s : List Char} (hs : BlankRun s ∨ MarkText s) : ¬ PlainRun s := by
  rcases hs with hs | hs
  · exact hs.not_plain
  · exact hs.not_plain

/-- What follows a separator does not belong to it. -/
theorem apart_next {p s q : List Char} {rest : List (List Char × List Char)}
    (hk : Proper ⟨p, (s, q) :: rest⟩) : ∀ t ∈ (Cut.mk q rest).runs.head?, Apart s t := by
  have hs := not_plain_of_separator (hk.separator (s, q) List.mem_cons_self)
  by_cases hq : q = []
  · subst hq
    cases rest with
    | nil => simp [Cut.runs_nil]
    | cons sq rest =>
      obtain ⟨s', q'⟩ := sq
      rw [Cut.runs_cons _ _ _ _ (hk.tail.separator_ne_nil List.mem_cons_self)]
      have hlink := (List.isChain_cons_cons.mp hk.apart).1 rfl
      simpa [Cut.runs_nil] using ⟨hlink, fun h => hs h.1⟩
  · have hhead : (Cut.mk q rest).runs.head? = some q := by
      cases q with
      | nil => exact absurd rfl hq
      | cons c q => rfl
    have hplain : PlainRun q := ⟨hq, hk.tail.first⟩
    intro t ht
    rw [hhead, Option.mem_some_iff] at ht
    subst ht
    exact ⟨fun h => h.2.not_plain hplain, fun h => hs h.1⟩

theorem apart_runs (p : List Char) (rest : List (List Char × List Char)) (hk : Proper ⟨p, rest⟩) :
    (Cut.mk p rest).runs.IsChain Apart := by
  induction rest generalizing p with
  | nil =>
    rw [Cut.runs_nil]
    split <;> simp
  | cons sq rest ih =>
    obtain ⟨s, q⟩ := sq
    have htail : (s :: (Cut.mk q rest).runs).IsChain Apart :=
      List.isChain_cons.mpr ⟨apart_next hk, ih q hk.tail⟩
    rw [Cut.runs_cons p s q rest (hk.separator_ne_nil List.mem_cons_self), Cut.runs_nil]
    split
    · exact htail
    · rename_i hp
      have hs := not_plain_of_separator (hk.separator (s, q) List.mem_cons_self)
      have hplain : PlainRun p := ⟨hp, hk.first⟩
      exact List.isChain_cons_cons.mpr ⟨⟨fun h => h.1.not_plain hplain, fun h => hs h.2⟩, htail⟩

theorem canonical_cut (code : List Char) : Canonical code (cut code).runs where
  flatten := by
    unfold Cut.runs
    rw [List.flatten_filter_not_isEmpty, flatten_cut]
  run _ ht := run_of_mem_runs (proper_cut code) ht
  apart := apart_runs _ _ (proper_cut code)

theorem canonical_iff (code : List Char) (ts : List (List Char)) :
    Canonical code ts ↔ ts = (cut code).runs := by
  constructor
  · intro h
    rw [h.eq_splitBy, (canonical_cut code).eq_splitBy]
  · rintro rfl
    exact canonical_cut code

/-! ## The lexemes of a line -/

theorem isComment_placed (n : Nat) (ts : List (List Char)) : ∀ x ∈ placed n ts, x.isComment = false := by
  induction ts generalizing n with
  | nil => simp [placed]
  | cons t ts ih =>
    intro x hx
    rcases List.mem_cons.mp hx with rfl | hx
    · rfl
    · exact ih _ x hx

def ofCode (code : List Char) : List Lexeme :=
  (placed 0 (cut code).texts).filter fun x => !x.text.isEmpty

theorem map_text_ofCode (code : List Char) : (ofCode code).map text = (cut code).runs := by
  unfold ofCode Cut.runs
  rw [map_text_filter, map_text_placed]

theorem isComment_ofCode (code : List Char) : ∀ x ∈ ofCode code, x.isComment = false :=
  fun x hx => isComment_placed 0 _ x (List.mem_of_mem_filter hx)

/-- The lexeme of the comment, if there is one. -/
def ofComment (code comment : List Char) : List Lexeme :=
  if comment.isEmpty then [] else [⟨comment, byteLength code, true⟩]

theorem allOfLine_eq (line : List Char) :
    allOfLine line = placed 0 (cut (cutComment line).1).texts ++
      ofComment (cutComment line).1 (cutComment line).2 := by
  simp only [allOfLine, ofComment]
  split
  · rw [List.append_nil]
  · rfl

theorem filter_ofComment (code comment : List Char) :
    (ofComment code comment).filter (fun x => !x.text.isEmpty) = ofComment code comment := by
  unfold ofComment
  split
  · rfl
  · rename_i hne
    simp [hne]

theorem ofLine_eq (line : List Char) :
    ofLine line =
      ofCode (cutComment line).1 ++ ofComment (cutComment line).1 (cutComment line).2 := by
  rw [ofLine, allOfLine_eq, List.filter_append, filter_ofComment]
  rfl

theorem ofLine_canonical (line : List Char) :
    ∃ code comment T C, (∀ a b, CommentAt line a b ↔ a = code ∧ b = comment) ∧
      ofLine line = T ++ C ∧
      (['/', '/'] <:+: line → C = [⟨comment, byteLength code, true⟩]) ∧
      (¬ ['/', '/'] <:+: line → C = []) ∧
      (∀ x ∈ T, x.isComment = false) ∧
      ∀ ts, Canonical code ts ↔ ts = T.map text := by
  refine ⟨_, _, ofCode (cutComment line).1, ofComment (cutComment line).1 (cutComment line).2,
    fun a b => CommentAt.iff_eq_cutComment, ofLine_eq line, ?_, ?_, isComment_ofCode _, ?_⟩
  · intro hin
    have hne : (cutComment line).2 ≠ [] := fun hnil => (cutComment_at line).eq_nil_iff.mp hnil hin
    simp [ofComment, hne]
  · intro hout
    have hnil := (cutComment_at line).eq_nil_iff.mpr hout
    simp [ofComment, hnil]
  · intro ts
    rw [map_text_ofCode]
    exact canonical_iff _ ts

example : (ofLine ['a', ' ', '(', '/', '/', '/', 'b']).map text =
    [['a'], [' '], ['('], ['/', '/', '/', 'b']] := by
  decide

end Ribbon.Lexeme
