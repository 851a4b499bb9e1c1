import Ribbon.Proofs.Meaning

/-!
# Which rules overlap

Few of the standard rules can hold of one lexeme together. The order in which rules are tried
matters for these alone, and for each of them there is a line that shows it.
-/

namespace Ribbon.Lexicon

open Text Lexeme Rule

/-! ## Lists in which one element stands before another -/

section Order

variable {α : Type} {l : List α} {a b : α}

theorem sublist_or_sublist (ha : a ∈ l) (hb : b ∈ l) (hne : a ≠ b) :
    [a, b].Sublist l ∨ [b, a].Sublist l := by
  obtain ⟨before, after, rfl⟩ := List.append_of_mem ha
  rcases List.mem_append.mp hb with h | h
  · right
    have hpair : ([b] ++ [a]).Sublist (before ++ a :: after) :=
      (List.singleton_sublist.mpr h).append (List.singleton_sublist.mpr List.mem_cons_self)
    exact hpair
  · left
    have hafter : b ∈ after := (List.mem_cons.mp h).resolve_left hne.symm
    have hpair : [a, b].Sublist (a :: after) := (List.singleton_sublist.mpr hafter).cons_cons a
    exact hpair.trans (List.sublist_append_right before _)

/-- Nothing that passes a test stands before the first element that does. -/
theorem eq_of_find?_of_sublist {p : α → Bool} (hl : l.Nodup) (hfind : l.find? p = some b)
    (ha : p a = true) (horder : [a, b].Sublist l) : a = b := by
  induction l with
  | nil => cases hfind
  | cons c l ih =>
    obtain ⟨hc, hl⟩ := List.nodup_cons.mp hl
    rw [List.find?_cons] at hfind
    split at hfind
    · cases hfind
      cases horder with
      | cons _ h => exact absurd (h.subset (by simp)) hc
      | cons_cons _ h => rfl
    · rename_i hno
      cases horder with
      | cons _ h => exact ih hl hfind h
      | cons_cons _ h =>
        rw [ha] at hno
        cases hno

theorem find?_erase [DecidableEq α] {p : α → Bool} (h : ¬ p a = true) :
    (l.erase a).find? p = l.find? p := by
  induction l with
  | nil => rfl
  | cons c l ih =>
    by_cases hc : c = a
    · subst hc
      rw [List.erase_cons_head, List.find?_cons_of_neg h]
    · rw [List.erase_cons_tail (by simpa using hc), List.find?_cons, List.find?_cons, ih]

end Order

/-! ## Lexemes of the code -/

/-- What the lexemes of a line are, the comment aside. -/
structure InCode (x : Lexeme) : Prop where
  flag : x.isComment = false
  run : Run x.text
  closed : ¬ ['/', '/'] <+: x.text

theorem closed_code (line : List Char) : ¬ ['/', '/'] <:+: (cutComment line).1 := by
  rintro ⟨a, b, hab⟩
  have hline : line = a ++ '/' :: '/' :: (b ++ (cutComment line).2) :=
    (cutComment_append line).symm.trans (by simp [← hab])
  have hle := cutComment_first line a _ hline
  rw [← hab] at hle
  simp only [List.length_append, List.length_cons, List.length_nil] at hle
  omega

theorem closed_of_mem {line : List Char} {x : Lexeme} (h : x ∈ ofLine line)
    (hx : x.isComment = false) : ¬ ['/', '/'] <:+: x.text := by
  have hcode : x ∈ ofCode (cutComment line).1 := by
    rw [ofLine_eq, List.mem_append] at h
    refine h.resolve_right fun hmem => ?_
    unfold ofComment at hmem
    split at hmem
    · cases hmem
    · rw [List.mem_singleton] at hmem
      subst hmem
      cases hx
  have htext : x.text <:+: (cutComment line).1 := by
    rw [← spelled_ofCode (cutComment line).1, spelled]
    exact List.infix_of_mem_flatten (List.mem_map_of_mem hcode)
  exact fun hopens => closed_code line (hopens.trans htext)

theorem run_of_mem {line : List Char} {x : Lexeme} (h : x ∈ ofLine line)
    (hx : x.isComment = false) : Run x.text := by
  rcases run_or_comment h with ⟨hcomment, -⟩ | ⟨-, hrun⟩
  · rw [hx] at hcomment
    cases hcomment
  · exact hrun

theorem inCode_of_mem {line : List Char} {x : Lexeme} (h : x ∈ ofLine line)
    (hx : x.isComment = false) : InCode x :=
  ⟨hx, run_of_mem h hx, fun hopens => closed_of_mem h hx hopens.isInfix⟩

/-! ## Overlapping rules -/

/-- The rules that can hold of one lexeme together. The one that must be tried first is first. -/
def precedence : List (Rule (Test Shape) × Rule (Test Shape)) :=
  [(keyword, functionName), (keyword, variableName), (functionName, variableName),
    (operator, string), (operator, decorator)]

/-- Overlapping rules are tried in their order. -/
def Ranked (rules : Lexicon (Test Shape)) : Prop := ∀ p ∈ precedence, [p.1, p.2].Sublist rules

theorem nodup_standard : standard.Nodup := by decide

theorem precedence_standard : ∀ p ∈ precedence, p.1 ∈ standard ∧ p.2 ∈ standard ∧ p.1 ≠ p.2 := by
  decide

theorem category_ne_other : ∀ r ∈ standard, r.category ≠ .other := by decide

theorem category_injOn : ∀ q ∈ standard, ∀ r ∈ standard, q.category = r.category → q = r := by
  decide

/-- The characters that decide, where no name, number or separator is. -/
def signs : List Char := ['"', '\'', '@'] ++ operatorChars

theorem sign_plain : ∀ c ∈ signs, isPlain c = true ∧ c.isAlphanum = false := by
  have h : signs.all (fun c => isPlain c && !c.isAlphanum) = true := by decide
  simpa using h

theorem unclaimed_of_sign {t : List Char} (hrun : Run t) {c : Char} (hc : c ∈ t) (hsign : c ∈ signs) :
    Unclaimed t := by
  obtain ⟨hplain, hno⟩ := sign_plain c hsign
  have hall : PlainRun t := by
    rcases hrun with h | ⟨m, hm, rfl⟩ | h
    · rw [isPlain_of_blank (h.2 c hc)] at hplain
      cases hplain
    · rw [List.mem_singleton.mp hc, isPlain_of_mark hm] at hplain
      cases hplain
    · exact h
  have hmark {chars : List Char} (hchars : chars ⊆ marks) : ¬ ∃ d ∈ chars, t = [d] := by
    rintro ⟨d, hd, rfl⟩
    exact not_mem_of_plain hall hchars ⟨d, List.mem_cons_self, hd⟩
  have halnum : ¬ Alnum t := by
    intro h
    rw [(isAlphanum_iff c).mpr (h.2 c hc)] at hno
    cases hno
  exact {
    blank := fun h => BlankRun.not_plain ⟨hall.1, h⟩ hall
    bracket := hmark bracketChars_subset
    punctuation := hmark punctuationChars_subset
    keyword := fun h => halnum (smallName_of_keyword h).alnum
    boolean := fun h => halnum (smallName_of_boolean h).alnum
    capital := fun h => halnum h.alnum
    small := fun h => halnum h.alnum
    digits := fun h => halnum h.alnum }

theorem unclaimed_of_operates {t : List Char} (hrun : Run t) (h : Operates t) : Unclaimed t := by
  obtain ⟨c, hc, hop⟩ := h
  exact unclaimed_of_sign hrun hc (List.mem_append_right _ hop)

theorem unclaimed_of_quoted {t : List Char} (hrun : Run t) (h : Quoted t) : Unclaimed t := by
  obtain ⟨q, m, hq, rfl⟩ := h
  exact unclaimed_of_sign hrun List.mem_cons_self (by rcases hq with rfl | rfl <;> decide)

theorem unclaimed_of_at {t : List Char} (hrun : Run t) (h : t.head? = some '@') : Unclaimed t :=
  unclaimed_of_sign hrun (List.mem_of_mem_head? h) (by decide)

/-- In a run, a mark stands alone. -/
theorem eq_of_mark_mem {t : List Char} (hrun : Run t) {c : Char} (hc : c ∈ t) (hmark : c ∈ marks) :
    t = [c] := by
  rcases hrun with h | ⟨m, -, rfl⟩ | h
  · have := h.2 c hc
    rw [isBlank_of_mark hmark] at this
    cases this
  · rw [List.mem_singleton.mp hc]
  · have := h.2 c hc
    rw [isPlain_of_mark hmark] at this
    cases this

theorem oneOf_of_trim {words : List String} {t : List Char} (hrun : Run t)
    (hwords : ¬ OneOf words []) (h : OneOf words (trim t)) : OneOf words t := by
  by_cases hblank : Blank t
  · rw [trim_blank hblank] at h
    exact absurd h hwords
  · rwa [trim_of_run hrun hblank] at h

theorem notOneOf_nil : ∀ words ∈ [keywords, booleans], ¬ OneOf words [] := by
  simp only [← isWord_iff]
  decide

/-! ## What follows where a rule holds -/

/-- The categories of lexemes that a rule holds of: its own, and that of a rule to be tried before
it. -/
def Yields (q : Rule (Test Shape)) (c : Category) : Prop :=
  c = q.category ∨ ∃ r, (r, q) ∈ precedence ∧ c = r.category

variable {line : List Char} {x : Lexeme}

theorem yields_keyword (h : InCode x) (hholds : Holds line x keyword) :
    Yields keyword (standard.categoryOf line x) := by
  rw [keyword_holds] at hholds
  have hword := oneOf_of_trim h.run (notOneOf_nil _ (by simp)) hholds
  exact .inl (categoryOf_keyword h.flag h.run hword)

theorem yields_boolean (h : InCode x) (hholds : Holds line x boolean) :
    Yields boolean (standard.categoryOf line x) := by
  rw [boolean_holds] at hholds
  have hword := oneOf_of_trim h.run (notOneOf_nil _ (by simp)) hholds
  exact .inl (categoryOf_boolean h.flag h.run hword)

theorem categoryOf_smallName (h : InCode x) (hsmall : SmallName x.text)
    (hboolean : ¬ OneOf booleans x.text) :
    standard.categoryOf line x = .keyword ∨ standard.categoryOf line x =
      if x.next? line = some '(' then .functionName else .variableName := by
  by_cases hkeyword : OneOf keywords x.text
  · exact .inl (categoryOf_keyword h.flag h.run hkeyword)
  · exact .inr (categoryOf_freeName h.flag h.run ⟨hsmall, hkeyword, hboolean⟩)

theorem yields_functionName (h : InCode x) (hholds : Holds line x functionName) :
    Yields functionName (standard.categoryOf line x) := by
  rw [functionName_holds] at hholds
  obtain ⟨⟨hsmall, hboolean⟩, hnext⟩ := hholds
  rcases categoryOf_smallName h hsmall hboolean with hc | hc
  · exact .inr ⟨keyword, by decide, hc⟩
  · rw [if_pos hnext] at hc
    exact .inl hc

theorem yields_variableName (h : InCode x) (hholds : Holds line x variableName) :
    Yields variableName (standard.categoryOf line x) := by
  rw [variableName_holds] at hholds
  rcases categoryOf_smallName h hholds.1 hholds.2 with hc | hc
  · exact .inr ⟨keyword, by decide, hc⟩
  · split at hc
    · exact .inr ⟨functionName, by decide, hc⟩
    · exact .inl hc

theorem yields_operator (h : InCode x) (hholds : Holds line x operator) :
    Yields operator (standard.categoryOf line x) := by
  rw [operator_holds] at hholds
  exact .inl (categoryOf_operator h.flag h.run (unclaimed_of_operates h.run hholds) hholds)

theorem yields_string (h : InCode x) (hholds : Holds line x string) :
    Yields string (standard.categoryOf line x) := by
  rw [string_holds] at hholds
  have hunclaimed := unclaimed_of_quoted h.run hholds
  by_cases hop : Operates x.text
  · exact .inr ⟨operator, by decide, categoryOf_operator h.flag h.run hunclaimed hop⟩
  · exact .inl (categoryOf_string h.flag h.run hunclaimed hop hholds)

theorem yields_decorator (h : InCode x) (hholds : Holds line x decorator) :
    Yields decorator (standard.categoryOf line x) := by
  rw [decorator_holds] at hholds
  have hunclaimed := unclaimed_of_at h.run hholds
  have hquoted : ¬ Quoted x.text := by
    rintro ⟨q, m, hq, htext⟩
    rw [htext, List.head?_cons, Option.some.injEq] at hholds
    rcases hq with rfl | rfl
    · cases hholds
    · cases hholds
  by_cases hop : Operates x.text
  · exact .inr ⟨operator, by decide, categoryOf_operator h.flag h.run hunclaimed hop⟩
  · exact .inl (categoryOf_decorator h.flag h.run hunclaimed hop hquoted hholds)

theorem yields_bracket (h : InCode x) (hholds : Holds line x bracket) :
    Yields bracket (standard.categoryOf line x) := by
  obtain ⟨d, hd, hchar⟩ := bracket_holds.mp hholds
  have htext := eq_of_mark_mem h.run hd (bracketChars_subset hchar)
  exact .inl (categoryOf_bracket h.flag ⟨d, hchar, htext⟩)

theorem yields_punctuation (h : InCode x) (hholds : Holds line x punctuation) :
    Yields punctuation (standard.categoryOf line x) := by
  obtain ⟨d, hd, hchar⟩ := punctuation_holds.mp hholds
  have htext := eq_of_mark_mem h.run hd (punctuationChars_subset hchar)
  exact .inl (categoryOf_punctuation h.flag ⟨d, hchar, htext⟩)

theorem yields_of_holds (h : InCode x) {q : Rule (Test Shape)} (hq : q ∈ standard)
    (hholds : Holds line x q) :
    Yields q (standard.categoryOf line x) := by
  simp only [standard, List.mem_cons, List.not_mem_nil, or_false] at hq
  rcases hq with rfl | rfl | rfl | rfl | rfl | rfl | rfl | rfl | rfl | rfl | rfl | rfl | rfl
  · exact .inl (categoryOf_first h.flag [] _ space (by simp) hholds)
  · exact yields_keyword h hholds
  · exact .inl (categoryOf_className h.flag h.run (className_holds.mp hholds))
  · exact yields_functionName h hholds
  · exact yields_variableName h hholds
  · exact yields_operator h hholds
  · exact yields_string h hholds
  · exact .inl (categoryOf_number h.flag h.run (number_holds.mp hholds))
  · exact yields_boolean h hholds
  · exact absurd (comment_holds.mp hholds) h.closed
  · exact yields_decorator h hholds
  · exact yields_bracket h hholds
  · exact yields_punctuation h hholds

/-! ## Lexicons with the standard rules in another order -/

variable {rules : Lexicon (Test Shape)}

theorem holds_of_find? {q : Rule (Test Shape)} (h : rules.find? line x = some q) :
    q ∈ rules ∧ Holds line x q := by
  obtain ⟨hholds, before, after, rfl, -⟩ := List.find?_eq_some_iff_append.mp h
  exact ⟨by simp, hholds⟩

theorem categoryOf_of_find? (hx : x.isComment = false) {q : Rule (Test Shape)}
    (h : rules.find? line x = some q) : rules.categoryOf line x = q.category := by
  unfold categoryOf
  rw [hx, h]
  rfl

theorem find?_of_perm (hperm : rules.Perm standard) :
    rules.find? line x = none ↔ standard.find? line x = none := by
  unfold find?
  rw [List.find?_eq_none, List.find?_eq_none]
  exact forall_congr' fun q => by rw [hperm.mem_iff]

theorem holds_of_category (hx : x.isComment = false) {r : Rule (Test Shape)} (hr : r ∈ standard)
    (h : standard.categoryOf line x = r.category) : Holds line x r := by
  cases hfind : standard.find? line x with
  | none =>
    rw [categoryOf_none hx standard (List.find?_eq_none.mp hfind)] at h
    exact absurd h.symm (category_ne_other r hr)
  | some q =>
    obtain ⟨hq, hholds⟩ := holds_of_find? hfind
    rw [categoryOf_of_find? hx hfind] at h
    rwa [← category_injOn q hq r hr h]

/-- With overlapping rules in order, the first rule that holds is as good as the standard one. -/
theorem categoryOf_of_ranked (hperm : rules.Perm standard) (hranked : Ranked rules) (h : InCode x) :
    rules.categoryOf line x = standard.categoryOf line x := by
  cases hfind : rules.find? line x with
  | none =>
    have hnone := (find?_of_perm hperm).mp hfind
    unfold categoryOf
    rw [h.flag, hfind, hnone]
  | some q =>
    obtain ⟨hq, hholds⟩ := holds_of_find? hfind
    rw [categoryOf_of_find? h.flag hfind]
    rcases yields_of_holds h (hperm.mem_iff.mp hq) hholds with heq | ⟨f, hf, heq⟩
    · exact heq.symm
    · -- The rule `f` that should be tried before `q` decides in the standard order, so it holds.
      have hfstandard := (precedence_standard _ hf).1
      have hfholds : Holds line x f := holds_of_category h.flag hfstandard heq
      have hnodup := hperm.nodup_iff.mpr nodup_standard
      have hfq := eq_of_find?_of_sublist hnodup hfind hfholds (hranked _ hf)
      rw [heq, hfq]

/-! ## Lines that show the order -/

/-- Overlapping rules do overlap: of some lexeme both hold, and the first one decides. -/
theorem exists_contested : ∀ p ∈ precedence, ∃ line, ∃ x ∈ ofLine line, x.isComment = false ∧
    standard.categoryOf line x = p.1.category ∧ Holds line x p.2 := by
  simp only [precedence, List.forall_mem_cons]
  refine ⟨?_, ?_, ?_, ?_, ?_, by simp⟩
  · exact ⟨['i', 'f', '('], ⟨['i', 'f'], 0, false⟩, by decide, rfl, by decide, rfl⟩
  · exact ⟨['i', 'f'], ⟨['i', 'f'], 0, false⟩, by decide, rfl, by decide, rfl⟩
  · exact ⟨['f', '('], ⟨['f'], 0, false⟩, by decide, rfl, by decide, rfl⟩
  · exact ⟨['"', '+', '"'], ⟨['"', '+', '"'], 0, false⟩, by decide, rfl, by decide, rfl⟩
  · exact ⟨['@', '+'], ⟨['@', '+'], 0, false⟩, by decide, rfl, by decide, rfl⟩

theorem segments_eq_iff (other : Lexicon (Test Shape)) (width : Nat) (line : List Char) :
    (Scheme.mk rules width).segments line = (Scheme.mk other width).segments line ↔
      ∀ x ∈ ofLine line, rules.categoryOf line x = other.categoryOf line x := by
  unfold Scheme.segments
  rw [List.map_inj_left]
  apply forall₂_congr
  intro x _
  simp [Scheme.segment, Scheme.widthOf]

theorem ranked_of_segments (hperm : rules.Perm standard) (width : Nat)
    (h : ∀ line, (Scheme.mk rules width).segments line = (Scheme.standard width).segments line) :
    Ranked rules := by
  intro p hp
  obtain ⟨hfirst, hsecond, hne⟩ := precedence_standard p hp
  refine (sublist_or_sublist (hperm.mem_iff.mpr hfirst) (hperm.mem_iff.mpr hsecond) hne).resolve_right ?_
  intro hreversed
  obtain ⟨line, x, hx, hflag, hc, hsecondHolds⟩ := exists_contested p hp
  have hsame := (segments_eq_iff standard width line).mp (h line) x hx
  have hfirstHolds := holds_of_category hflag hfirst hc
  cases hfind : rules.find? line x with
  | none =>
    have hnone := List.find?_eq_none.mp hfind p.1 (hperm.mem_iff.mpr hfirst)
    exact absurd hfirstHolds hnone
  | some q =>
    have hq := (holds_of_find? hfind).1
    rw [categoryOf_of_find? hflag hfind, hc] at hsame
    have hqp := category_injOn q (hperm.mem_iff.mp hq) p.1 hfirst hsame
    subst hqp
    have hnodup := hperm.nodup_iff.mpr nodup_standard
    exact hne (eq_of_find?_of_sublist hnodup hfind hsecondHolds hreversed).symm

/-! ## The rule on comments -/

theorem isComment_of_comment_holds {x : Lexeme} (hx : x ∈ ofLine line) (h : Holds line x comment) :
    x.isComment = true := by
  by_contra hflag
  exact (inCode_of_mem hx (Bool.eq_false_iff.mpr hflag)).closed (comment_holds.mp h)

theorem categoryOf_erase_comment {x : Lexeme} (hx : x ∈ ofLine line) :
    categoryOf (rules.erase comment) line x = rules.categoryOf line x := by
  unfold categoryOf
  by_cases hflag : x.isComment = true
  · rw [if_pos hflag, if_pos hflag]
  · have hno : ¬ Holds line x comment := fun h => hflag (isComment_of_comment_holds hx h)
    have hfind : find? (rules.erase comment) line x = rules.find? line x := find?_erase hno
    rw [hfind]

/-! ## Main result -/

/-- The standard rules may be tried in any order that keeps the overlapping ones in theirs, and in
no other. The rule on comments may be left out: no lexeme of the code begins like a comment. -/
theorem segments_of_perm (rules : Lexicon (Test Shape)) (hperm : rules.Perm standard)
    (width : Nat) :
    ((∀ line, (Scheme.mk rules width).segments line = (Scheme.standard width).segments line) ↔
      [keyword, functionName].Sublist rules ∧ [keyword, variableName].Sublist rules ∧
        [functionName, variableName].Sublist rules ∧ [operator, string].Sublist rules ∧
        [operator, decorator].Sublist rules) ∧
    (∀ line, ∀ x ∈ ofLine line, comment.test.holds line x = true → x.isComment = true) ∧
    ∀ line, (Scheme.mk (rules.erase comment) width).segments line =
      (Scheme.mk rules width).segments line := by
  have hranked : Ranked rules ↔
      [keyword, functionName].Sublist rules ∧ [keyword, variableName].Sublist rules ∧
        [functionName, variableName].Sublist rules ∧ [operator, string].Sublist rules ∧
        [operator, decorator].Sublist rules := by
    simp [Ranked, precedence]
  refine ⟨?_, fun line x hx h => isComment_of_comment_holds hx h, ?_⟩
  · rw [← hranked]
    refine ⟨ranked_of_segments hperm width, fun h line => ?_⟩
    refine (segments_eq_iff standard width line).mpr fun x hx => ?_
    by_cases hflag : x.isComment = true
    · rw [categoryOf_comment rules hflag, categoryOf_comment standard hflag]
    · exact categoryOf_of_ranked hperm h (inCode_of_mem hx (Bool.eq_false_iff.mpr hflag))
  · intro line
    exact (segments_eq_iff rules width line).mpr fun x hx => categoryOf_erase_comment hx

/-- Rules turned round as far as the overlapping ones allow, and rules turned round altogether. -/
theorem segments_of_perm_turned :
    (∀ line, (Scheme.mk [.punctuation, .bracket, .operator, .decorator, .comment, .boolean, .number,
        .string, .className, .keyword, .functionName, .variableName, .space] 8).segments line =
      (Scheme.standard 8).segments line) ∧
    ¬ ∀ line, (Scheme.mk standard.reverse 8).segments line = (Scheme.standard 8).segments line :=
  ⟨(segments_of_perm _ (by decide) 8).1.mpr (by decide),
    mt (segments_of_perm _ (List.reverse_perm _) 8).1.mp (by decide)⟩

end Ribbon.Lexicon
