import Ribbon.Proofs.Precedence
import Ribbon.Proofs.Slices

/-!
# Looking ahead from any lexeme

A lexeme need not be one of its line: its text may be any and it may begin at any byte, also at one
far behind the line. Rules then look at the character that begins where it stops. They fail where
its stop is no word.
-/

namespace Ribbon

open Text

namespace Text

/-- The character that begins at a byte of a text. -/
def CharAt (s : List Char) (n : Nat) (c : Char) : Prop := ∃ a b, s = a ++ c :: b ∧ byteLength a = n

theorem charAt_iff {s : List Char} {n : Nat} {c : Char} :
    (afterBytes? n s).bind List.head? = some c ↔ CharAt s n c := by
  simp only [Option.bind_eq_some_iff, afterBytes?_eq_some_iff, List.head?_eq_some_iff]
  constructor
  · rintro ⟨_, ⟨a, hs, hn⟩, b, rfl⟩
    exact ⟨a, b, hs, hn⟩
  · rintro ⟨a, b, hs, hn⟩
    exact ⟨c :: b, ⟨a, hs, hn⟩, b, rfl⟩

theorem CharAt.lt {s : List Char} {n : Nat} {c : Char} (h : CharAt s n c) : n < byteLength s := by
  obtain ⟨a, b, rfl, rfl⟩ := h
  have hpos := c.utf8Size_pos
  rw [byteLength_append, byteLength_cons]
  omega

/-- A character begins at each boundary but the last one. -/
theorem exists_charAt_iff {s : List Char} {n : Nat} :
    (∃ c, CharAt s n c) ↔ n < byteLength s ∧ Boundary n s := by
  constructor
  · rintro ⟨c, h⟩
    refine ⟨h.lt, ?_⟩
    obtain ⟨a, b, hs, hn⟩ := h
    exact ⟨a, c :: b, hs, hn⟩
  · rintro ⟨hlt, a, b, rfl, rfl⟩
    cases b with
    | nil => simp at hlt
    | cons c b => exact ⟨c, a, b, rfl, rfl⟩

end Text

namespace Test

variable {π : Type} [Pattern π] {x : Lexeme}

/-- Making the test comes to look at the next character. -/
def looks (x : Lexeme) : Test π → Bool
  | nameBefore p excluded _ => Pattern.fits p x.text && !isWord excluded x.text
  | _ => false

theorem check_of_not_looks {t : Test π} (h : t.looks x = false) (line : List Char) :
    t.check line x = .ok (t.holds line x) := by
  cases t with
  | nameBefore p excluded next =>
    rw [looks] at h
    simp [check, holds, h]
  | _ => rfl

theorem check_of_looks {t : Test π} (h : t.looks x = true) (hstop : Word.size ≤ x.stop)
    (line : List Char) : t.check line x = .error .sum := by
  cases t with
  | nameBefore p excluded next =>
    rw [looks] at h
    rw [check, if_pos h, Lexeme.lookAhead_of_le hstop]
    rfl
  | _ => cases h

end Test

namespace Lexicon

open Lexeme Rule

variable {line : List Char} {x : Lexeme}

/-! ## Function names -/

theorem isPlain_of_alphanumeric {c : Char} (h : Alphanumeric c) : isPlain c = true := by
  have hall : (marks.all fun d => !d.isAlphanum) = true := by decide
  refine (isPlain_iff c).mpr ⟨fun hc => ?_, isBlank_of_alphanumeric h⟩
  have hno := List.all_eq_true.mp hall c hc
  rw [(isAlphanum_iff c).mpr h] at hno
  cases hno

theorem run_of_smallName {t : List Char} (h : SmallName t) : Run t :=
  .inr (.inr ⟨h.alnum.1, fun c hc => isPlain_of_alphanumeric (h.alnum.2 c hc)⟩)

theorem categoryOf_eq_functionName_iff : standard.categoryOf line x = .functionName ↔
    x.isComment = false ∧ FreeName x.text ∧ x.next? line = some '(' := by
  constructor
  · intro h
    have hflag : x.isComment = false := by
      refine Bool.eq_false_iff.mpr fun hcomment => ?_
      rw [categoryOf_comment standard hcomment] at h
      cases h
    obtain ⟨⟨hsmall, hboolean⟩, hnext⟩ := functionName_holds.mp
      (holds_of_category (r := functionName) hflag (by decide) h)
    refine ⟨hflag, ⟨hsmall, fun hkeyword => ?_, hboolean⟩, hnext⟩
    rw [categoryOf_keyword hflag (run_of_smallName hsmall) hkeyword] at h
    cases h
  · rintro ⟨hflag, hname, hnext⟩
    rw [categoryOf_freeName hflag (run_of_smallName hname.1) hname, if_pos hnext]

/-! ## Failing -/

/-- The only standard rule to look ahead does so at small names that are no booleans. -/
theorem looks_functionName :
    functionName.test.looks x = true ↔ SmallName x.text ∧ ¬ OneOf booleans x.text := by
  simp [functionName, Test.looks, fits_smallName, ← isWord_iff]

theorem check_of_not_small (h : ¬ (SmallName x.text ∧ ¬ OneOf booleans x.text)) :
    ∀ r ∈ standard, r.test.check line x = .ok (r.holds line x) := by
  have hname : functionName.test.looks x = false :=
    Bool.eq_false_iff.mpr fun hlooks => h (looks_functionName.mp hlooks)
  have hnone : ∀ r ∈ standard, r.test.looks x = false := by
    simp only [standard, List.forall_mem_cons]
    exact ⟨rfl, rfl, rfl, hname, rfl, rfl, rfl, rfl, rfl, rfl, rfl, rfl, rfl, by simp⟩
  exact fun r hr => Test.check_of_not_looks (hnone r hr) line

/-- The rules before the one that looks ahead. -/
theorem check_before {r : Rule (Test Shape)} (hr : r ∈ [space, keyword, className])
    (h : ¬ Holds line x r) : r.test.check line x = .ok false := by
  have hnone : ∀ r ∈ [space, keyword, className], r.test.looks x = false := by
    simp only [List.forall_mem_cons]
    exact ⟨rfl, rfl, rfl, by simp⟩
  rw [Test.check_of_not_looks (hnone r hr) line]
  exact congrArg _ (Bool.eq_false_iff.mpr h)

/-- A keyword is found before the search comes to the rule that looks ahead. -/
theorem search_of_keyword (h : OneOf keywords x.text) :
    standard.search line x = .ok (standard.find? line x) := by
  have hsmall := smallName_of_keyword h
  have hblank := hsmall.alnum.not_blank
  have hspace : ∀ r ∈ [space], ¬ Holds line x r := by simpa using hblank
  have hkeyword : Holds line x keyword := by
    simpa [trim_of_run (run_of_smallName hsmall) hblank] using h
  have hfind : standard.find? line x = some keyword :=
    List.find?_eq_some_iff_append.mpr ⟨hkeyword, [space], _, rfl, by simpa [Holds] using hspace⟩
  have hcheck : keyword.test.check line x = .ok true := congrArg Except.ok hkeyword
  rw [hfind]
  change search ([space] ++ keyword :: _) line x = _
  rw [search_append, search_cons, hcheck]
  · rfl
  · exact fun r hr => check_before (List.mem_append_left _ hr) (hspace r hr)

theorem search_of_not_freeName (h : ¬ FreeName x.text) :
    standard.search line x = .ok (standard.find? line x) := by
  by_cases hname : SmallName x.text ∧ ¬ OneOf booleans x.text
  · by_cases hkeyword : OneOf keywords x.text
    · exact search_of_keyword hkeyword
    · exact absurd ⟨hname.1, hkeyword, hname.2⟩ h
  · exact search_of_check standard line (check_of_not_small hname)

theorem search_of_freeName (h : FreeName x.text) (hstop : Word.size ≤ x.stop) :
    standard.search line x = .error .sum := by
  obtain ⟨hsmall, hkeyword, hboolean⟩ := h
  have hblank := hsmall.alnum.not_blank
  have hcapital : ¬ CapitalName x.text := fun hc => hc.not_small hsmall
  have hbefore : ∀ r ∈ [space, keyword, className], ¬ Holds line x r := by
    simpa [trim_of_run (run_of_smallName hsmall) hblank] using ⟨hblank, hkeyword, hcapital⟩
  have hname : functionName.test.check line x = .error .sum :=
    Test.check_of_looks (looks_functionName.mpr ⟨hsmall, hboolean⟩) hstop line
  change search ([space, keyword, className] ++ functionName :: _) line x = _
  rw [search_append, search_cons, hname]
  · rfl
  · exact fun r hr => check_before hr (hbefore r hr)

/-- Classifying fails where it looks at a next character that cannot be looked for. -/
theorem classify_eq_error_iff (hstop : Word.size ≤ x.stop) :
    standard.classify line x = .error .sum ↔ x.isComment = false ∧ FreeName x.text := by
  cases hflag : x.isComment with
  | true => simp [classify, hflag]
  | false =>
    by_cases hname : FreeName x.text
    · simp [classify, hflag, search_of_freeName hname hstop, hname]
    · simp [classify_of_search standard line (search_of_not_freeName hname), hname]

theorem classify_eq_functionName_iff : standard.classify line x = .ok .functionName ↔
    x.stop < Word.size ∧ x.isComment = false ∧ FreeName x.text ∧ CharAt line x.stop '(' := by
  rw [← charAt_iff, ← next?]
  by_cases hstop : x.stop < Word.size
  · rw [classify_of_lt standard line hstop, Except.ok.injEq, categoryOf_eq_functionName_iff]
    simp [hstop]
  · refine iff_of_false (fun h => ?_) fun h => hstop h.1
    by_cases hname : FreeName x.text
    · cases hflag : x.isComment with
      | true => simp [classify, hflag] at h
      | false =>
        rw [(classify_eq_error_iff (not_lt.mp hstop)).mpr ⟨hflag, hname⟩] at h
        cases h
    · rw [classify_of_search standard line (search_of_not_freeName hname), Except.ok.injEq] at h
      exact hname (categoryOf_eq_functionName_iff.mp h).2.1

/-! ## Main result -/

/-- The character after a lexeme is the one that begins where it stops, as far as the line goes, and
behind the end of the line nothing is called. Neither looking ahead nor classifying fails. -/
structure LooksAhead (line : List Char) (x : Lexeme) : Prop where
  total : (∃ next, x.lookAhead line = .ok next) ∧ ∃ c, standard.classify line x = .ok c
  next : ∀ c, x.lookAhead line = .ok (some c) ↔ CharAt line x.stop c
  none : x.lookAhead line = .ok none ↔ ¬ (x.stop < byteLength line ∧ Boundary x.stop line)
  call : byteLength line ≤ x.stop → standard.classify line x ≠ .ok .functionName

theorem looksAhead_of_lt (h : x.stop < Word.size) : LooksAhead line x where
  total := ⟨⟨_, lookAhead_of_lt h line⟩, _, classify_of_lt standard line h⟩
  next c := by rw [lookAhead_of_lt h, Except.ok.injEq, next?, charAt_iff]
  none := by
    rw [lookAhead_of_lt h, Except.ok.injEq, ← exists_charAt_iff, Option.eq_none_iff_forall_ne_some,
      not_exists]
    exact forall_congr' fun c => not_congr charAt_iff
  call := by
    intro hstop hcall
    have hnext := (classify_eq_functionName_iff.mp hcall).2.2.2
    exact Nat.not_lt.mpr hstop hnext.lt

/-- Looking ahead goes as it should exactly where the stop of a lexeme is a word. Where it is none,
looking ahead fails, and classifying fails at names that may be called. -/
theorem looksAhead_iff (line : List Char) (x : Lexeme) :
    (LooksAhead line x ↔ x.stop < Word.size) ∧
    (Word.size ≤ x.stop → x.lookAhead line = .error .sum ∧
      (standard.classify line x = .error .sum ↔ x.isComment = false ∧ FreeName x.text)) ∧
    (standard.classify line x = .ok .functionName ↔
      x.stop < Word.size ∧ x.isComment = false ∧ FreeName x.text ∧ CharAt line x.stop '(') := by
  refine ⟨⟨fun h => ?_, looksAhead_of_lt⟩, fun hstop => ?_, classify_eq_functionName_iff⟩
  · obtain ⟨next, hnext⟩ := h.total.1
    by_contra hstop
    rw [lookAhead_of_le (not_lt.mp hstop)] at hnext
    cases hnext
  · exact ⟨lookAhead_of_le hstop line, classify_eq_error_iff hstop⟩

/-- A name at the last byte there is cannot be looked behind. -/
theorem not_looksAhead_last_byte : ¬ LooksAhead ['('] ⟨['f'], Word.last, false⟩ := by
  intro h
  obtain ⟨next, hnext⟩ := h.total.1
  cases hnext

end Lexicon

end Ribbon
