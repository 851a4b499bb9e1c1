import Ribbon.Proofs.Timeline

/-!
# What the standard rules mean

The category of each lexeme of a line, said without the order in which the rules are tried.
-/

namespace Ribbon.Lexicon

open Text Lexeme Rule

/-! ## Shapes of texts -/

def Capital (c : Char) : Prop := 'A' ≤ c ∧ c ≤ 'Z'

def Small (c : Char) : Prop := 'a' ≤ c ∧ c ≤ 'z'

def Digit (c : Char) : Prop := '0' ≤ c ∧ c ≤ '9'

def Alphanumeric (c : Char) : Prop := Capital c ∨ Small c ∨ Digit c

def Blank (t : List Char) : Prop := ∀ c ∈ t, isBlank c = true

def CapitalName (t : List Char) : Prop := ∃ c r, t = c :: r ∧ Capital c ∧ ∀ d ∈ r, Alphanumeric d

def SmallName (t : List Char) : Prop := ∃ c r, t = c :: r ∧ Small c ∧ ∀ d ∈ r, Alphanumeric d

def Digits (t : List Char) : Prop := t ≠ [] ∧ ∀ c ∈ t, Digit c

def OneOf (words : List String) (t : List Char) : Prop := ∃ w ∈ words, t = w.toList

def Operates (t : List Char) : Prop := ∃ c ∈ t, c ∈ operatorChars

/-- The same quote at both ends, which are two. -/
def Quoted (t : List Char) : Prop := ∃ q m, (q = '"' ∨ q = '\'') ∧ t = q :: (m ++ [q])

theorem isUpper_iff (c : Char) : c.isUpper = true ↔ Capital c := decide_eq_true_iff

theorem isLower_iff (c : Char) : c.isLower = true ↔ Small c :=
  Bool.and_eq_true_iff.trans (and_congr decide_eq_true_iff decide_eq_true_iff)

theorem isDigit_iff (c : Char) : c.isDigit = true ↔ Digit c :=
  Bool.and_eq_true_iff.trans (and_congr decide_eq_true_iff decide_eq_true_iff)

theorem isAlphanum_iff (c : Char) : c.isAlphanum = true ↔ Alphanumeric c := by
  have hparts : c.isAlphanum = (c.isUpper || c.isLower || c.isDigit) := rfl
  rw [hparts, Bool.or_eq_true, Bool.or_eq_true, isUpper_iff, isLower_iff, isDigit_iff, or_assoc]
  rfl

theorem fits_capitalName (t : List Char) : Shape.capitalName.fits t = true ↔ CapitalName t := by
  cases t with
  | nil => simp [Shape.fits, CapitalName]
  | cons c r =>
    simp [Shape.fits, Shape.capitalName, CharClass.contains, CapitalName, isUpper_iff, isAlphanum_iff]

theorem fits_smallName (t : List Char) : Shape.smallName.fits t = true ↔ SmallName t := by
  cases t with
  | nil => simp [Shape.fits, SmallName]
  | cons c r =>
    simp [Shape.fits, Shape.smallName, CharClass.contains, SmallName, isLower_iff, isAlphanum_iff]

theorem fits_number (t : List Char) : Shape.number.fits t = true ↔ Digits t := by
  cases t with
  | nil => simp [Shape.fits, Digits]
  | cons c r => simp [Shape.fits, Shape.number, CharClass.contains, Digits, isDigit_iff]

theorem isWord_iff (words : List String) (t : List Char) : isWord words t = true ↔ OneOf words t := by
  simp only [isWord, OneOf, List.any_eq_true, beq_iff_eq]
  exact exists_congr fun w => and_congr_right fun _ => eq_comm

theorem isQuoted_iff (t : List Char) : isQuoted t = true ↔ Quoted t := by
  match t with
  | [] => simp [isQuoted, Quoted]
  | [c] => simp [isQuoted, Quoted]
  | c :: d :: r =>
    simp only [isQuoted, Quoted, Bool.and_eq_true, Bool.or_eq_true, beq_iff_eq, List.cons.injEq]
    constructor
    · rintro ⟨hq, hlast⟩
      obtain ⟨m, hm⟩ := List.getLast?_eq_some_iff.mp hlast
      exact ⟨c, m, hq, rfl, hm⟩
    · rintro ⟨q, m, hq, rfl, hm⟩
      refine ⟨hq, ?_⟩
      rw [hm]
      simp

/-! ## Which shapes exclude each other -/

theorem nat_of_alphanumeric {c : Char} (h : Alphanumeric c) :
    (48 ≤ c.toNat ∧ c.toNat ≤ 57) ∨ (65 ≤ c.toNat ∧ c.toNat ≤ 90) ∨ (97 ≤ c.toNat ∧ c.toNat ≤ 122) := by
  rcases h with h | h | h
  · exact Or.inr (Or.inl h)
  · exact Or.inr (Or.inr h)
  · exact Or.inl h

theorem isBlank_of_alphanumeric {c : Char} (h : Alphanumeric c) : isBlank c = false := by
  have := nat_of_alphanumeric h
  simp only [isBlank, Bool.or_eq_false_iff, Bool.and_eq_false_iff, decide_eq_false_iff_not,
    beq_eq_false_iff_ne]
  omega

theorem not_operator_of_alphanumeric {c : Char} (h : Alphanumeric c) : c ∉ operatorChars := by
  have hall : (operatorChars.all fun d => d.toNat < 48 ∨ (57 < d.toNat ∧ d.toNat < 65) ∨
      (90 < d.toNat ∧ d.toNat < 97) ∨ 122 < d.toNat) = true := by decide
  have := nat_of_alphanumeric h
  intro hc
  have := of_decide_eq_true (List.all_eq_true.mp hall c hc)
  omega

def Alnum (t : List Char) : Prop := t ≠ [] ∧ ∀ c ∈ t, Alphanumeric c

theorem CapitalName.alnum {t : List Char} (h : CapitalName t) : Alnum t := by
  obtain ⟨c, r, rfl, hc, hr⟩ := h
  exact ⟨by simp, List.forall_mem_cons.mpr ⟨Or.inl hc, hr⟩⟩

theorem SmallName.alnum {t : List Char} (h : SmallName t) : Alnum t := by
  obtain ⟨c, r, rfl, hc, hr⟩ := h
  exact ⟨by simp, List.forall_mem_cons.mpr ⟨Or.inr (Or.inl hc), hr⟩⟩

theorem Digits.alnum {t : List Char} (h : Digits t) : Alnum t :=
  ⟨h.1, fun c hc => Or.inr (Or.inr (h.2 c hc))⟩

theorem Alnum.not_blank {t : List Char} (h : Alnum t) : ¬ Blank t := by
  intro hblank
  obtain ⟨c, r, rfl⟩ := List.exists_cons_of_ne_nil h.1
  have := isBlank_of_alphanumeric (h.2 c List.mem_cons_self)
  rw [hblank c List.mem_cons_self] at this
  cases this

theorem Alnum.not_operates {t : List Char} (h : Alnum t) : ¬ Operates t := by
  rintro ⟨c, hc, hop⟩
  exact not_operator_of_alphanumeric (h.2 c hc) hop

theorem Alnum.not_quoted {t : List Char} (h : Alnum t) : ¬ Quoted t := by
  rintro ⟨q, m, hq, rfl⟩
  have := nat_of_alphanumeric (h.2 q List.mem_cons_self)
  rcases hq with rfl | rfl
  · revert this
    decide
  · revert this
    decide

theorem CapitalName.not_small {t : List Char} (h : CapitalName t) : ¬ SmallName t := by
  rintro ⟨d, s, hds, hd, -⟩
  obtain ⟨c, r, rfl, hc, -⟩ := h
  simp only [List.cons.injEq] at hds
  obtain ⟨rfl, -⟩ := hds
  have h1 : c.toNat ≤ 90 := hc.2
  have h2 : 97 ≤ c.toNat := hd.1
  omega

theorem Digits.not_capital {t : List Char} (h : Digits t) : ¬ CapitalName t := by
  rintro ⟨c, r, rfl, hc, -⟩
  have h1 : c.toNat ≤ 57 := (h.2 c List.mem_cons_self).2
  have h2 : 65 ≤ c.toNat := hc.1
  omega

theorem Digits.not_small {t : List Char} (h : Digits t) : ¬ SmallName t := by
  rintro ⟨c, r, rfl, hc, -⟩
  have h1 : c.toNat ≤ 57 := (h.2 c List.mem_cons_self).2
  have h2 : 97 ≤ c.toNat := hc.1
  omega

theorem of_word {words : List String} {p : List Char → Prop} (hall : ∀ w ∈ words, p w.toList)
    {t : List Char} (h : OneOf words t) : p t := by
  obtain ⟨w, hw, rfl⟩ := h
  exact hall w hw

theorem smallName_of_keyword {t : List Char} (h : OneOf keywords t) : SmallName t := by
  rw [← fits_smallName]
  exact of_word (p := fun t => Shape.smallName.fits t = true) (by decide) h

theorem smallName_of_boolean {t : List Char} (h : OneOf booleans t) : SmallName t := by
  rw [← fits_smallName]
  exact of_word (p := fun t => Shape.smallName.fits t = true) (by decide) h

theorem not_keyword_of_boolean {t : List Char} (h : OneOf booleans t) : ¬ OneOf keywords t := by
  rw [← isWord_iff]
  exact of_word (p := fun t => ¬ isWord keywords t = true) (by decide) h

/-! ## The first rule that holds -/

variable {line : List Char} {x : Lexeme}

def Holds (line : List Char) (x : Lexeme) (r : Rule (Test Shape)) : Prop :=
  r.holds line x = true

theorem categoryOf_first (hx : x.isComment = false) (before after : Lexicon (Test Shape))
    (r : Rule (Test Shape))
    (hbefore : ∀ q ∈ before, ¬ Holds line x q) (hr : Holds line x r) :
    categoryOf (before ++ r :: after) line x = r.category := by
  have hfind : find? (before ++ r :: after) line x = some r :=
    List.find?_eq_some_iff_append.mpr ⟨hr, before, after, rfl, by simpa [Holds] using hbefore⟩
  unfold categoryOf
  rw [hx, hfind]
  rfl

theorem categoryOf_none (hx : x.isComment = false) (rules : Lexicon (Test Shape))
    (hnone : ∀ q ∈ rules, ¬ Holds line x q) : categoryOf rules line x = .other := by
  have hfind : find? rules line x = none := List.find?_eq_none.mpr hnone
  unfold categoryOf
  rw [hx, hfind]
  rfl

@[simp] theorem space_holds : Holds line x space ↔ Blank x.text := by
  simp [Holds, space, Test.holds, Blank]

@[simp] theorem keyword_holds : Holds line x keyword ↔ OneOf keywords (trim x.text) := isWord_iff _ _

@[simp] theorem className_holds : Holds line x className ↔ CapitalName x.text := fits_capitalName _

@[simp] theorem functionName_holds : Holds line x functionName ↔
    (SmallName x.text ∧ ¬ OneOf booleans x.text) ∧ x.next? line = some '(' := by
  simp [Holds, functionName, Test.holds, fits_smallName, ← isWord_iff]

@[simp] theorem variableName_holds : Holds line x variableName ↔
    SmallName x.text ∧ ¬ OneOf booleans x.text := by
  simp [Holds, variableName, Test.holds, fits_smallName, ← isWord_iff]

theorem holdsAny_holds (name : String) (chars : List Char) (c : Category) :
    Holds line x ⟨name, .holdsAny chars, c⟩ ↔ ∃ d ∈ x.text, d ∈ chars := by
  simp [Holds, Test.holds]

@[simp] theorem operator_holds : Holds line x operator ↔ Operates x.text := holdsAny_holds _ _ _

@[simp] theorem bracket_holds : Holds line x bracket ↔ ∃ d ∈ x.text, d ∈ bracketChars :=
  holdsAny_holds _ _ _

@[simp] theorem punctuation_holds : Holds line x punctuation ↔ ∃ d ∈ x.text, d ∈ punctuationChars :=
  holdsAny_holds _ _ _

@[simp] theorem string_holds : Holds line x string ↔ Quoted x.text := isQuoted_iff _

@[simp] theorem number_holds : Holds line x number ↔ Digits x.text := fits_number _

@[simp] theorem boolean_holds : Holds line x boolean ↔ OneOf booleans (trim x.text) := isWord_iff _ _

@[simp] theorem comment_holds : Holds line x comment ↔ ['/', '/'] <+: x.text :=
  List.isPrefixOf_iff_prefix

@[simp] theorem decorator_holds : Holds line x decorator ↔ x.text.head? = some '@' := by
  have hat : Holds line x decorator ↔ ['@'] <+: x.text := List.isPrefixOf_iff_prefix
  rw [hat]
  cases x.text with
  | nil => simp
  | cons c r =>
    rw [List.cons_prefix_cons, List.head?_cons, Option.some.injEq]
    exact ⟨fun h => h.1.symm, fun h => ⟨h.symm, List.nil_prefix⟩⟩

/-! ## Meanings -/

def FreeName (t : List Char) : Prop := SmallName t ∧ ¬ OneOf keywords t ∧ ¬ OneOf booleans t

/-- A text that no shape claims. -/
structure Unclaimed (t : List Char) : Prop where
  blank : ¬ Blank t
  bracket : ¬ ∃ c ∈ bracketChars, t = [c]
  punctuation : ¬ ∃ c ∈ punctuationChars, t = [c]
  keyword : ¬ OneOf keywords t
  boolean : ¬ OneOf booleans t
  capital : ¬ CapitalName t
  small : ¬ SmallName t
  digits : ¬ Digits t

/-- When a text of the code has a category. `next` is the text of the lexeme after it. -/
def Means (t : List Char) (next : Option (List Char)) : Category → Prop
  | .space => Blank t
  | .bracket => ∃ c ∈ bracketChars, t = [c]
  | .punctuation => ∃ c ∈ punctuationChars, t = [c]
  | .keyword => OneOf keywords t
  | .boolean => OneOf booleans t
  | .className => CapitalName t
  | .functionName => FreeName t ∧ next = some ['(']
  | .variableName => FreeName t ∧ next ≠ some ['(']
  | .number => Digits t
  | .operator => Unclaimed t ∧ Operates t
  | .string => Unclaimed t ∧ ¬ Operates t ∧ Quoted t
  | .decorator => Unclaimed t ∧ ¬ Operates t ∧ ¬ Quoted t ∧ t.head? = some '@'
  | .other => Unclaimed t ∧ ¬ Operates t ∧ ¬ Quoted t ∧ t.head? ≠ some '@'
  | .comment | .importing | .property => False

/-- When a lexeme has a category. `next` is the lexeme after it. -/
def Reads (x : Lexeme) (next : Option Lexeme) (c : Category) : Prop :=
  (x.isComment = true ∧ c = .comment) ∨ (x.isComment = false ∧ Means x.text (next.map text) c)

theorem exists_means (t : List Char) (next : Option (List Char)) : ∃ c, Means t next c := by
  by_cases hblank : Blank t
  · exact ⟨.space, hblank⟩
  by_cases hbracket : ∃ c ∈ bracketChars, t = [c]
  · exact ⟨.bracket, hbracket⟩
  by_cases hpunctuation : ∃ c ∈ punctuationChars, t = [c]
  · exact ⟨.punctuation, hpunctuation⟩
  by_cases hkeyword : OneOf keywords t
  · exact ⟨.keyword, hkeyword⟩
  by_cases hboolean : OneOf booleans t
  · exact ⟨.boolean, hboolean⟩
  by_cases hcapital : CapitalName t
  · exact ⟨.className, hcapital⟩
  by_cases hsmall : SmallName t
  · by_cases hnext : next = some ['(']
    · exact ⟨.functionName, ⟨hsmall, hkeyword, hboolean⟩, hnext⟩
    · exact ⟨.variableName, ⟨hsmall, hkeyword, hboolean⟩, hnext⟩
  by_cases hdigits : Digits t
  · exact ⟨.number, hdigits⟩
  have hrest : Unclaimed t :=
    ⟨hblank, hbracket, hpunctuation, hkeyword, hboolean, hcapital, hsmall, hdigits⟩
  by_cases hoperates : Operates t
  · exact ⟨.operator, hrest, hoperates⟩
  by_cases hquoted : Quoted t
  · exact ⟨.string, hrest, hoperates, hquoted⟩
  by_cases hat : t.head? = some '@'
  · exact ⟨.decorator, hrest, hoperates, hquoted, hat⟩
  · exact ⟨.other, hrest, hoperates, hquoted, hat⟩

theorem trim_of_run {t : List Char} (h : Run t) (hblank : ¬ Blank t) : trim t = t := by
  have hall : ∀ c ∈ t, isBlank c = false := by
    rcases h with h | ⟨m, hm, rfl⟩ | h
    · exact absurd h.2 hblank
    · simpa using isBlank_of_mark hm
    · exact fun c hc => ((isPlain_iff c).mp (h.2 c hc)).2
  apply trim_of_trimmed
  exact ⟨fun c hc => hall c (List.mem_of_mem_head? hc), fun c hc => hall c (List.mem_of_mem_getLast? hc)⟩

/-- A mark has the same category wherever it stands. -/
theorem categoryOf_mark {chars : List Char} {c : Category}
    (hall : ∀ d ∈ chars, ∀ n, standard.categoryOf line ⟨[d], n, false⟩ = c)
    (hx : x.isComment = false) (h : ∃ d ∈ chars, x.text = [d]) : standard.categoryOf line x = c := by
  obtain ⟨t, n, b⟩ := x
  obtain ⟨d, hd, rfl⟩ := h
  obtain rfl : b = false := hx
  exact hall d hd n

theorem categoryOf_bracket (hx : x.isComment = false) (h : ∃ c ∈ bracketChars, x.text = [c]) :
    standard.categoryOf line x = .bracket := by
  apply categoryOf_mark _ hx h
  simp only [bracketChars, List.forall_mem_cons]
  exact ⟨fun _ => rfl, fun _ => rfl, fun _ => rfl, fun _ => rfl, fun _ => rfl, fun _ => rfl, by simp⟩

theorem categoryOf_punctuation (hx : x.isComment = false)
    (h : ∃ c ∈ punctuationChars, x.text = [c]) : standard.categoryOf line x = .punctuation := by
  apply categoryOf_mark _ hx h
  simp only [punctuationChars, List.forall_mem_cons]
  exact ⟨fun _ => rfl, fun _ => rfl, fun _ => rfl, by simp⟩

theorem categoryOf_keyword (hx : x.isComment = false) (hrun : Run x.text)
    (h : OneOf keywords x.text) : standard.categoryOf line x = .keyword := by
  have hblank := (smallName_of_keyword h).alnum.not_blank
  apply categoryOf_first hx [space] _ keyword
  · simpa using hblank
  · simpa [trim_of_run hrun hblank] using h

theorem categoryOf_className (hx : x.isComment = false) (hrun : Run x.text)
    (h : CapitalName x.text) : standard.categoryOf line x = .className := by
  have hblank := h.alnum.not_blank
  have hkeyword : ¬ OneOf keywords x.text := fun hk => h.not_small (smallName_of_keyword hk)
  apply categoryOf_first hx [space, keyword] _ className
  · simpa [trim_of_run hrun hblank] using ⟨hblank, hkeyword⟩
  · simpa using h

theorem categoryOf_freeName (hx : x.isComment = false) (hrun : Run x.text) (h : FreeName x.text) :
    standard.categoryOf line x =
      if x.next? line = some '(' then .functionName else .variableName := by
  obtain ⟨hsmall, hkeyword, hboolean⟩ := h
  have hblank := hsmall.alnum.not_blank
  have hcapital : ¬ CapitalName x.text := fun hc => hc.not_small hsmall
  split
  · rename_i hnext
    apply categoryOf_first hx [space, keyword, className] _ functionName
    · simpa [trim_of_run hrun hblank] using ⟨hblank, hkeyword, hcapital⟩
    · simpa using ⟨⟨hsmall, hboolean⟩, hnext⟩
  · rename_i hnext
    apply categoryOf_first hx [space, keyword, className, functionName] _ variableName
    · simpa [trim_of_run hrun hblank, hnext] using ⟨hblank, hkeyword, hcapital⟩
    · simpa using ⟨hsmall, hboolean⟩

theorem categoryOf_number (hx : x.isComment = false) (hrun : Run x.text) (h : Digits x.text) :
    standard.categoryOf line x = .number := by
  have hblank := h.alnum.not_blank
  have hkeyword : ¬ OneOf keywords x.text := fun hk => h.not_small (smallName_of_keyword hk)
  apply categoryOf_first hx
    [space, keyword, className, functionName, variableName, operator, string] _ number
  · simpa [trim_of_run hrun hblank, h.not_small] using
      ⟨hblank, hkeyword, h.not_capital, h.alnum.not_operates, h.alnum.not_quoted⟩
  · simpa using h

theorem categoryOf_boolean (hx : x.isComment = false) (hrun : Run x.text)
    (h : OneOf booleans x.text) : standard.categoryOf line x = .boolean := by
  have hsmall := smallName_of_boolean h
  have hblank := hsmall.alnum.not_blank
  have hcapital : ¬ CapitalName x.text := fun hc => hc.not_small hsmall
  have hdigits : ¬ Digits x.text := fun hd => hd.not_small hsmall
  apply categoryOf_first hx
    [space, keyword, className, functionName, variableName, operator, string, number] _ boolean
  · simpa [trim_of_run hrun hblank, h] using ⟨hblank, not_keyword_of_boolean h, hcapital,
      hsmall.alnum.not_operates, hsmall.alnum.not_quoted, hdigits⟩
  · simpa [trim_of_run hrun hblank] using h

/-! ## Texts that no shape claims -/

theorem bracketChars_subset : bracketChars ⊆ marks := by simp [bracketChars, marks]

theorem punctuationChars_subset : punctuationChars ⊆ marks := by simp [punctuationChars, marks]

theorem mem_of_mark {c : Char} (h : c ∈ marks) : c ∈ bracketChars ∨ c ∈ punctuationChars := by
  have hmarks : marks ⊆ bracketChars ++ punctuationChars := by
    simp [marks, bracketChars, punctuationChars]
  exact List.mem_append.mp (hmarks h)

theorem Unclaimed.plain {t : List Char} (h : Unclaimed t) (hrun : Run t) : PlainRun t := by
  rcases hrun with hblank | ⟨c, hc, rfl⟩ | hplain
  · exact absurd hblank.2 h.blank
  · rcases mem_of_mark hc with hb | hp
    · exact absurd ⟨c, hb, rfl⟩ h.bracket
    · exact absurd ⟨c, hp, rfl⟩ h.punctuation
  · exact hplain

theorem not_mem_of_plain {t chars : List Char} (h : PlainRun t) (hchars : chars ⊆ marks) :
    ¬ ∃ d ∈ t, d ∈ chars := by
  rintro ⟨d, hd, hmem⟩
  exact ((isPlain_iff d).mp (h.2 d hd)).1 (hchars hmem)

theorem operates_of_slashes {t : List Char} (h : ['/', '/'] <+: t) : Operates t :=
  ⟨'/', h.subset List.mem_cons_self, by decide⟩

/-- The rules that come before the one on operators. -/
def naming : Lexicon (Test Shape) := [space, keyword, className, functionName, variableName]

theorem Unclaimed.not_naming (h : Unclaimed x.text) (hrun : Run x.text) :
    ∀ q ∈ naming, ¬ Holds line x q := by
  simpa [naming, trim_of_run hrun h.blank, h.small] using ⟨h.blank, h.keyword, h.capital⟩

theorem categoryOf_operator (hx : x.isComment = false) (hrun : Run x.text) (h : Unclaimed x.text)
    (hop : Operates x.text) : standard.categoryOf line x = .operator :=
  categoryOf_first hx naming _ operator (h.not_naming hrun) (operator_holds.mpr hop)

theorem categoryOf_string (hx : x.isComment = false) (hrun : Run x.text) (h : Unclaimed x.text)
    (hop : ¬ Operates x.text) (hq : Quoted x.text) : standard.categoryOf line x = .string := by
  apply categoryOf_first hx (naming ++ [operator]) _ string
  · rw [List.forall_mem_append]
    exact ⟨h.not_naming hrun, by simpa using hop⟩
  · exact string_holds.mpr hq

/-- None of the rules from `operator` to `comment` holds of what is no operator and no string. -/
theorem not_middle_of_unclaimed (h : Unclaimed x.text) (hrun : Run x.text) (hop : ¬ Operates x.text)
    (hq : ¬ Quoted x.text) : ∀ q ∈ [operator, string, number, boolean, comment], ¬ Holds line x q := by
  have hslashes : ¬ ['/', '/'] <+: x.text := fun hs => hop (operates_of_slashes hs)
  simpa [trim_of_run hrun h.blank] using ⟨hop, hq, h.digits, h.boolean, hslashes⟩

theorem categoryOf_decorator (hx : x.isComment = false) (hrun : Run x.text) (h : Unclaimed x.text)
    (hop : ¬ Operates x.text) (hq : ¬ Quoted x.text) (hat : x.text.head? = some '@') :
    standard.categoryOf line x = .decorator := by
  apply categoryOf_first hx (naming ++ [operator, string, number, boolean, comment]) _ decorator
  · rw [List.forall_mem_append]
    exact ⟨h.not_naming hrun, not_middle_of_unclaimed h hrun hop hq⟩
  · exact decorator_holds.mpr hat

theorem categoryOf_other (hx : x.isComment = false) (hrun : Run x.text) (h : Unclaimed x.text)
    (hop : ¬ Operates x.text) (hq : ¬ Quoted x.text) (hat : x.text.head? ≠ some '@') :
    standard.categoryOf line x = .other := by
  have hplain := h.plain hrun
  have hbracket := not_mem_of_plain hplain bracketChars_subset
  have hpunctuation := not_mem_of_plain hplain punctuationChars_subset
  apply categoryOf_none hx
    (naming ++ ([operator, string, number, boolean, comment] ++ [decorator, bracket, punctuation]))
  rw [List.forall_mem_append, List.forall_mem_append]
  refine ⟨h.not_naming hrun, not_middle_of_unclaimed h hrun hop hq, ?_⟩
  simpa only [List.forall_mem_cons, decorator_holds, bracket_holds, punctuation_holds] using
    ⟨hat, hbracket, hpunctuation, by simp⟩

/-! ## Main results -/

theorem categoryOf_of_means {next : Option (List Char)} {c : Category} (hx : x.isComment = false)
    (hrun : Run x.text) (hnext : x.next? line = some '(' ↔ next = some ['('])
    (h : Means x.text next c) : standard.categoryOf line x = c := by
  cases c with
  | space => exact categoryOf_first hx [] _ space (by simp) (space_holds.mpr h)
  | bracket => exact categoryOf_bracket hx h
  | punctuation => exact categoryOf_punctuation hx h
  | keyword => exact categoryOf_keyword hx hrun h
  | boolean => exact categoryOf_boolean hx hrun h
  | className => exact categoryOf_className hx hrun h
  | functionName => rw [categoryOf_freeName hx hrun h.1, if_pos (hnext.mpr h.2)]
  | variableName => rw [categoryOf_freeName hx hrun h.1, if_neg (mt hnext.mp h.2)]
  | number => exact categoryOf_number hx hrun h
  | operator => exact categoryOf_operator hx hrun h.1 h.2
  | string => exact categoryOf_string hx hrun h.1 h.2.1 h.2.2
  | decorator => exact categoryOf_decorator hx hrun h.1 h.2.1 h.2.2.1 h.2.2.2
  | other => exact categoryOf_other hx hrun h.1 h.2.1 h.2.2.1 h.2.2.2
  | comment => exact h.elim
  | importing => exact h.elim
  | property => exact h.elim

theorem run_or_comment (h : x ∈ ofLine line) :
    (x.isComment = true ∧ ['/', '/'] <+: x.text) ∨ (x.isComment = false ∧ Run x.text) := by
  rw [ofLine_eq, List.mem_append] at h
  rcases h with h | h
  · right
    refine ⟨isComment_ofCode _ x h, ?_⟩
    apply run_of_mem_runs (proper_cut (cutComment line).1)
    rw [← map_text_ofCode]
    exact List.mem_map_of_mem h
  · left
    have hopens := (cutComment_at line).opens
    unfold ofComment at h
    split at h
    · simp at h
    · rename_i hne
      rw [List.mem_singleton] at h
      subst h
      exact ⟨rfl, hopens.resolve_left (by simpa using hne)⟩

theorem text_eq_of_head_paren (h : x ∈ ofLine line) : x.text.head? = some '(' ↔ x.text = ['('] := by
  constructor
  · intro hhead
    obtain ⟨r, hr⟩ := List.head?_eq_some_iff.mp hhead
    have hmem : '(' ∈ x.text := by simp [hr]
    rcases run_or_comment h with ⟨-, b, hb⟩ | ⟨-, hblank | ⟨m, -, hm⟩ | hplain⟩
    · rw [← hb] at hr
      simp at hr
    · exact absurd (hblank.2 _ hmem) (by decide)
    · rw [hm] at hr ⊢
      simp only [List.cons.injEq] at hr
      rw [hr.1]
    · exact absurd (hplain.2 _ hmem) (by decide)
  · intro heq
    rw [heq]
    rfl

theorem paren_next_iff (line : List Char) (i : Nat) (hi : i < (ofLine line).length) :
    (ofLine line)[i].next? line = some '(' ↔ (ofLine line)[i + 1]?.map text = some ['('] := by
  rw [next?_getElem line i hi]
  cases hy : (ofLine line)[i + 1]? with
  | none => simp
  | some y =>
    rw [Option.bind_some, Option.map_some, Option.some.injEq]
    exact text_eq_of_head_paren (List.mem_of_getElem? hy)

theorem categoryOf_eq_iff (line : List Char) (i : Nat) (hi : i < (ofLine line).length) (c : Category) :
    standard.categoryOf line (ofLine line)[i] = c ↔ Reads (ofLine line)[i] (ofLine line)[i + 1]? c := by
  have hnext := paren_next_iff line i hi
  rcases run_or_comment (List.getElem_mem hi) with ⟨hx, -⟩ | ⟨hx, hrun⟩
  · rw [categoryOf_comment standard hx]
    simp [Reads, hx, eq_comm]
  · obtain ⟨d, hd⟩ := exists_means (ofLine line)[i].text ((ofLine line)[i + 1]?.map text)
    have hcategory := categoryOf_of_means hx hrun hnext hd
    constructor
    · intro h
      rw [hcategory] at h
      exact Or.inr ⟨hx, h ▸ hd⟩
    · rintro (⟨hcomment, -⟩ | ⟨-, hmeans⟩)
      · rw [hx] at hcomment
        cases hcomment
      · exact categoryOf_of_means hx hrun hnext hmeans

theorem standard_meaning :
    (∀ (line : List Char) (i : Fin (ofLine line).length) (c : Category),
      standard.categoryOf line (ofLine line)[i] = c ↔
        Reads (ofLine line)[i] (ofLine line)[i.val + 1]? c) ∧
    ∀ (width : Nat) (text : List Char), ∀ s ∈ (Scheme.standard width).strips text,
      ∀ g ∈ s.segments, g.category ≠ .importing ∧ g.category ≠ .property := by
  refine ⟨fun line i c => categoryOf_eq_iff line i i.isLt c, ?_⟩
  intro width text s hs g hg
  rw [Scheme.segments_of_mem_strips _ hs] at hg
  obtain ⟨x, hx, rfl⟩ := Scheme.exists_lexeme_of_mem_segments _ hg
  obtain ⟨i, hi, rfl⟩ := List.getElem_of_mem hx
  have hnever : ∀ c, Reads (ofLine s.text)[i] (ofLine s.text)[i + 1]? c → c ≠ .importing ∧ c ≠ .property := by
    rintro c (⟨-, rfl⟩ | ⟨-, hmeans⟩)
    · decide
    · constructor
      · rintro rfl
        exact hmeans
      · rintro rfl
        exact hmeans
  exact hnever _ ((categoryOf_eq_iff s.text i hi _).mp rfl)

theorem standard_meaning_call :
    Reads ⟨['f'], 0, false⟩ (some ⟨['('], 1, false⟩) .functionName ∧
      (∃ s ∈ (Scheme.standard 8).strips ['f', '(', ')'], s.segments ≠ []) ∧
      ∀ s ∈ (Scheme.standard 8).strips ['f', '(', ')'], ∀ g ∈ s.segments,
        g.category ≠ .importing ∧ g.category ≠ .property :=
  ⟨(standard_meaning.1 ['f', '(', ')'] ⟨0, by decide⟩ .functionName).mp (by decide), by decide,
    standard_meaning.2 8 ['f', '(', ')']⟩

end Ribbon.Lexicon
