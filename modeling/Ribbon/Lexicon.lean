import Ribbon.Category
import Ribbon.Lexeme

/-!
# Lexicons

A lexicon is a list of rules that give lexemes their categories: the first rule that holds of a
lexeme decides. Rules may make tests of any kind; the standard ones make tests with a few patterns.
Main statements: rules that are added at the end decide only what was open before, and the search
for a rule does not fail at a lexeme whose stop is a word.
-/

namespace Ribbon

open Text

/-! ## Shapes of names and numbers -/

inductive CharClass
  | capital
  | small
  | digit
  | alphanumeric
  deriving DecidableEq, Repr

def CharClass.contains : CharClass → Char → Bool
  | capital, c => c.isUpper
  | small, c => c.isLower
  | digit, c => c.isDigit
  | alphanumeric, c => c.isAlphanum

/-- A text with one character of the first class and then any number of the second. -/
structure Shape where
  first : CharClass
  rest : CharClass
  deriving DecidableEq, Repr

namespace Shape

def fits (s : Shape) : List Char → Bool
  | [] => false
  | c :: r => s.first.contains c && r.all s.rest.contains

def capitalName : Shape := ⟨.capital, .alphanumeric⟩

def smallName : Shape := ⟨.small, .alphanumeric⟩

def number : Shape := ⟨.digit, .digit⟩

end Shape

/-! ## Patterns -/

/-- Patterns that texts may fit, of whatever kind. -/
class Pattern (π : Type) where
  fits : π → List Char → Bool

instance : Pattern Shape := ⟨Shape.fits⟩

@[simp] theorem Pattern.fits_shape (s : Shape) (t : List Char) : Pattern.fits s t = s.fits t := rfl

/-! ## Tests -/

inductive Test (π : Type)
  | blank
  /-- It is one of the words, blanks around it aside. -/
  | word (words : List String)
  | shape (pattern : π)
  /-- It fits the pattern and is none of the words. -/
  | name (pattern : π) (excluded : List String)
  /-- It fits the pattern, is none of the words, and the character comes right after it. -/
  | nameBefore (pattern : π) (excluded : List String) (next : Char)
  | holdsAny (chars : List Char)
  | quoted
  | beginsWith (start : List Char)
  deriving DecidableEq, Repr

def isWord (words : List String) (s : List Char) : Bool :=
  words.any fun w => w.toList == s

def isQuoted (s : List Char) : Bool :=
  match s with
  | [] | [_] => false
  | c :: r => (c == '"' || c == '\'') && r.getLast? == some c

namespace Test

variable {π : Type} [Pattern π]

def holds (line : List Char) (x : Lexeme) : Test π → Bool
  | blank => x.text.all isBlank
  | word words => isWord words (trim x.text)
  | shape p => Pattern.fits p x.text
  | name p excluded => Pattern.fits p x.text && !isWord excluded x.text
  | nameBefore p excluded next =>
    Pattern.fits p x.text && !isWord excluded x.text && x.next? line == some next
  | holdsAny chars => x.text.any chars.contains
  | quoted => isQuoted x.text
  | beginsWith start => start.isPrefixOf x.text

/-- Making the test. The next character is looked for only if all the rest holds. -/
def check (line : List Char) (x : Lexeme) : Test π → Except Word.Overflow Bool
  | nameBefore p excluded next =>
    if Pattern.fits p x.text && !isWord excluded x.text then
      (x.lookAhead line).map (· == some next)
    else .ok false
  | t => .ok (t.holds line x)

theorem check_of_lt {x : Lexeme} (h : x.stop < Word.size) (line : List Char) (t : Test π) :
    t.check line x = .ok (t.holds line x) := by
  cases t with
  | nameBefore p excluded next =>
    rw [check, holds, Lexeme.lookAhead_of_lt h]
    cases Pattern.fits p x.text && !isWord excluded x.text <;> rfl
  | _ => rfl

end Test

/-- Tests that can be made of a lexeme on its line, of whatever kind. -/
class Tests (τ : Type) where
  holds : List Char → Lexeme → τ → Bool

instance {π : Type} [Pattern π] : Tests (Test π) := ⟨Test.holds⟩

/-! ## Rules -/

structure Rule (τ : Type) where
  name : String
  test : τ
  category : Category
  deriving DecidableEq, Repr

def Rule.holds {τ : Type} [Tests τ] (r : Rule τ) (line : List Char) (x : Lexeme) : Bool :=
  Tests.holds line x r.test

@[simp] theorem Rule.holds_test {π : Type} [Pattern π] (r : Rule (Test π)) (line : List Char)
    (x : Lexeme) : r.holds line x = r.test.holds line x := rfl

/-- Rules in the order in which they are tried. -/
abbrev Lexicon (τ : Type) := List (Rule τ)

namespace Lexicon

section Any

variable {τ : Type} [Tests τ] (rules more : Lexicon τ) (line : List Char) {x : Lexeme}

def find? (x : Lexeme) : Option (Rule τ) :=
  List.find? (fun r => r.holds line x) rules

/-- The category of a lexeme. A comment is one whatever characters it has. -/
def categoryOf (x : Lexeme) : Category :=
  if x.isComment then .comment
  else ((rules.find? line x).map (·.category)).getD .other

theorem categoryOf_comment {line : List Char} (hx : x.isComment = true) :
    rules.categoryOf line x = .comment := by
  rw [categoryOf, if_pos hx]

/-- A later rule decides only where no earlier one holds. -/
theorem find?_append (x : Lexeme) :
    find? (rules ++ more) line x = (rules.find? line x).or (more.find? line x) := by
  simp [find?]

end Any

/-! ## Searching for a rule -/

section Search

variable {π : Type} [Pattern π] (rules : Lexicon (Test π)) (line : List Char) {x : Lexeme}

/-- Making the tests one after the other, up to the first that holds. -/
def search (x : Lexeme) : Except Word.Overflow (Option (Rule (Test π))) :=
  rules.findM? fun r => r.test.check line x

/-- The category of a lexeme, if looking for it does not fail. -/
def classify (x : Lexeme) : Except Word.Overflow Category :=
  if x.isComment then .ok .comment
  else do return ((← rules.search line x).map (·.category)).getD .other

theorem search_cons (r : Rule (Test π)) (x : Lexeme) : search (r :: rules) line x =
    r.test.check line x >>= fun holds => if holds then .ok (some r) else rules.search line x := by
  rw [search, List.findM?]
  refine congrArg _ (funext fun holds => ?_)
  cases holds <;> rfl

/-- Rules that do not hold leave the search to those after them. -/
theorem search_append {before : Lexicon (Test π)}
    (h : ∀ r ∈ before, r.test.check line x = .ok false) :
    search (before ++ rules) line x = rules.search line x := by
  induction before with
  | nil => rfl
  | cons r before ih =>
    obtain ⟨hr, hbefore⟩ := List.forall_mem_cons.mp h
    rw [List.cons_append, search_cons, hr]
    exact ih hbefore

theorem search_of_check (h : ∀ r ∈ rules, r.test.check line x = .ok (r.holds line x)) :
    rules.search line x = .ok (rules.find? line x) := by
  induction rules with
  | nil => rfl
  | cons r rules ih =>
    obtain ⟨hr, hrules⟩ := List.forall_mem_cons.mp h
    rw [search_cons, hr, ih hrules]
    simp only [find?, List.find?_cons]
    cases r.holds line x <;> rfl

theorem classify_of_search (h : rules.search line x = .ok (rules.find? line x)) :
    rules.classify line x = .ok (rules.categoryOf line x) := by
  rw [classify, categoryOf, h]
  cases x.isComment <;> rfl

theorem classify_of_lt (h : x.stop < Word.size) :
    rules.classify line x = .ok (rules.categoryOf line x) :=
  classify_of_search rules line (search_of_check rules line fun r _ => r.test.check_of_lt h line)

end Search

end Lexicon

/-! ## The standard rules -/

namespace Rule

def keywords : List String :=
  ["class", "function", "const", "let", "var", "if", "else", "for", "while", "return", "import",
    "from", "async", "await", "try", "catch", "throw", "new", "this", "super"]

def booleans : List String :=
  ["true", "false"]

def operatorChars : List Char :=
  ['+', '-', '*', '/', '%', '=', '<', '>', '!', '&', '|', '^', '~']

def bracketChars : List Char :=
  ['{', '}', '(', ')', '[', ']']

def punctuationChars : List Char :=
  ['.', ',', ';']

def space : Rule (Test Shape) := ⟨"space", .blank, .space⟩
def keyword : Rule (Test Shape) := ⟨"keyword", .word keywords, .keyword⟩
def className : Rule (Test Shape) := ⟨"class", .shape .capitalName, .className⟩
def functionName : Rule (Test Shape) :=
  ⟨"function", .nameBefore .smallName booleans '(', .functionName⟩
def variableName : Rule (Test Shape) := ⟨"variable", .name .smallName booleans, .variableName⟩
def operator : Rule (Test Shape) := ⟨"operator", .holdsAny operatorChars, .operator⟩
def string : Rule (Test Shape) := ⟨"string", .quoted, .string⟩
def number : Rule (Test Shape) := ⟨"number", .shape .number, .number⟩
def boolean : Rule (Test Shape) := ⟨"boolean", .word booleans, .boolean⟩
def comment : Rule (Test Shape) := ⟨"comment", .beginsWith ['/', '/'], .comment⟩
def decorator : Rule (Test Shape) := ⟨"decorator", .beginsWith ['@'], .decorator⟩
def bracket : Rule (Test Shape) := ⟨"bracket", .holdsAny bracketChars, .bracket⟩
def punctuation : Rule (Test Shape) := ⟨"punctuation", .holdsAny punctuationChars, .punctuation⟩

end Rule

def Lexicon.standard : Lexicon (Test Shape) :=
  [.space, .keyword, .className, .functionName, .variableName, .operator, .string, .number,
    .boolean, .comment, .decorator, .bracket, .punctuation]

end Ribbon
