/-!
# Categories

The closed set of meanings that a piece of source text can have, their names and their order.
Main statement: a name stands for one category.
-/

namespace Ribbon

/-- The meaning of a piece of source text, in the order of the legend. -/
inductive Category
  | keyword
  | className
  | functionName
  | variableName
  | operator
  | string
  | number
  | boolean
  | comment
  | importing
  | decorator
  | punctuation
  | bracket
  | property
  | space
  | other
  deriving DecidableEq, Repr

namespace Category

def all : List Category :=
  [keyword, className, functionName, variableName, operator, string, number, boolean, comment,
    importing, decorator, punctuation, bracket, property, space, other]

theorem mem_all (c : Category) : c ∈ all := by
  cases c <;> decide

/-- The name that settings and listings use. -/
def name : Category → String
  | keyword => "keyword"
  | className => "class"
  | functionName => "function"
  | variableName => "variable"
  | operator => "operator"
  | string => "string"
  | number => "number"
  | boolean => "boolean"
  | comment => "comment"
  | importing => "import"
  | decorator => "decorator"
  | punctuation => "punctuation"
  | bracket => "bracket"
  | property => "property"
  | space => "space"
  | other => "default"

/-- The category of a name. Names are compared letter by letter, case included. -/
def ofName? (s : String) : Option Category :=
  all.find? fun c => c.name == s

theorem ofName?_name (c : Category) : ofName? c.name = some c := by
  cases c <;> decide

theorem name_of_ofName? {s : String} {c : Category} (h : ofName? s = some c) : c.name = s := by
  simpa using List.find?_some h

theorem ofName?_eq_some_iff {s : String} {c : Category} : ofName? s = some c ↔ c.name = s :=
  ⟨name_of_ofName?, fun h => h ▸ ofName?_name c⟩

theorem name_inj {a b : Category} : a.name = b.name ↔ a = b :=
  ⟨fun h => by simpa [h, ofName?_name] using (ofName?_name a).symm, fun h => h ▸ rfl⟩

def label (c : Category) : String :=
  c.name.capitalize

/-- White space and unclaimed text have no color worth explaining. -/
def inLegend : Category → Bool
  | space | other => false
  | _ => true

def legend : List Category :=
  all.filter inLegend

def rank (c : Category) : Nat :=
  all.idxOf c

def before (c : Category) : List Category :=
  all.takeWhile (· != c)

theorem mem_before_iff {a b : Category} : a ∈ before b ↔ a.rank < b.rank := by
  cases a <;> cases b <;> decide

end Category

end Ribbon
