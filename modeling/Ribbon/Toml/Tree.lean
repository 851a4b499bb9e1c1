import Ribbon.Toml.Printer

/-!
# Trees

A document is a tree that grows statement by statement. How a table came to be decides whether
a later statement may add to it: a table is declared by one header only, and dotted keys add only to
tables that no header declared.
-/

namespace Ribbon.Toml

inductive Standing
  /-- By a header of its own. -/
  | declared
  /-- On the way to the table of a header. -/
  | implied
  /-- By a dotted key. -/
  | dotted
  /-- As a value in braces. -/
  | closed
  deriving DecidableEq, Repr

inductive Node
  | scalar (s : Scalar)
  | array (items : List Node)
  | table (standing : Standing) (entries : List (String × Node))
  /-- An array whose items are tables with headers of their own. -/
  | tables (items : List Node)

abbrev Entries := List (String × Node)

namespace Entries

/-- Changes the value of a key, or adds it at the end. -/
def update? (key : String) (change : Option Node → Option Node) : Entries → Option Entries
  | [] => (change none).map fun n => [(key, n)]
  | (k, n) :: rest =>
    if k = key then (change (some n)).map fun m => (k, m) :: rest
    else (update? key change rest).map ((k, n) :: ·)

def onLast? (change : Node → Option Node) : List Node → Option (List Node)
  | [] => none
  | [n] => (change n).map fun m => [m]
  | n :: rest => (onLast? change rest).map (n :: ·)

/-! ## Assignments -/

/-- Whether a dotted key may pass through a table, or end in it. -/
def admits (ends : Bool) : Standing → Bool
  | .dotted => true
  | .implied => !ends
  | .declared | .closed => false

/-- Sets the value of a dotted key that has none. -/
def assign (value : Node) : List String → Entries → Option Entries
  | [], _ => none
  | [key], es => update? key (fun old => if old.isNone then some value else none) es
  | key :: next :: path, es =>
    let deeper := assign value (next :: path)
    update? key (fun
      | none => (deeper []).map (.table .dotted)
      | some (.table standing inner) =>
        if admits path.isEmpty standing then (deeper inner).map (.table standing) else none
      | some (.tables items) =>
        if path.isEmpty then none
        else (onLast? (fun
          | .table standing inner => (deeper inner).map (.table standing)
          | _ => none) items).map .tables
      | some _ => none) es

abbrev Assignment := List String × Node

def assignAll (assignments : List Assignment) (es : Entries) : Option Entries :=
  assignments.foldlM (fun es a => assign a.2 a.1 es) es

def closed? (assignments : List Assignment) : Option Node :=
  (assignAll assignments []).map (.table .closed)

/-! ## Headers -/

/-- Changes the entries of the table at a path, which is made if it is not there. In an array of
tables the way goes on in the last one. -/
def within? (change : Entries → Option Entries) : List String → Entries → Option Entries
  | [], es => change es
  | key :: path, es =>
    let deeper := within? change path
    update? key (fun
      | none => (deeper []).map (.table .implied)
      | some (.table standing inner) =>
        if standing = .closed then none else (deeper inner).map (.table standing)
      | some (.tables items) =>
        (onLast? (fun
          | .table standing inner => (deeper inner).map (.table standing)
          | _ => none) items).map .tables
      | some _ => none) es

/-- The table of a header, with its assignments. It may have been implied before. -/
def declare? (path : List String) (key : String) (body : List Assignment) (es : Entries) :
    Option Entries :=
  within? (fun inner =>
    match inner.lookup key with
    | none => do return inner ++ [(key, .table .declared (← assignAll body []))]
    | some (.table .implied kept) => do
      return inner.filter (·.1 != key) ++ [(key, .table .declared (← assignAll body kept))]
    | some _ => none) path es

/-- One more table of an array of tables, with its assignments. -/
def append? (path : List String) (key : String) (body : List Assignment) (es : Entries) :
    Option Entries :=
  within? (update? key fun
    | none => do return .tables [.table .declared (← assignAll body [])]
    | some (.tables items) => do
      return .tables (items ++ [.table .declared (← assignAll body [])])
    | some _ => none) path es

end Entries

/-! ## Values of a tree -/

/-- The date or time that a table stands for: its first key is the reserved one. -/
def reserved? : Entries → Option Node
  | (key, n) :: _ => if key = momentKey then some n else none
  | [] => none

mutual

/-- The value of a node. The reserved key takes only the text of a date or time. -/
def Node.value? : Node → Option Value
  | .scalar s => some (.scalar s)
  | .array items | .tables items => (itemsValue? items).map .array
  | .table _ entries =>
    match reserved? entries with
    | some (.scalar (.string s)) => (Moment.ofText? s.toList).map fun m => .scalar (.moment m)
    | some _ => none
    | none => (entriesValue? entries).map fun es => .table (Table.ofEntries es)

def itemsValue? : List Node → Option (List Value)
  | [] => some []
  | n :: rest => do return (← n.value?) :: (← itemsValue? rest)

def entriesValue? : List (String × Node) → Option (List (String × Value))
  | [] => some []
  | (key, n) :: rest => do return (key, ← n.value?) :: (← entriesValue? rest)

end

end Ribbon.Toml
