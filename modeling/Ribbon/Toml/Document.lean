import Ribbon.Toml.Literal

/-!
# Documents

The grammar of a document: statements line by line, and the values in them.
-/

namespace Ribbon.Toml

/-! ## Keys -/

/-- Keys have fewer parts than this, and values fewer levels. -/
def depthLimit : Nat := 80

def simpleKey : Reader String :=
  String.ofList <$> (basicString <|> literalString <|> bare)
where
  bare : Reader (List Char) := do
    let first ← Reader.one isBare
    return first :: (← Reader.span isBare)

/-- A key of one or more parts with points between them. -/
def dottedKey : Reader (List String) := do
  let part : Reader String := Reader.gap *> simpleKey <* Reader.gap
  let first ← part
  let parts ← Reader.many (Reader.word ['.'] *> part)
  if (first :: parts).length < depthLimit then return first :: parts else failure

/-! ## Values -/

/-- Items in brackets, with commas between them; one more comma may follow the last. -/
def array (item : Reader Node) : Reader Node := do
  Reader.word ['[']
  Reader.spread
  let items ← Reader.many do
    let n ← item
    Reader.spread
    match ← Reader.peek with
    | some ',' => Reader.word [','] *> Reader.spread
    | some ']' => pure ()
    | _ => failure
    return n
  Reader.word [']']
  return .array items

def assignment (value : Reader Node) : Reader Entries.Assignment := do
  let path ← dottedKey
  Reader.word ['=']
  Reader.gap
  return (path, ← value)

/-- Assignments in braces, on one line and with commas between them. -/
def inlineTable (value : Reader Node) : Reader Node := do
  Reader.word ['{']
  let first ← Reader.optional (assignment value <* Reader.gap)
  let more ← match first with
    | none => pure []
    | some _ => Reader.many (Reader.word [','] *> assignment value <* Reader.gap)
  Reader.gap
  Reader.word ['}']
  (Entries.closed? (first.toList ++ more) : Option Node)

/-- A value in which arrays and tables are nested at most so deep. -/
def value : Nat → Reader Node
  | 0 => .scalar <$> scalar
  | depth + 1 => do
    match ← Reader.peek with
    | some '[' => array (value depth)
    | some '{' => inlineTable (value depth)
    | _ => .scalar <$> scalar

/-! ## Statements -/

inductive Header
  | table (path : List String) (key : String)
  | item (path : List String) (key : String)

def emptyLine : Reader Unit :=
  Reader.gap *> optionalComment *> Reader.newline
where
  optionalComment : Reader Unit := discard (Reader.optional Reader.comment)

def emptyLines : Reader Unit :=
  discard (Reader.many emptyLine)

def statement : Reader Entries.Assignment := do
  emptyLines
  assignment (value (depthLimit - 1)) <* Reader.lineEnd

def header : Reader Header := do
  emptyLines
  Reader.gap
  if ← Reader.ifWord ['[', '['] then
    let path ← dottedKey
    Reader.word [']', ']']
    Reader.lineEnd
    return .item path.dropLast (path.getLastD "")
  else
    Reader.word ['[']
    let path ← dottedKey
    Reader.word [']']
    Reader.lineEnd
    return .table path.dropLast (path.getLastD "")

/-- A document: assignments, then headers with assignments. A byte order mark may come first. -/
def document : Reader (List Entries.Assignment × List (Header × List Entries.Assignment)) := do
  let _ ← Reader.ifWord ['\uFEFF']
  let body ← Reader.many statement
  let sections ← Reader.many do
    return (← header, ← Reader.many statement)
  emptyLines
  Reader.gap
  let _ ← Reader.optional Reader.comment
  Reader.finish
  return (body, sections)

def Entries.addSection? (es : Entries) :
    Header × List Entries.Assignment → Option Entries
  | (.table path key, body) => es.declare? path key body
  | (.item path key, body) => es.append? path key body

def Table.read? (s : List Char) : Option Table := do
  let (body, sections) ← Reader.all? document s
  let es ← Entries.assignAll body []
  let es ← sections.foldlM Entries.addSection? es
  return Table.ofEntries (← entriesValue? es)

end Ribbon.Toml
