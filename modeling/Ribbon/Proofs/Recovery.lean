import Ribbon.Listing
import Ribbon.Proofs.Quotation
import Ribbon.Proofs.Timeline

/-!
# Listings are read back

A listing is read row by row, and the rows are put together to strips again. Nothing is lost: the
listing of a text tells all of its lines that are not empty, and their numbers.
-/

namespace Ribbon.Text

/-! ## Words and numbers -/

/-- The characters before the first space, and what comes after the spaces there. -/
def nextWord (s : List Char) : List Char × List Char :=
  (s.takeWhile (· != ' '), (s.dropWhile (· != ' ')).dropWhile (· == ' '))

theorem nextWord_append {word rest : List Char} (n : Nat) (hword : ' ' ∉ word)
    (hrest : rest.head? ≠ some ' ') :
    nextWord (word ++ (List.replicate (n + 1) ' ' ++ rest)) = (word, rest) := by
  have hsolid : ∀ c ∈ word, (c != ' ') = true := by
    intro c hc
    exact bne_iff_ne.mpr fun h => hword (h ▸ hc)
  have hspaces : ∀ c ∈ List.replicate (n + 1) ' ', (c == ' ') = true := by
    intro c hc
    rw [List.eq_of_mem_replicate hc]
    rfl
  have hstop : rest.dropWhile (· == ' ') = rest := by
    cases rest with
    | nil => rfl
    | cons c r => exact List.dropWhile_cons_of_neg (by simpa using hrest)
  rw [nextWord, List.takeWhile_append_of_pos hsolid, List.dropWhile_append_of_pos hsolid]
  have htake : (List.replicate (n + 1) ' ' ++ rest).takeWhile (· != ' ') = [] := rfl
  have hdrop : (List.replicate (n + 1) ' ' ++ rest).dropWhile (· != ' ') =
      List.replicate (n + 1) ' ' ++ rest := rfl
  rw [htake, hdrop, List.dropWhile_append_of_pos hspaces, hstop, List.append_nil]

theorem digitsValue?_numeral (n : Nat) : digitsValue? (numeral n) = some n := by
  have hdigits : (numeral n).all Char.isDigit = true :=
    List.all_eq_true.mpr fun c hc => isDigit_of_mem_numeral hc
  have hfull : (numeral n).isEmpty = false := by simp [numeral_ne_nil]
  rw [digitsValue?, hfull, hdigits]
  exact congrArg some Nat.ofDigitChars_ten_toDigits

theorem notMem_numeral {c : Char} (h : c.isDigit = false) (n : Nat) : c ∉ numeral n := by
  intro hc
  rw [isDigit_of_mem_numeral hc] at h
  cases h

theorem head?_numeral_append {c : Char} (h : c.isDigit = false) (n : Nat) (rest : List Char) :
    (numeral n ++ rest).head? ≠ some c := by
  rw [List.head?_append_of_ne_nil _ (numeral_ne_nil n)]
  exact fun hc => notMem_numeral h n (List.mem_of_head? hc)

end Ribbon.Text

namespace Ribbon

open Text

/-! ## Rows -/

inductive Row
  | number (n : Nat)
  | segment (g : Segment)
  deriving DecidableEq, Repr

def Strip.listed (s : Strip) : List Row :=
  .number s.number :: s.segments.map .segment

namespace Row

def text : Row → List Char
  | number n => Strip.heading n
  | segment g => g.row

def number? (row : List Char) : Option Nat :=
  if row.getLast? = some ':' then digitsValue? row.dropLast else none

def segment? (row : List Char) : Option Segment :=
  let name := nextWord (nextWord row).2
  let width := nextWord name.2
  do return ⟨← unquote? width.2, ← Category.ofName? (String.ofList name.1), ← digitsValue? width.1⟩

/-- Only the rows of segments are indented. -/
def read? (row : List Char) : Option Row :=
  if row.head? = some ' ' then (segment? row).map .segment else (number? row).map .number

theorem number?_text (n : Nat) : number? (number n).text = some n := by
  rw [number?, text, Strip.heading, List.getLast?_concat, if_pos rfl, List.dropLast_concat,
    digitsValue?_numeral]

theorem name_ne_nil (c : Category) : c.name.toList ≠ [] := by
  cases c <;> decide

theorem name_fits (c : Category) : ' ' ∉ c.name.toList ∧ c.name.toList.length < 12 := by
  cases c <;> decide

/-- A name leaves at least one space in its column. -/
theorem text_segment (g : Segment) : ∃ n, (segment g).text =
    List.replicate (1 + 1) ' ' ++ (g.category.name.toList ++ (List.replicate (n + 1) ' ' ++
      (numeral g.width ++ (List.replicate (1 + 1) ' ' ++ quoted g.text)))) := by
  have hroom := (name_fits g.category).2
  refine ⟨11 - g.category.name.toList.length + (5 - (numeral g.width).length), ?_⟩
  have hspaces : 11 - g.category.name.toList.length + (5 - (numeral g.width).length) + 1 =
      12 - g.category.name.toList.length + (5 - (numeral g.width).length) := by omega
  rw [hspaces, List.replicate_add (12 - _) (5 - _), text, Segment.row, padRight, padLeft]
  simp only [List.append_assoc]
  rfl

theorem segment?_text (g : Segment) : segment? (segment g).text = some g := by
  obtain ⟨n, htext⟩ := text_segment g
  have hname : (g.category.name.toList ++ (List.replicate (n + 1) ' ' ++ (numeral g.width ++
      (List.replicate (1 + 1) ' ' ++ quoted g.text)))).head? ≠ some ' ' := by
    rw [List.head?_append_of_ne_nil _ (name_ne_nil g.category)]
    exact fun h => (name_fits g.category).1 (List.mem_of_head? h)
  have hquoted : (quoted g.text).head? ≠ some ' ' := by simp [quoted]
  simp only [segment?]
  rw [htext, ← List.nil_append (List.replicate (1 + 1) ' ' ++ _),
    nextWord_append 1 List.not_mem_nil hname,
    nextWord_append n (name_fits g.category).1 (head?_numeral_append rfl g.width _),
    nextWord_append 1 (notMem_numeral rfl _) hquoted, unquote?_quoted, String.ofList_toList,
    Category.ofName?_name, digitsValue?_numeral]
  rfl

theorem head?_number (n : Nat) : (number n).text.head? ≠ some ' ' :=
  head?_numeral_append rfl n [':']

theorem read?_text (r : Row) : read? r.text = some r := by
  cases r with
  | number n => rw [read?, if_neg (head?_number n), number?_text, Option.map_some]
  | segment g =>
    have hindent : (segment g).text.head? = some ' ' := rfl
    rw [read?, if_pos hindent, segment?_text, Option.map_some]

theorem newline_notMem_text (r : Row) : '\n' ∉ r.text := by
  cases r with
  | number n => simp [text, Strip.heading, notMem_numeral]
  | segment g =>
    have hname : '\n' ∉ g.category.name.toList := by
      cases g.category <;> decide
    simp [text, Segment.row, padRight, padLeft, hname, notMem_numeral, newline_notMem_quoted]

end Row

/-! ## Listings -/

/-- The segments before the first number, and the strips from there on. -/
def assemble : List Row → List Segment × List Strip
  | [] => ([], [])
  | .segment g :: rest => (g :: (assemble rest).1, (assemble rest).2)
  | .number n :: rest => ([], ⟨n, (assemble rest).1⟩ :: (assemble rest).2)

/-- Each row ends in a line feed, so nothing comes after the last one. -/
def readListing? (s : List Char) : Option (List Strip) := do
  let rows ← (s.splitOn '\n').dropLast.mapM Row.read?
  let (unnumbered, strips) := assemble rows
  if unnumbered.isEmpty then return strips else none

example : readListing? (listing [⟨7, []⟩, ⟨0, [⟨['"'], .space, 123456⟩]⟩]) =
    some [⟨7, []⟩, ⟨0, [⟨['"'], .space, 123456⟩]⟩] := by
  decide +kernel

theorem assemble_segments (gs : List Segment) (rows : List Row) :
    assemble (gs.map .segment ++ rows) = (gs ++ (assemble rows).1, (assemble rows).2) := by
  induction gs with
  | nil => rfl
  | cons g gs ih => rw [List.map_cons, List.cons_append, assemble, ih]; rfl

theorem assemble_listed (strips : List Strip) :
    assemble (strips.flatMap Strip.listed) = ([], strips) := by
  induction strips with
  | nil => rfl
  | cons s strips ih =>
    rw [List.flatMap_cons, Strip.listed, List.cons_append, assemble, assemble_segments, ih]
    simp

theorem listing_eq (strips : List Strip) :
    listing strips = (strips.flatMap Strip.listed).flatMap fun r => r.text ++ ['\n'] := by
  have hstrip (s : Strip) : s.listed.flatMap (fun r => r.text ++ ['\n']) = s.listing := by
    rw [Strip.listed, List.flatMap_cons, List.flatMap_map]
    rfl
  rw [listing, List.flatMap_assoc, funext hstrip]

theorem splitOn_rows (rows : List Row) :
    (rows.flatMap fun r => r.text ++ ['\n']).splitOn '\n' = rows.map Row.text ++ [[]] := by
  induction rows with
  | nil => rfl
  | cons r rows ih =>
    rw [List.flatMap_cons, List.append_assoc, List.singleton_append,
      List.splitOn_append_cons_self_of_not_mem (Row.newline_notMem_text r), ih]
    rfl

theorem readListing?_listing (strips : List Strip) :
    readListing? (listing strips) = some strips := by
  have hrows : ((strips.flatMap Strip.listed).map Row.text).mapM Row.read? =
      some (strips.flatMap Strip.listed) := by
    have hread : Row.read? ∘ Row.text = fun r => pure (id r) := funext Row.read?_text
    rw [List.mapM_map, hread, List.mapM_pure, List.map_id]
    rfl
  rw [listing_eq, readListing?, splitOn_rows, List.dropLast_concat, hrows]
  simp [assemble_listed]

/-- A listing is read back, so different strips have different listings. Two texts cut by one scheme
have the same listing just when their lines that are not empty are the same, at the same places. -/
theorem listing_lossless :
    (∀ strips, readListing? (listing strips) = some strips) ∧
      (∀ strips others, listing strips = listing others ↔ strips = others) ∧
      ∀ {τ : Type} [Tests τ] (k : Scheme τ) (a b : List Char),
        listing (k.strips a) = listing (k.strips b) ↔
          Scheme.filled (Scheme.pieces a) = Scheme.filled (Scheme.pieces b) := by
  have hinj (strips others : List Strip) : listing strips = listing others ↔ strips = others := by
    constructor
    · intro h
      have hread := readListing?_listing strips
      rw [h, readListing?_listing] at hread
      exact (Option.some.inj hread).symm
    · rintro rfl
      rfl
  refine ⟨readListing?_listing, hinj, fun k a b => ?_⟩
  rw [hinj, ← Scheme.lines_eq_pieces, ← Scheme.lines_eq_pieces]
  constructor
  · intro h
    rw [← Scheme.map_strips k a, ← Scheme.map_strips k b, h]
  · intro h
    rw [Scheme.strips_eq, Scheme.strips_eq, h]

end Ribbon
