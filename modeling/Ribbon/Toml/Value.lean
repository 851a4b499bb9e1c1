import Ribbon.Decimal.Binary64
import Ribbon.Toml.Moment

/-!
# Values

What a TOML document holds. A table has each key once, in the order of the keys. Main statement:
putting an entry into a table keeps that order.
-/

namespace Ribbon.Toml

open Decimal

inductive Scalar
  | string (s : String)
  | integer (n : Int)
  | float (x : Binary64)
  | boolean (b : Bool)
  | moment (m : Moment)
  deriving DecidableEq, Repr

inductive Value
  | scalar (s : Scalar)
  | array (items : List Value)
  | table (entries : List (String × Value))
  deriving Repr

abbrev Table := List (String × Value)

namespace Table

/-- Each key once, and before every greater one. -/
def Ordered (t : Table) : Prop :=
  t.Pairwise fun a b => a.1 < b.1

def get? (t : Table) (key : String) : Option Value :=
  t.lookup key

/-- The table with a value for the key, in place of the one that it had. -/
def insert (key : String) (v : Value) : Table → Table
  | [] => [(key, v)]
  | (k, w) :: rest =>
    if key < k then (key, v) :: (k, w) :: rest
    else if key = k then (key, v) :: rest
    else (k, w) :: insert key v rest

def ofEntries (entries : List (String × Value)) : Table :=
  entries.foldl (fun t e => insert e.1 e.2 t) []

theorem get?_cons (k : String) (w : Value) (t : Table) (key : String) :
    get? ((k, w) :: t) key = if key = k then some w else t.get? key := by
  rw [get?, List.lookup_cons]
  by_cases h : key = k
  · simp [h]
  · rw [beq_false_of_ne h, if_neg h, get?]

theorem get?_insert (key : String) (v : Value) (t : Table) (k : String) :
    (t.insert key v).get? k = if k = key then some v else t.get? k := by
  induction t with
  | nil => rw [insert, get?_cons]
  | cons head rest ih =>
    obtain ⟨j, w⟩ := head
    rw [insert]
    split
    · rw [get?_cons]
    · split
      · rename_i heq
        rw [get?_cons, get?_cons, heq]
        split <;> rfl
      · rename_i hne
        rw [get?_cons, get?_cons, ih]
        grind

theorem mem_insert {key : String} {v : Value} {t : Table} {e : String × Value}
    (h : e ∈ insert key v t) : e = (key, v) ∨ e ∈ t := by
  induction t with
  | nil => simpa [insert] using h
  | cons head rest ih =>
    obtain ⟨k, w⟩ := head
    simp only [insert] at h
    split at h
    · simpa using h
    · split at h
      · rcases List.mem_cons.1 h with h | h <;> simp [h]
      · rcases List.mem_cons.1 h with h | h
        · simp [h]
        · rcases ih h with h | h <;> simp [h]

theorem Ordered.insert {t : Table} (h : t.Ordered) (key : String) (v : Value) :
    (t.insert key v).Ordered := by
  induction t with
  | nil => simp [Ordered, Table.insert]
  | cons head rest ih =>
    obtain ⟨k, w⟩ := head
    have h' := List.pairwise_cons.1 h
    simp only [Table.insert]
    split
    · rename_i lt
      refine List.pairwise_cons.2 ⟨fun e he => ?_, h⟩
      rcases List.mem_cons.1 he with rfl | he
      · exact lt
      · exact String.lt_trans lt (h'.1 e he)
    · split
      · rename_i eq
        subst eq
        exact List.pairwise_cons.2 ⟨fun e he => h'.1 e he, h'.2⟩
      · rename_i not_lt ne
        refine List.pairwise_cons.2 ⟨fun e he => ?_, ih h'.2⟩
        rcases mem_insert he with rfl | he
        · exact Std.lt_of_le_of_ne (Std.not_lt.1 not_lt) (Ne.symm ne)
        · exact h'.1 e he

theorem ordered_ofEntries (entries : List (String × Value)) : (ofEntries entries).Ordered := by
  suffices h : ∀ (es : List (String × Value)) (t : Table), t.Ordered →
      (es.foldl (fun t e => insert e.1 e.2 t) t).Ordered from
    h entries [] List.Pairwise.nil
  intro es
  induction es with
  | nil => exact fun _ h => h
  | cons e es ih => exact fun t h => ih _ (h.insert e.1 e.2)

end Table

namespace Value

def string? : Value → Option String
  | scalar (.string s) => some s
  | _ => none

def integer? : Value → Option Int
  | scalar (.integer n) => some n
  | _ => none

def table? : Value → Option Table
  | table t => some t
  | _ => none

end Value

end Ribbon.Toml
