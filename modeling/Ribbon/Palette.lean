import Ribbon.Theme

/-!
# Palettes

A palette gives colors to some of the categories. Main statements: setting a color changes that
one category, and a palette that starts from a theme never lacks a color.
-/

namespace Ribbon

structure Palette where
  get : Category → Option Color

namespace Palette

def empty : Palette :=
  ⟨fun _ => none⟩

def ofTheme (t : Theme) : Palette :=
  ⟨fun c => some (t.color c)⟩

def set (p : Palette) (category : Category) (color : Color) : Palette :=
  ⟨fun c => if c = category then some color else p.get c⟩

def colorOf (p : Palette) (category : Category) : Color :=
  (p.get category).getD Color.fallback

def missing (p : Palette) : List Category :=
  Category.all.filter fun c => (p.get c).isNone

def same (p q : Palette) : Bool :=
  Category.all.all fun c => p.get c == q.get c

def legend (p : Palette) : List (String × Color) :=
  Category.legend.map fun c => (c.label, p.colorOf c)

@[ext] theorem ext {p q : Palette} (h : ∀ c, p.get c = q.get c) : p = q := by
  cases p; cases q; congr; exact funext h

@[simp] theorem get_set (p : Palette) (a c : Category) (color : Color) :
    (p.set a color).get c = if c = a then some color else p.get c := rfl

@[simp] theorem get_ofTheme (t : Theme) (c : Category) : (ofTheme t).get c = some (t.color c) := rfl

theorem get_foldl_set (f : Category → Color) (cs : List Category) (p : Palette) (c : Category) :
    (cs.foldl (fun p c => p.set c (f c)) p).get c = if c ∈ cs then some (f c) else p.get c := by
  induction cs generalizing p with
  | nil => simp
  | cons a cs ih =>
    rw [List.foldl_cons, ih, get_set]
    by_cases ha : c = a
    · simp [ha]
    · simp [ha]

/-- Setting the color of every category in turn gives the palette of a theme. -/
theorem ofTheme_eq_foldl (t : Theme) :
    ofTheme t = Category.all.foldl (fun p c => p.set c (t.color c)) empty := by
  ext1 c
  rw [get_foldl_set, if_pos (Category.mem_all c), get_ofTheme]

theorem same_iff {p q : Palette} : p.same q = true ↔ p = q := by
  constructor
  · intro h
    ext1 c
    simpa using List.all_eq_true.1 h c (Category.mem_all c)
  · rintro rfl
    simp [same]

theorem missing_eq_nil_iff {p : Palette} : p.missing = [] ↔ ∀ c, (p.get c).isSome := by
  simp [missing, Category.mem_all, Option.isSome_iff_ne_none]

theorem missing_ofTheme (t : Theme) : (ofTheme t).missing = [] :=
  missing_eq_nil_iff.mpr fun _ => rfl

/-! ## Overrides -/

/-- One color read from a name and a color text. The name is looked at first. -/
def readOverride (name color : String) : Except Fault (Category × Color) :=
  match Category.ofName? name with
  | none => .error (.category name)
  | some c => (Color.read color).map fun v => (c, v)

/-- Sets colors in order, up to the first override that cannot be read: the palette that results,
and what was wrong with that override. -/
def override (p : Palette) : List (String × String) → Palette × Option Fault
  | [] => (p, none)
  | (name, color) :: rest =>
    match readOverride name color with
    | .error e => (p, some e)
    | .ok (c, v) => (p.set c v).override rest

def override? (p : Palette) (pairs : List (String × String)) : Except Fault Palette :=
  match p.override pairs with
  | (q, none) => .ok q
  | (_, some e) => .error e

/-- Overriding never takes a color away. -/
theorem isSome_get_override {p : Palette} {c : Category} (h : (p.get c).isSome)
    (pairs : List (String × String)) : ((p.override pairs).1.get c).isSome := by
  induction pairs generalizing p with
  | nil => exact h
  | cons pair rest ih =>
    simp only [override]
    split
    · exact h
    · apply ih
      simp only [get_set]
      split <;> simp [h]

theorem missing_of_override? {p q : Palette} {pairs : List (String × String)}
    (hp : p.missing = []) (h : p.override? pairs = .ok q) : q.missing = [] := by
  have hkept := fun c => isSome_get_override (missing_eq_nil_iff.mp hp c) pairs
  unfold override? at h
  split at h
  · rename_i heq
    cases h
    rw [heq] at hkept
    exact missing_eq_nil_iff.mpr hkept
  · cases h

end Palette

end Ribbon
