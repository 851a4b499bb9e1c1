import Mathlib
import Ribbon.Proofs.Keywise
import Ribbon.Proofs.Order

/-!
# Overrides of a palette

An override is accepted if it names a category and gives a color. Overrides are taken in order up to
the first one that is not accepted. A palette that starts from a theme has a color for every
category, whatever is done to it.
-/

namespace Ribbon

open Text

theorem Category.ofName?_eq_none_iff {s : String} :
    ofName? s = none ↔ ∀ c : Category, c.name ≠ s := by
  rw [← not_iff_not, ← ne_eq, Option.ne_none_iff_exists']
  simp only [ofName?_eq_some_iff, not_forall, not_not]

namespace Palette

/-! ## One override -/

/-- An override gives a color to a category. -/
def Gives (o : String × String) (c : Category) (v : Color) : Prop :=
  c.name = o.1 ∧ Color.read o.2 = .ok v

def Accepted (o : String × String) : Prop := ∃ c v, Gives o c v

/-- What an override is refused for. The name comes before the color. -/
inductive Refused (o : String × String) : Fault → Prop
  | name (h : ∀ c : Category, c.name ≠ o.1) : Refused o (.category o.1)
  | color (h : ∃ c : Category, c.name = o.1) (hcolor : ∀ v, Color.read o.2 ≠ .ok v) :
    Refused o (.color (String.ofList (trim o.2.toList)))

theorem readOverride_eq_ok {o : String × String} {c : Category} {v : Color} :
    readOverride o.1 o.2 = .ok (c, v) ↔ Gives o c v := by
  unfold readOverride Gives
  rw [← Category.ofName?_eq_some_iff]
  cases Category.ofName? o.1 with
  | none => simp
  | some d => cases Color.read o.2 <;> simp [Except.map]

theorem readOverride_eq_error {o : String × String} {e : Fault} :
    readOverride o.1 o.2 = .error e ↔ Refused o e := by
  unfold readOverride
  cases hname : Category.ofName? o.1 with
  | none =>
    have hnone := Category.ofName?_eq_none_iff.mp hname
    constructor
    · rintro h
      cases h
      exact .name hnone
    · rintro (_ | ⟨⟨c, hc⟩, -⟩)
      · rfl
      · exact absurd hc (hnone c)
  | some d =>
    have hd := Category.name_of_ofName? hname
    cases hcolor : Color.read o.2 with
    | ok v =>
      refine iff_of_false nofun ?_
      rintro (h | ⟨-, hno⟩)
      · exact h d hd
      · exact hno v hcolor
    | error f =>
      obtain ⟨hno, rfl⟩ := Color.read_eq_error.mp hcolor
      constructor
      · intro h
        cases h
        exact .color ⟨d, hd⟩ hno
      · rintro (h | _)
        · exact absurd hd (h d)
        · rfl

theorem accepted_or_refused (o : String × String) : Accepted o ∨ ∃ e, Refused o e := by
  cases h : readOverride o.1 o.2 with
  | ok r => exact .inl ⟨r.1, r.2, readOverride_eq_ok.mp h⟩
  | error e => exact .inr ⟨e, readOverride_eq_error.mp h⟩

theorem Refused.not_accepted {o : String × String} {e : Fault} (h : Refused o e) : ¬ Accepted o := by
  rintro ⟨c, v, hgives⟩
  have hok := readOverride_eq_ok.mpr hgives
  rw [readOverride_eq_error.mpr h] at hok
  cases hok

/-! ## Overrides in order -/

variable {p q : Palette} {o : String × String} {pairs before after : List (String × String)}
  {c : Category} {v : Color} {e : Fault}

theorem override_cons_of_gives (h : Gives o c v) (rest : List (String × String)) :
    p.override (o :: rest) = (p.set c v).override rest := by
  rw [override, readOverride_eq_ok.mpr h]

theorem override_cons_of_refused (h : Refused o e) (rest : List (String × String)) :
    p.override (o :: rest) = (p, some e) := by
  rw [override, readOverride_eq_error.mpr h]

theorem override_eq_none_iff : (p.override pairs).2 = none ↔ ∀ o ∈ pairs, Accepted o := by
  induction pairs generalizing p with
  | nil => simp [override]
  | cons o rest ih =>
    rw [List.forall_mem_cons]
    rcases accepted_or_refused o with ⟨c, v, h⟩ | ⟨e, h⟩
    · rw [override_cons_of_gives h, ih]
      exact (and_iff_right ⟨c, v, h⟩).symm
    · rw [override_cons_of_refused h]
      exact iff_of_false (Option.some_ne_none e) fun hall => h.not_accepted hall.1

theorem override_eq_some_iff : (p.override pairs).2 = some e ↔
    ∃ before o after, pairs = before ++ o :: after ∧ (∀ q ∈ before, Accepted q) ∧ Refused o e := by
  induction pairs generalizing p with
  | nil => simp [override]
  | cons o rest ih =>
    rw [exists_first_cons]
    rcases accepted_or_refused o with haccepted | ⟨d, hrefused⟩
    · obtain ⟨c, v, h⟩ := haccepted
      have hno : ¬ Refused o e := fun hr => hr.not_accepted ⟨c, v, h⟩
      rw [override_cons_of_gives h, ih, or_iff_right hno, and_iff_right ⟨c, v, h⟩]
    · have hno : ¬ Accepted o := hrefused.not_accepted
      rw [override_cons_of_refused hrefused, or_iff_left fun h => hno h.1, Option.some.injEq,
        ← readOverride_eq_error, readOverride_eq_error.mpr hrefused, Except.error.injEq]

theorem get_override_of_unnamed (h : ∀ o ∈ pairs, c.name ≠ o.1) :
    (p.override pairs).1.get c = p.get c := by
  induction pairs generalizing p with
  | nil => rfl
  | cons o rest ih =>
    obtain ⟨ho, hrest⟩ := List.forall_mem_cons.mp h
    rcases accepted_or_refused o with ⟨d, v, hgives⟩ | ⟨e, hrefused⟩
    · have hcd : c ≠ d := by
        rintro rfl
        exact ho hgives.1
      rw [override_cons_of_gives hgives, ih hrest, get_set, if_neg hcd]
    · rw [override_cons_of_refused hrefused]

/-- The last override of a category counts. -/
theorem get_override_append (hbefore : ∀ o ∈ before, Accepted o) (h : Gives o c v)
    (hafter : ∀ o ∈ after, c.name ≠ o.1) :
    (p.override (before ++ o :: after)).1.get c = some v := by
  induction before generalizing p with
  | nil =>
    rw [List.nil_append, override_cons_of_gives h, get_override_of_unnamed hafter, get_set, if_pos rfl]
  | cons b before ih =>
    obtain ⟨⟨d, w, hb⟩, hbefore⟩ := List.forall_mem_cons.mp hbefore
    rw [List.cons_append, override_cons_of_gives hb, ih hbefore]

theorem get_override_of_last {color : String}
    (hall : ∀ o ∈ before ++ (c.name, color) :: after, Accepted o)
    (hafter : ∀ o ∈ after, c.name ≠ o.1) :
    ∃ v, Color.read color = .ok v ∧
      (p.override (before ++ (c.name, color) :: after)).1.get c = some v := by
  obtain ⟨hbefore, hrest⟩ := List.forall_mem_append.mp hall
  obtain ⟨d, v, hname, hcolor⟩ := hrest _ List.mem_cons_self
  obtain rfl := Category.name_inj.mp hname
  exact ⟨v, hcolor, get_override_append hbefore ⟨hname, hcolor⟩ hafter⟩

theorem override?_eq_ok : p.override? pairs = .ok q ↔
    (∀ o ∈ pairs, Accepted o) ∧ q = (p.override pairs).1 := by
  rw [← override_eq_none_iff (p := p)]
  unfold override?
  obtain ⟨r, f⟩ := p.override pairs
  cases f with
  | none => simp [eq_comm]
  | some d => simp

theorem override?_eq_error : p.override? pairs = .error e ↔
    ∃ before o after, pairs = before ++ o :: after ∧ (∀ q ∈ before, Accepted q) ∧ Refused o e := by
  rw [← override_eq_some_iff (p := p)]
  unfold override?
  obtain ⟨r, f⟩ := p.override pairs
  cases f with
  | none => simp
  | some d => simp

/-! ## The palette that is left -/

theorem override_append_of_refused (hbefore : ∀ q ∈ before, Accepted q) (h : Refused o e)
    (after : List (String × String)) :
    p.override (before ++ o :: after) = ((p.override before).1, some e) := by
  induction before generalizing p with
  | nil => exact override_cons_of_refused h after
  | cons b before ih =>
    obtain ⟨⟨c, v, hb⟩, hbefore⟩ := List.forall_mem_cons.mp hbefore
    rw [List.cons_append, override_cons_of_gives hb, override_cons_of_gives hb, ih hbefore]

theorem all_accepted_or_first_refused (pairs : List (String × String)) :
    (∀ o ∈ pairs, Accepted o) ∨
      ∃ before o after e, pairs = before ++ o :: after ∧ (∀ q ∈ before, Accepted q) ∧
        Refused o e := by
  refine (forall_or_exists_first Accepted pairs).imp_right ?_
  rintro ⟨before, o, after, hsplit, hbefore, ho⟩
  obtain ⟨e, he⟩ := (accepted_or_refused o).resolve_left ho
  exact ⟨before, o, after, e, hsplit, hbefore, he⟩

/-- Either all overrides are accepted, and each category has the color of the last one that names
it; or one is the first to be refused, and the palette that is left is the one of the overrides
before it, whatever comes after it. -/
theorem override_until_refused (p : Palette) (pairs : List (String × String)) :
    ((∀ o ∈ pairs, Accepted o) → (p.override pairs).2 = none ∧ ∀ c : Category,
      (∀ before color after, pairs = before ++ (c.name, color) :: after →
        (∀ o ∈ after, c.name ≠ o.1) →
        ∃ v, Color.read color = .ok v ∧ (p.override pairs).1.get c = some v) ∧
      ((∀ o ∈ pairs, c.name ≠ o.1) → (p.override pairs).1.get c = p.get c)) ∧
    (∀ before o after e, pairs = before ++ o :: after → (∀ q ∈ before, Accepted q) → Refused o e →
      p.override pairs = ((p.override before).1, some e) ∧ (p.override before).2 = none) ∧
    ((∀ o ∈ pairs, Accepted o) ∨
      ∃ before o after e, pairs = before ++ o :: after ∧ (∀ q ∈ before, Accepted q) ∧
        Refused o e) := by
  refine ⟨fun hall => ⟨override_eq_none_iff.mpr hall, fun c => ⟨?_, get_override_of_unnamed⟩⟩, ?_,
    all_accepted_or_first_refused pairs⟩
  · rintro before color after rfl hafter
    exact get_override_of_last hall hafter
  · rintro before o after e rfl hbefore ho
    exact ⟨override_append_of_refused hbefore ho after, override_eq_none_iff.mpr hbefore⟩

/-- Of two colors for one name the last one counts. Of two overrides that are not accepted the first
one is told of, by its name, and what comes after it does not count. -/
theorem override_until_refused_life :
    ((empty.override [("class", "#123"), ("class", " Transparent ")]).2 = none ∧
      (empty.override [("class", "#123"), ("class", " Transparent ")]).1.get .className =
        some .transparent) ∧
    empty.override [("class", "#123"), ("life", "red"), ("class", "red"), ("class", "#456")] =
      ((empty.override [("class", "#123")]).1, some (.category "life")) := by
  have hdigits : Accepted ("class", "#123") := ⟨.className, _, rfl, rfl⟩
  have hword : Accepted ("class", " Transparent ") := ⟨.className, _, rfl, rfl⟩
  have hunknown : ∀ c : Category, c.name ≠ "life" := Category.ofName?_eq_none_iff.mp (by decide)
  constructor
  · have hall : ∀ o ∈ [("class", "#123"), ("class", " Transparent ")], Accepted o := by
      simp [hdigits, hword]
    obtain ⟨hnone, hget⟩ := (override_until_refused empty _).1 hall
    obtain ⟨v, hv, hclass⟩ := (hget .className).1 [("class", "#123")] " Transparent " [] rfl (by simp)
    cases hv
    exact ⟨hnone, hclass⟩
  · exact ((override_until_refused empty _).2.1 [("class", "#123")] ("life", "red") _ _ rfl
      (by simp [hdigits]) (.name hunknown)).1

/-! ## Palettes that lack nothing -/

/-- What can be done to a palette. -/
inductive Change
  /-- One color, set in place or on the way to a new palette. -/
  | set (category : Category) (color : Color)
  /-- Overrides, of which those before the first one that is refused count. -/
  | override (pairs : List (String × String))

def Change.apply (p : Palette) : Change → Palette
  | set category color => p.set category color
  | override pairs => (p.override pairs).1

theorem missing_apply (h : p.missing = []) (change : Change) : (change.apply p).missing = [] := by
  rw [missing_eq_nil_iff] at h ⊢
  intro c
  cases change with
  | set category color =>
    rw [Change.apply, get_set]
    split
    · rfl
    · exact h c
  | override pairs => exact isSome_get_override (h c) pairs

theorem missing_foldl (h : p.missing = []) (changes : List Change) :
    (changes.foldl Change.apply p).missing = [] := by
  induction changes generalizing p with
  | nil => exact h
  | cons change changes ih => exact ih (missing_apply h change)

theorem get_eq_colorOf (h : p.missing = []) (c : Category) : p.get c = some (p.colorOf c) := by
  obtain ⟨v, hv⟩ := Option.isSome_iff_exists.mp (missing_eq_nil_iff.mp h c)
  rw [colorOf, hv]
  rfl

end Palette

/-! ## Palettes of settings -/

namespace Settings

open Palette

variable {s : Settings}

theorem sorted_of_read {explain : String → String} {text : String} {ws : List Warning}
    (h : read explain text = .ok (s, ws)) :
    s.overrides.Pairwise fun a b => a.1 < b.1 := by
  unfold read at h
  split at h
  · cases h
  · rename_i t ht
    have hmeans := (values_eq_ok t).mp ((ofTable_eq_ok t).mp h).1
    exact List.pairwise_map.mp (sorted_overrides (Toml.Table.sorted_of_read? ht) hmeans)

theorem lt_around {before after : List (String × String)} {o : String × String}
    (h : (before ++ o :: after).Pairwise fun a b => a.1 < b.1) :
    (∀ q ∈ before, q.1 < o.1) ∧ ∀ q ∈ after, o.1 < q.1 := by
  obtain ⟨-, hrest, hcross⟩ := List.pairwise_append.mp h
  exact ⟨fun q hq => hcross q hq o List.mem_cons_self, (List.pairwise_cons.mp hrest).1⟩

/-- Overrides in the order of their names: what comes before one is what has a smaller name. -/
theorem exists_first_iff {pairs : List (String × String)} (h : pairs.Pairwise fun a b => a.1 < b.1)
    {P Q : String × String → Prop} :
    (∃ before o after, pairs = before ++ o :: after ∧ (∀ q ∈ before, P q) ∧ Q o) ↔
      ∃ o ∈ pairs, Q o ∧ ∀ q ∈ pairs, q.1 < o.1 → P q := by
  constructor
  · rintro ⟨before, o, after, rfl, hbefore, ho⟩
    refine ⟨o, by simp, ho, fun q hq hlt => ?_⟩
    rcases List.mem_append.mp hq with hq | hq
    · exact hbefore q hq
    · rcases List.mem_cons.mp hq with rfl | hq
      · exact absurd hlt (String.lt_irrefl _)
      · exact absurd hlt (String.lt_asymm ((lt_around h).2 q hq))
  · rintro ⟨o, ho, hQ, hsmaller⟩
    obtain ⟨before, after, rfl⟩ := List.append_of_mem ho
    refine ⟨before, o, after, rfl, fun q hq => ?_, hQ⟩
    exact hsmaller q (List.mem_append_left _ hq) ((lt_around h).1 q hq)

/-- A name of its own for each override: it is the only one for its category. -/
theorem get_override_of_mem {p : Palette} {pairs : List (String × String)}
    (h : pairs.Pairwise fun a b => a.1 < b.1) (hall : ∀ o ∈ pairs, Accepted o) {c : Category}
    {color : String} (hmem : (c.name, color) ∈ pairs) :
    ∃ v, Color.read color = .ok v ∧ (p.override pairs).1.get c = some v := by
  obtain ⟨before, after, rfl⟩ := List.append_of_mem hmem
  apply get_override_of_last hall
  intro o ho heq
  have hlt : c.name < o.1 := (lt_around h).2 o ho
  rw [heq] at hlt
  exact String.lt_irrefl _ hlt

/-- Settings with either theme have a palette exactly if all their overrides are accepted. They are
refused for the first one that is not, in the order of the bytes of the names. The palette has the
colors of the overrides and of the theme, and whatever is drawn with it has a color of its own; and
no change of a theme's palette makes it lack one. -/
theorem palette_total :
    (∀ explain text s ws, read explain text = .ok (s, ws) → ∀ theme,
      ((∃ p, palette { s with theme := theme } = .ok p) ↔ ∀ o ∈ s.overrides, Accepted o) ∧
      (∀ e, palette { s with theme := theme } = .error e ↔
        ∃ o ∈ s.overrides, Refused o e ∧ ∀ q ∈ s.overrides, bytes q.1 < bytes o.1 → Accepted q) ∧
      ∀ p, palette { s with theme := theme } = .ok p →
        (∀ c color, (c.name, color) ∈ s.overrides →
          ∃ v, Color.read color = .ok v ∧ p.get c = some v) ∧
        (∀ c : Category, (∀ color, (c.name, color) ∉ s.overrides) → p.get c = some (theme.color c)) ∧
        p.missing = [] ∧ (chart { s with theme := theme } p).warnings = [] ∧
        ∀ strip : Strip, ∀ g ∈ strip.segments, p.get g.category = some (p.colorOf g.category)) ∧
    ∀ (theme : Theme) (changes : List Change),
      (changes.foldl Change.apply (ofTheme theme)).missing = [] := by
  refine ⟨?_, fun theme changes => missing_foldl (missing_ofTheme theme) changes⟩
  intro explain text s ws hread theme
  have hsorted := sorted_of_read hread
  refine ⟨?_, ?_, ?_⟩
  · simp [palette, override?_eq_ok]
  · intro e
    simp only [palette, override?_eq_error, exists_first_iff hsorted, lt_iff_bytes_lt]
  · intro p hp
    obtain ⟨hall, rfl⟩ := override?_eq_ok.mp hp
    have hmissing := missing_apply (missing_ofTheme theme) (.override s.overrides)
    refine ⟨fun c color hmem => get_override_of_mem hsorted hall hmem, ?_, hmissing, ?_, ?_⟩
    · intro c hunnamed
      apply get_override_of_unnamed
      rintro ⟨name, color⟩ ho rfl
      exact hunnamed color ho
    · exact Chart.warnings_eq_nil hmissing
    · exact fun _ g _ => get_eq_colorOf hmissing g.category

/-- Two overrides are refused, and the smaller name is told of first. One that is accepted replaces
the color of its theme. -/
theorem palette_total_files :
    read id "[palette]\nstring = \"#123\"\nclass = \"red\"\nlife = \"x\"\n" =
      .ok ({ standard with overrides := [("class", "red"), ("life", "x"), ("string", "#123")] }, []) ∧
    palette { standard with
      theme := .light, overrides := [("class", "red"), ("life", "x"), ("string", "#123")] } =
      .error (.color "red") ∧
    read id "[palette]\nstring = \"#123\"\n" =
      .ok ({ standard with overrides := [("string", "#123")] }, []) ∧
    ∃ p, palette { standard with theme := .light, overrides := [("string", "#123")] } = .ok p ∧
      p.get .string = some (.solid ⟨0x11, 0x22, 0x33⟩) ∧
      p.get .operator = some (Theme.light.color .operator) ∧ p.missing = [] := by
  have hrefused : read id "[palette]\nstring = \"#123\"\nclass = \"red\"\nlife = \"x\"\n" = .ok
      ({ standard with overrides := [("class", "red"), ("life", "x"), ("string", "#123")] }, []) := by
    cbv
  have haccepted : read id "[palette]\nstring = \"#123\"\n" =
      .ok ({ standard with overrides := [("string", "#123")] }, []) := by
    cbv
  refine ⟨hrefused, ?_, haccepted, ?_⟩
  · apply ((palette_total.1 _ _ _ _ hrefused .light).2.1 _).mpr
    have hfirst : ∀ o ∈ [("class", "red"), ("life", "x"), ("string", "#123")],
        ¬ bytes o.1 < bytes "class" := by
      simp only [← lt_iff_bytes_lt]
      decide
    refine ⟨("class", "red"), by simp, ?_, fun o ho hlt => absurd hlt (hfirst o ho)⟩
    refine .color ⟨.className, rfl⟩ fun v hv => ?_
    cases hv
  · have hlight := palette_total.1 _ _ _ _ haccepted .light
    obtain ⟨p, hp⟩ := hlight.1.mpr (by simpa [Accepted, Gives] using ⟨⟨.string, rfl⟩, _, rfl⟩)
    obtain ⟨hnamed, hunnamed, hmissing, -⟩ := hlight.2.2 p hp
    obtain ⟨v, hv, hstring⟩ := hnamed .string "#123" (by simp [Category.name])
    cases hv
    exact ⟨p, hp, hstring, hunnamed .operator (by simp [Category.name]), hmissing⟩

end Settings

end Ribbon
