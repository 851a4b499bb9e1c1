import Mathlib.Tactic.ByContra
import Mathlib.Tactic.Tauto
import Ribbon.Settings

/-!
# Settings key by key

What a table says is settled key by key: a known key has a value that is good for it or it does
not, whatever the other keys have. Of the values that are not good the first one is refused, in the
order of the known keys.
-/

namespace Ribbon

open Text Toml

/-- The name of a theme in settings. -/
def Theme.word : Theme → String
  | dark => "dark"
  | light => "light"

/-- The first element of a list with one property comes after elements with another one. -/
theorem exists_first_cons {α : Type} {P Q : α → Prop} {a : α} {l : List α} :
    (∃ before b after, a :: l = before ++ b :: after ∧ (∀ x ∈ before, P x) ∧ Q b) ↔
      Q a ∨ P a ∧ ∃ before b after, l = before ++ b :: after ∧ (∀ x ∈ before, P x) ∧ Q b := by
  constructor
  · rintro ⟨before, b, after, heq, hbefore, hb⟩
    cases before with
    | nil =>
      cases heq
      exact .inl hb
    | cons c before =>
      cases heq
      obtain ⟨hc, hrest⟩ := List.forall_mem_cons.mp hbefore
      exact .inr ⟨hc, before, b, after, rfl, hrest, hb⟩
  · rintro (ha | ⟨ha, before, b, after, rfl, hbefore, hb⟩)
    · exact ⟨[], a, l, rfl, by simp, ha⟩
    · exact ⟨a :: before, b, after, rfl, List.forall_mem_cons.mpr ⟨ha, hbefore⟩, hb⟩

/-- Either all elements of a list have a property, or there is a first one that has not. -/
theorem forall_or_exists_first {α : Type} (P : α → Prop) (l : List α) :
    (∀ x ∈ l, P x) ∨
      ∃ before b after, l = before ++ b :: after ∧ (∀ x ∈ before, P x) ∧ ¬ P b := by
  induction l with
  | nil => exact .inl (by simp)
  | cons a l ih =>
    rw [List.forall_mem_cons, exists_first_cons]
    by_cases ha : P a
    · exact ih.imp (⟨ha, ·⟩) (.inr ⟨ha, ·⟩)
    · exact .inr (.inl ha)

namespace Settings

/-! ## What values say -/

def SaysTheme (v : Value) (t : Theme) : Prop :=
  ∃ s, v = .scalar (.string s) ∧ spells (trim s.toList) t.word.toList = true

def SaysWidth (v : Value) (w : Nat) : Prop :=
  ∃ n : Int, v = .scalar (.integer n) ∧ (w : Int) = max 1 (min 64 n)

def SaysSwitch (v : Value) (b : Bool) : Prop :=
  v = .scalar (.boolean b) ∨ ∃ s, v = .scalar (.string s) ∧ truth? s = some b

/-- All entries are texts, and the overrides in their order. -/
def SaysOverrides (v : Value) (overrides : List (String × String)) : Prop :=
  v = .table (overrides.map fun o => (o.1, .scalar (.string o.2)))

/-! ## What is refused -/

/-- A text that names no theme is shown as it is. -/
def refusedTheme (v : Value) : Fault :=
  match v.string? with
  | some s => .value "theme" s
  | none => refused "theme" v

/-- Of a palette that is a table, the first entry that is no text. -/
def refusedPalette (v : Value) : Fault :=
  match v.table?.bind fun p => p.find? fun e => e.2.string?.isNone with
  | some (name, w) => refused ("palette." ++ name) w
  | none => refused "palette" v

/-! ## Readers -/

/-- A reader takes a value for what it says, and refuses a value that says nothing. -/
structure Reads {α : Type} (read : Value → Except Fault α) (Says : Value → α → Prop)
    (refusal : Value → Fault) : Prop where
  ok : ∀ v a, read v = .ok a ↔ Says v a
  error : ∀ v e, read v = .error e → e = refusal v

section Reads

variable {α : Type} {read : Value → Except Fault α} {Says : Value → α → Prop}
  {refusal : Value → Fault}

theorem Reads.exists_ok (h : Reads read Says refusal) (v : Value) :
    (∃ a, read v = .ok a) ↔ ∃ a, Says v a :=
  exists_congr (h.ok v)

theorem Reads.error_iff (h : Reads read Says refusal) (v : Value) (e : Fault) :
    read v = .error e ↔ (¬ ∃ a, Says v a) ∧ e = refusal v := by
  rw [← h.exists_ok]
  constructor
  · intro he
    refine ⟨?_, h.error v e he⟩
    rintro ⟨a, ha⟩
    rw [he] at ha
    cases ha
  · rintro ⟨hnone, rfl⟩
    cases hv : read v with
    | ok a => exact absurd ⟨a, hv⟩ hnone
    | error d => rw [h.error v d hv]

end Reads

theorem string?_eq_some {v : Value} {s : String} :
    v.string? = some s ↔ v = .scalar (.string s) := by
  unfold Value.string?
  split <;> simp_all

theorem integer?_eq_some {v : Value} {n : Int} :
    v.integer? = some n ↔ v = .scalar (.integer n) := by
  unfold Value.integer?
  split <;> simp_all

theorem table?_eq_some {v : Value} {p : Table} : v.table? = some p ↔ v = .table p := by
  unfold Value.table?
  split <;> simp_all

theorem readString_eq_ok {key : String} {v : Value} {s : String} :
    readString key v = .ok s ↔ v = .scalar (.string s) := by
  rw [← string?_eq_some, readString]
  split <;> simp_all

theorem readString_eq_error {key : String} {v : Value} {e : Fault}
    (h : readString key v = .error e) :
    v.string? = none ∧ e = refused key v := by
  unfold readString at h
  split at h
  · cases h
  · rename_i hv
    cases h
    exact ⟨hv, rfl⟩

theorem theme_eq_ok {s : String} {t : Theme} :
    Theme.read s = .ok t ↔ spells (trim s.toList) t.word.toList = true := by
  have hapart : spells (trim s.toList) "dark".toList = true →
      spells (trim s.toList) "light".toList = false := by
    intro h
    rw [spells, beq_iff_eq] at h
    rw [spells, h]
    decide
  have hread : Theme.read s =
      if spells (trim s.toList) Theme.dark.word.toList then .ok .dark
      else if spells (trim s.toList) Theme.light.word.toList then .ok .light
      else .error (.value "theme" s) := rfl
  rw [hread]
  cases t with
  | dark =>
    split
    · rename_i hdark
      exact iff_of_true rfl hdark
    · rename_i hdark
      refine iff_of_false ?_ hdark
      split <;> nofun
  | light =>
    split
    · rename_i hdark
      exact iff_of_false nofun (Bool.eq_false_iff.mp (hapart hdark))
    · split
      · rename_i hlight
        exact iff_of_true rfl hlight
      · rename_i hlight
        exact iff_of_false nofun hlight

theorem theme_eq_error {s : String} {e : Fault} (h : Theme.read s = .error e) :
    e = .value "theme" s := by
  simp only [Theme.read] at h
  split at h
  · cases h
  · split at h
    · cases h
    · cases h
      rfl

theorem reads_theme : Reads readTheme SaysTheme refusedTheme where
  ok v t := by
    simp only [readTheme, bind_eq_ok, readString_eq_ok, theme_eq_ok]
    rfl
  error v e h := by
    rcases bind_eq_error.mp h with h | ⟨s, hs, h⟩
    · obtain ⟨hv, he⟩ := readString_eq_error h
      rw [he, refusedTheme, hv]
    · have hv := string?_eq_some.mpr (readString_eq_ok.mp hs)
      rw [theme_eq_error h, refusedTheme, hv]

theorem clampWidth_eq (n : Int) (w : Nat) :
    clampWidth n.toNat = w ↔ (w : Int) = max 1 (min 64 n) := by
  unfold clampWidth
  omega

theorem reads_width (key : String) : Reads (readWidth key) SaysWidth (refused key) where
  ok v w := by
    simp only [SaysWidth, ← integer?_eq_some, ← clampWidth_eq, readWidth]
    split <;> simp_all
  error v e h := by
    unfold readWidth at h
    split at h
    · cases h
    · cases h
      rfl

theorem reads_switch (key : String) : Reads (readSwitch key) SaysSwitch (refused key) where
  ok v b := by
    unfold SaysSwitch readSwitch
    split
    · simp
    · split <;> simp_all
    · rename_i hboolean hstring
      constructor
      · intro h
        cases h
      · rintro (h | ⟨s, h, -⟩)
        · exact (hboolean b h).elim
        · exact (hstring s h).elim
  error v e h := by
    unfold readSwitch at h
    split at h
    · cases h
    · split at h
      · cases h
      · cases h
        rfl
    · cases h
      rfl

theorem readOverrides_eq_ok {p : Table} {overrides : List (String × String)} :
    readOverrides p = .ok overrides ↔ p = overrides.map fun o => (o.1, .scalar (.string o.2)) := by
  induction p generalizing overrides with
  | nil => cases overrides <;> simp [readOverrides]
  | cons entry p ih =>
    obtain ⟨name, v⟩ := entry
    simp only [readOverrides, bind_eq_ok, readString_eq_ok, ih]
    constructor
    · rintro ⟨s, rfl, rest, rfl, h⟩
      cases h
      rfl
    · intro h
      cases overrides with
      | nil => cases h
      | cons o rest =>
        rw [List.map_cons, List.cons.injEq, Prod.mk.injEq] at h
        obtain ⟨⟨rfl, rfl⟩, rfl⟩ := h
        exact ⟨o.2, rfl, rest, rfl, rfl⟩

theorem readOverrides_eq_error {p : Table} {e : Fault} (h : readOverrides p = .error e) :
    ∃ name w, p.find? (fun e => e.2.string?.isNone) = some (name, w) ∧
      e = refused ("palette." ++ name) w := by
  induction p with
  | nil => cases h
  | cons entry p ih =>
    obtain ⟨name, v⟩ := entry
    rw [readOverrides] at h
    rcases bind_eq_error.mp h with h | ⟨s, hs, h⟩
    · obtain ⟨hv, he⟩ := readString_eq_error h
      exact ⟨name, v, by simp [hv], he⟩
    · have hv := string?_eq_some.mpr (readString_eq_ok.mp hs)
      rcases bind_eq_error.mp h with h | ⟨rest, -, h⟩
      · simpa [hv] using ih h
      · cases h

theorem reads_palette : Reads readPalette SaysOverrides refusedPalette where
  ok v overrides := by
    unfold readPalette SaysOverrides
    split
    · rename_i p hv
      rw [readOverrides_eq_ok, table?_eq_some.mp hv, Value.table.injEq]
    · rename_i hv
      constructor
      · intro h
        cases h
      · rintro rfl
        cases hv
  error v e h := by
    unfold readPalette at h
    split at h
    · rename_i p hv
      obtain ⟨name, w, hfind, he⟩ := readOverrides_eq_error h
      rw [he, refusedPalette, hv, Option.bind_some, hfind]
    · rename_i hv
      cases h
      rw [refusedPalette, hv, Option.bind_none]

/-! ## Settings of a table -/

/-- A setting is what the value of its key says, and the default where the key is absent. -/
def Holds {α : Type} (t : Table) (key : String) (absent : α) (Says : Value → α → Prop) (a : α) :
    Prop :=
  match t.get? key with
  | none => a = absent
  | some v => Says v a

/-- What a table means. Each setting depends on its own key alone. -/
structure Means (t : Table) (s : Settings) : Prop where
  theme : Holds t "theme" standard.theme SaysTheme s.theme
  charWidth : Holds t "char-width" standard.charWidth SaysWidth s.charWidth
  cellWidth : Holds t "cell-width" standard.cellWidth SaysWidth s.cellWidth
  legend : Holds t "legend" standard.legend SaysSwitch s.legend
  lineNumbers : Holds t "line-numbers" standard.lineNumbers SaysSwitch s.lineNumbers
  overrides : Holds t "palette" standard.overrides SaysOverrides s.overrides

/-- A key with the values that are good for it, and how others are refused. -/
structure Rule where
  key : String
  Admits : Value → Prop
  refusal : Value → Fault

def rules : List Rule :=
  [⟨"theme", fun v => ∃ t, SaysTheme v t, refusedTheme⟩,
    ⟨"char-width", fun v => ∃ w, SaysWidth v w, refused "char-width"⟩,
    ⟨"cell-width", fun v => ∃ w, SaysWidth v w, refused "cell-width"⟩,
    ⟨"legend", fun v => ∃ b, SaysSwitch v b, refused "legend"⟩,
    ⟨"line-numbers", fun v => ∃ b, SaysSwitch v b, refused "line-numbers"⟩,
    ⟨"palette", fun v => ∃ overrides, SaysOverrides v overrides, refusedPalette⟩]

namespace Rule

def Kept (r : Rule) (t : Table) : Prop :=
  ∀ v, t.get? r.key = some v → r.Admits v

def Broken (r : Rule) (t : Table) (e : Fault) : Prop :=
  ∃ v, t.get? r.key = some v ∧ ¬ r.Admits v ∧ e = r.refusal v

/-- The first rule that a table breaks, and what it is refused for. -/
def FirstBroken (t : Table) (e : Fault) : List Rule → Prop
  | [] => False
  | r :: rest => r.Broken t e ∨ r.Kept t ∧ FirstBroken t e rest

theorem firstBroken_iff {t : Table} {e : Fault} {rs : List Rule} :
    FirstBroken t e rs ↔ ∃ before r after, rs = before ++ r :: after ∧
      (∀ q ∈ before, q.Kept t) ∧ r.Broken t e := by
  induction rs with
  | nil => simp [FirstBroken]
  | cons r rs ih => rw [FirstBroken, ih, exists_first_cons]

theorem exists_broken_iff (r : Rule) (t : Table) : (∃ e, r.Broken t e) ↔ ¬ r.Kept t := by
  constructor
  · rintro ⟨-, v, hv, hrefused, -⟩ hkept
    exact hrefused (hkept v hv)
  · intro hkept
    by_contra hnone
    apply hkept
    intro v hv
    by_contra hrefused
    exact hnone ⟨r.refusal v, v, hv, hrefused, rfl⟩

theorem exists_firstBroken_iff (t : Table) (rs : List Rule) :
    (∃ e, FirstBroken t e rs) ↔ ¬ ∀ r ∈ rs, r.Kept t := by
  induction rs with
  | nil => simp [FirstBroken]
  | cons r rs ih =>
    simp only [FirstBroken, exists_or, exists_and_left, exists_broken_iff, ih,
      List.forall_mem_cons]
    tauto

end Rule

section Setting

variable {α : Type} {read : Value → Except Fault α} {Says : Value → α → Prop}
  {refusal : Value → Fault} {t : Table} {key : String} {absent : α}

theorem setting_eq_ok (h : Reads read Says refusal) {a : α} :
    setting t key absent read = .ok a ↔ Holds t key absent Says a := by
  unfold setting Holds
  cases t.get? key with
  | none => simp [eq_comm]
  | some v => exact h.ok v a

theorem setting_eq_error (h : Reads read Says refusal) {e : Fault} :
    setting t key absent read = .error e ↔
      Rule.Broken ⟨key, fun v => ∃ a, Says v a, refusal⟩ t e := by
  unfold setting Rule.Broken
  cases t.get? key with
  | none => simp
  | some v => simpa using h.error_iff v e

theorem exists_setting_iff (h : Reads read Says refusal) :
    (∃ a, setting t key absent read = .ok a) ↔
      Rule.Kept ⟨key, fun v => ∃ a, Says v a, refusal⟩ t := by
  unfold setting Rule.Kept
  cases t.get? key with
  | none => simp
  | some v => simpa using h.exists_ok v

end Setting

variable (t : Table)

theorem values_eq_ok {s : Settings} : values t = .ok s ↔ Means t s := by
  simp only [values, bind_eq_ok, setting_eq_ok reads_theme, setting_eq_ok (reads_width _),
    setting_eq_ok (reads_switch _), setting_eq_ok reads_palette]
  constructor
  · rintro ⟨_, h₁, _, h₂, _, h₃, _, h₄, _, h₅, _, h₆, h⟩
    cases h
    exact ⟨h₁, h₂, h₃, h₄, h₅, h₆⟩
  · rintro ⟨h₁, h₂, h₃, h₄, h₅, h₆⟩
    exact ⟨_, h₁, _, h₂, _, h₃, _, h₄, _, h₅, _, h₆, rfl⟩

theorem values_eq_error {e : Fault} : values t = .error e ↔ Rule.FirstBroken t e rules := by
  have hdone (s : Settings) : (pure s : Except Fault Settings) = .error e ↔ False := by
    simp [pure, Except.pure]
  -- A later step is not reached unless the earlier ones gave a setting; which one does not matter.
  simp only [values, bind_eq_error, setting_eq_error reads_theme, setting_eq_error (reads_width _),
    setting_eq_error (reads_switch _), setting_eq_error reads_palette, hdone, exists_and_right,
    exists_setting_iff reads_theme, exists_setting_iff (reads_width _),
    exists_setting_iff (reads_switch _), exists_setting_iff reads_palette]
  simp [rules, Rule.FirstBroken]

theorem exists_values_iff : (∃ s, values t = .ok s) ↔ ∀ r ∈ rules, r.Kept t := by
  have hbroken := Rule.exists_firstBroken_iff t rules
  simp only [← values_eq_error] at hbroken
  rw [← not_iff_not, ← hbroken]
  cases values t <;> simp

/-- A key without a meaning changes nothing. -/
theorem values_congr {t u : Table} (h : ∀ key ∈ knownKeys, u.get? key = t.get? key) :
    values u = values t := by
  have hsetting {α : Type} {key : String} (hkey : key ∈ knownKeys) (absent : α)
      (read : Value → Except Fault α) : setting u key absent read = setting t key absent read := by
    rw [setting, setting, h key hkey]
  have htheme : "theme" ∈ knownKeys := by decide
  have hchar : "char-width" ∈ knownKeys := by decide
  have hcell : "cell-width" ∈ knownKeys := by decide
  have hlegend : "legend" ∈ knownKeys := by decide
  have hnumbers : "line-numbers" ∈ knownKeys := by decide
  have hpalette : "palette" ∈ knownKeys := by decide
  simp only [values, hsetting htheme, hsetting hchar, hsetting hcell, hsetting hlegend,
    hsetting hnumbers, hsetting hpalette]

/-! ## Unknown keys -/

def unknownKeys : List String :=
  (t.map (·.1)).filter (· ∉ knownKeys)

theorem warnings_eq : warnings t = (unknownKeys t).map .unknownKey := by
  rw [warnings, unknownKeys, List.filter_map, List.map_map]
  congr 1
  apply List.filter_congr
  intro e _
  simp

theorem sorted_unknownKeys (h : t.Ordered) : (unknownKeys t).Pairwise (· < ·) :=
  (List.pairwise_map.mpr h).filter _

theorem ofTable_eq_ok {s : Settings} {ws : List Warning} :
    ofTable t = .ok (s, ws) ↔ values t = .ok s ∧ ws = warnings t := by
  unfold ofTable
  cases values t <;> simp [bind, Except.bind, pure, Except.pure, eq_comm]

theorem map_ofTable : (ofTable t).map (·.1) = values t := by
  unfold ofTable
  cases values t <;> rfl

theorem ofTable_eq_error {e : Fault} : ofTable t = .error e ↔ values t = .error e := by
  unfold ofTable
  cases values t <;> simp [bind, Except.bind, pure, Except.pure]

end Settings

/-! ## Tables of documents -/

namespace Toml

theorem Table.mem_ofEntries {es : List (String × Value)} {e : String × Value}
    (h : e ∈ Table.ofEntries es) : e ∈ es := by
  -- What the fold holds came from the table it began with or from the entries.
  suffices hfold : ∀ (es : List (String × Value)) (t : Table),
      e ∈ es.foldl (fun t e => Table.insert e.1 e.2 t) t → e ∈ t ∨ e ∈ es from
    (hfold es [] h).resolve_left List.not_mem_nil
  intro es
  induction es with
  | nil => exact fun t h => .inl h
  | cons d es ih =>
    intro t h
    rcases ih _ h with h | h
    · rcases Table.mem_insert h with rfl | h
      · exact .inr List.mem_cons_self
      · exact .inl h
    · exact .inr (List.mem_cons_of_mem d h)

theorem Table.mem_of_get? {t : Table} {key : String} {v : Value} (h : t.get? key = some v) :
    (key, v) ∈ t := by
  obtain ⟨before, after, rfl, -⟩ := List.lookup_eq_some_iff.mp h
  simp

theorem ordered_of_value? {n : Node} {p : Table} (h : n.value? = some (.table p)) :
    Table.Ordered p := by
  cases n with
  | scalar s => simp [Node.value?] at h
  | array items => simp [Node.value?] at h
  | tables items => simp [Node.value?] at h
  | table standing entries =>
    rw [Node.value?] at h
    split at h
    · simp at h
    · cases h
    · obtain ⟨es, -, heq⟩ := Option.map_eq_some_iff.mp h
      cases heq
      exact Table.ordered_ofEntries es

theorem value_of_mem {es : List (String × Node)} {vs : List (String × Value)}
    (h : entriesValue? es = some vs) {e : String × Value} (he : e ∈ vs) :
    ∃ n : Node, n.value? = some e.2 := by
  induction es generalizing vs with
  | nil =>
    rw [entriesValue?, Option.some.injEq] at h
    subst h
    cases he
  | cons entry es ih =>
    obtain ⟨key, n⟩ := entry
    simp only [entriesValue?, Option.bind_eq_bind, Option.bind_eq_some_iff] at h
    obtain ⟨v, hv, vs', hvs', h⟩ := h
    cases h
    rcases List.mem_cons.mp he with rfl | he
    · exact ⟨n, hv⟩
    · exact ih hvs' he

/-- The keys of a table are in order, and so are those of the tables in it. -/
structure Table.Sorted (t : Table) : Prop where
  keys : t.Ordered
  inner : ∀ key p, t.get? key = some (.table p) → Table.Ordered p

theorem Table.sorted_of_read? {s : List Char} {t : Table} (h : Table.read? s = some t) :
    t.Sorted := by
  simp only [Table.read?, Option.bind_eq_bind, Option.bind_eq_some_iff] at h
  obtain ⟨-, -, es, -, es', -, vs, hvs, h⟩ := h
  cases h
  refine ⟨Table.ordered_ofEntries vs, fun key p hp => ?_⟩
  obtain ⟨n, hn⟩ := value_of_mem hvs (Table.mem_ofEntries (Table.mem_of_get? hp))
  exact ordered_of_value? hn

end Toml

/-! ## Key by key -/

namespace Settings

theorem sorted_overrides {t : Table} (h : t.Sorted) {s : Settings} (hs : Means t s) :
    (s.overrides.map (·.1)).Pairwise (· < ·) := by
  have hover := hs.overrides
  unfold Holds at hover
  split at hover
  · rw [hover]
    exact List.Pairwise.nil
  · rename_i v hv
    rw [SaysOverrides.eq_def] at hover
    have horder := h.inner "palette" _ (hover ▸ hv)
    rw [Table.Ordered, List.pairwise_map] at horder
    exact List.pairwise_map.mpr horder

/-- A table is accepted if it keeps all rules. It then means what its known keys say, one by one,
and its unknown keys are told of. Otherwise it is refused for the first rule that it breaks. Unknown
keys have no say in either. The keys of a document are in order, so what is told and what is
overridden is too. -/
theorem ofTable_keywise (t : Table) :
    ((∃ r, ofTable t = .ok r) ↔ ∀ r ∈ rules, r.Kept t) ∧
      (∀ s ws, ofTable t = .ok (s, ws) ↔
        Means t s ∧ ws = (unknownKeys t).map .unknownKey) ∧
      (∀ e, ofTable t = .error e ↔ ∃ before r after, rules = before ++ r :: after ∧
        (∀ q ∈ before, q.Kept t) ∧ r.Broken t e) ∧
      (∀ u : Table, (∀ key ∈ knownKeys, u.get? key = t.get? key) →
        (ofTable u).map (·.1) = (ofTable t).map (·.1)) ∧
      (t.Sorted → (unknownKeys t).Pairwise (· < ·) ∧
        ∀ s, Means t s → (s.overrides.map (·.1)).Pairwise (· < ·)) ∧
      ∀ text, Table.read? text = some t → t.Sorted := by
  have hok (s : Settings) (ws : List Warning) :
      ofTable t = .ok (s, ws) ↔ Means t s ∧ ws = (unknownKeys t).map .unknownKey := by
    rw [ofTable_eq_ok, values_eq_ok, warnings_eq]
  refine ⟨?_, hok, ?_, ?_, ?_, fun text => Table.sorted_of_read?⟩
  · rw [← exists_values_iff]
    constructor
    · rintro ⟨⟨s, ws⟩, h⟩
      exact ⟨s, ((ofTable_eq_ok t).mp h).1⟩
    · rintro ⟨s, h⟩
      exact ⟨(s, warnings t), (ofTable_eq_ok t).mpr ⟨h, rfl⟩⟩
  · intro e
    rw [ofTable_eq_error, values_eq_error, Rule.firstBroken_iff]
  · intro u h
    rw [map_ofTable, map_ofTable, values_congr h]
  · intro h
    exact ⟨sorted_unknownKeys t h.keys, fun s hs => sorted_overrides h hs⟩

/-- Two unknown keys around a width below the least one and a switch as a text; and two rules
broken, of which the earlier one counts. -/
theorem ofTable_keywise_mixed :
    ofTable [("b", .array []), ("char-width", .scalar (.integer (-5))),
        ("line-numbers", .scalar (.string " Off ")), ("z", .scalar (.boolean true))] =
      .ok ({ standard with charWidth := 1, lineNumbers := false },
        [.unknownKey "b", .unknownKey "z"]) ∧
    ofTable [("cell-width", .scalar (.string "wide")), ("palette", .scalar (.integer 1))] =
      .error (.value "cell-width" "\"wide\"") := by
  constructor
  · apply ((ofTable_keywise _).2.1 _ _).mpr
    refine ⟨⟨rfl, ⟨-5, rfl, rfl⟩, rfl, rfl, .inr ⟨" Off ", rfl, rfl⟩, rfl⟩, rfl⟩
  · apply ((ofTable_keywise _).2.2.1 _).mpr
    refine ⟨rules.take 2, _, _, rfl, ?_, .scalar (.string "wide"), rfl, ?_, rfl⟩
    · intro q hq v hv
      simp only [rules, List.take_succ_cons, List.take_zero, List.mem_cons, List.not_mem_nil,
        or_false] at hq
      rcases hq with rfl | rfl
      · cases hv
      · cases hv
    · rintro ⟨w, n, h, -⟩
      cases h

end Settings

end Ribbon
