import Mathlib
import Ribbon.Proofs.Endings
import Ribbon.Proofs.Keywise

/-!
# Flags in place of settings

Some arguments ask for what the settings file can say as well. A command line comes to the same as
the one without them under a settings file that says what they ask for.
-/

namespace Ribbon

open Text Toml

/-! ## Amended tables -/

/-- The table with a value for the key, if there is one to set. -/
def Toml.Table.amend (t : Table) (key : String) (v : Option Value) : Table :=
  v.elim t fun v => t.insert key v

@[simp] theorem Toml.Table.get?_amend (t : Table) (key : String) (v : Option Value) (k : String) :
    (t.amend key v).get? k = if k = key then v.or (t.get? k) else t.get? k := by
  cases v with
  | none => simp [amend]
  | some v => simp [amend, get?_insert]

namespace Settings

theorem warnings_insert {key : String} (h : key ∈ knownKeys) (v : Value) (t : Table) :
    warnings (t.insert key v) = warnings t := by
  suffices hfilter : (t.insert key v).filter (fun e => !knownKeys.contains e.1) =
      t.filter fun e => !knownKeys.contains e.1 by rw [warnings, warnings, hfilter]
  induction t with
  | nil => simp [Table.insert, h]
  | cons head rest ih =>
    obtain ⟨k, w⟩ := head
    rw [Table.insert]
    split
    · simp [h]
    · split
      · rename_i heq
        subst heq
        simp [h]
      · rw [List.filter_cons, List.filter_cons, ih]

theorem warnings_amend {key : String} (h : key ∈ knownKeys) (t : Table) (v : Option Value) :
    warnings (t.amend key v) = warnings t := by
  cases v with
  | none => rfl
  | some v => exact warnings_insert h v t

section Holds

variable {α : Type} {t u : Table} {key : String} {absent a : α} {Says : Value → α → Prop}

theorem Holds.congr (h : Holds t key absent Says a) (hget : u.get? key = t.get? key) :
    Holds u key absent Says a := by
  unfold Holds at h ⊢
  rwa [hget]

/-- A value in place of the one that a table had for the key. -/
theorem Holds.amended {b : Option α} (value : α → Value) (h : Holds t key absent Says a)
    (hvalue : ∀ c, b = some c → Says (value c) c)
    (hget : u.get? key = (b.map value).or (t.get? key)) : Holds u key absent Says (b.getD a) := by
  cases b with
  | none => exact h.congr hget
  | some c =>
    rw [Option.map_some, Option.some_or] at hget
    rw [Holds, hget]
    exact hvalue c rfl

end Holds

theorem Holds.width_bounds {t : Table} {key : String} {w : Nat}
    (h : Holds t key Scheme.defaultWidth SaysWidth w) : 1 ≤ w ∧ w ≤ 64 := by
  unfold Holds at h
  split at h
  · subst h
    decide
  · obtain ⟨n, -, hw⟩ := h
    omega

end Settings

/-! ## Items of a command line -/

namespace Command

/-- An argument, or `--char-width` with the width that follows it. -/
inductive Item
  | single (arg : String)
  | charWidth (width : String)
  deriving DecidableEq, Repr

def items : List String → List Item
  | [] => []
  | arg :: rest =>
    if arg = "--char-width" then
      match rest with
      | [] => [.single arg]
      | width :: rest => .charWidth width :: items rest
    else .single arg :: items rest

namespace Item

def words : Item → List String
  | single arg => [arg]
  | charWidth width => ["--char-width", width]

def theme? : Item → Option Theme
  | single arg =>
    if arg = "--light" then some .light
    else if arg = "--dark" then some .dark
    else none
  | charWidth _ => none

def width? : Item → Option Nat
  | single _ => none
  | charWidth width => (number? width.toList).map Settings.clampWidth

/-- The input that an item asks for: the standard input or a file. -/
def input? : Item → Option (Option String)
  | single arg =>
    if arg = "-" then some none
    else if arg.toList.head? = some '-' then none
    else some (some arg)
  | charWidth _ => none

/-- Settings can say the same. -/
def isFlag : Item → Bool
  | single arg => ["--light", "--dark", "--no-legend", "--no-line-numbers"].contains arg
  | charWidth _ => true

/-- The reading of a command line goes on after the item. -/
def Accepted : Item → Prop
  | single arg => Argument.of arg ∉ [.help, .version, .charWidth, .unknown]
  | charWidth width => (number? width.toList).isSome

instance : DecidablePred Accepted
  | single arg => inferInstanceAs (Decidable (Argument.of arg ∉ _))
  | charWidth width => inferInstanceAs (Decidable ((number? width.toList).isSome = true))

/-- The options with what an item asks for. -/
def apply (o : Options) (i : Item) : Options where
  file := i.input?.getD o.file
  theme := i.theme?.or o.theme
  charWidth := i.width?.or o.charWidth
  list := i = single "--dump" || o.list
  noLegend := i = single "--no-legend" || o.noLegend
  noLineNumbers := i = single "--no-line-numbers" || o.noLineNumbers

end Item

theorem flatMap_items (args : List String) : (items args).flatMap Item.words = args := by
  fun_induction items args with
  | case1 => rfl
  | case2 => simp [Item.words]
  | case3 width rest ih => simp [Item.words, ih]
  | case4 arg rest harg ih => simp [Item.words, ih]

/-! ## Reading item by item -/

/-- The single arguments after which the reading goes on. -/
theorem Item.accepted_single {arg : String} (h : (Item.single arg).Accepted) :
    arg ∈ ["--light", "--dark", "--dump", "--no-legend", "--no-line-numbers", "-"] ∨
      Argument.of arg = .file ∧ arg.toList.head? ≠ some '-' := by
  unfold Accepted Argument.of at h
  unfold Argument.of
  grind

theorem read_words {i : Item} (h : i.Accepted) (o : Options) (rest : List String) :
    o.read (i.words ++ rest) = (i.apply o).read rest := by
  cases i with
  | charWidth width =>
    obtain ⟨n, hn⟩ := Option.isSome_iff_exists.mp h
    have hread : Options.readWidth width = .ok (Settings.clampWidth n) := by
      rw [Options.readWidth, hn]
    simp [Item.words, Options.read, Argument.of, hread, Item.apply, Item.input?, Item.theme?,
      Item.width?, hn]
  | single arg =>
    rcases Item.accepted_single h with harg | ⟨hof, hhead⟩
    · fin_cases harg <;> rfl
    · have hne (flag : String) (hflag : flag.toList.head? = some '-') : arg ≠ flag := by
        rintro rfl
        exact hhead hflag
      rw [Item.words, List.singleton_append, Options.read.eq_def]
      simp [hof, hhead, Item.apply, Item.input?, Item.theme?, Item.width?, hne "--light" rfl,
        hne "--dark" rfl, hne "--dump" rfl, hne "--no-legend" rfl, hne "--no-line-numbers" rfl,
        hne "-" rfl]

theorem read_words_append {is : List Item} (h : ∀ i ∈ is, i.Accepted) (o : Options)
    (rest : List String) :
    o.read (is.flatMap Item.words ++ rest) = (is.foldl Item.apply o).read rest := by
  induction is generalizing o with
  | nil => rfl
  | cons i is ih =>
    obtain ⟨hi, his⟩ := List.forall_mem_cons.mp h
    rw [List.flatMap_cons, List.append_assoc, read_words hi, ih his, List.foldl_cons]

theorem read_flatMap_words {is : List Item} (h : ∀ i ∈ is, i.Accepted) (o : Options) :
    o.read (is.flatMap Item.words) = .ok (.draw (is.foldl Item.apply o)) := by
  have hread := read_words_append h o []
  rwa [List.append_nil, Options.read] at hread

theorem of_eq_charWidth {arg : String} (h : Argument.of arg = .charWidth) :
    arg = "--char-width" := by
  unfold Argument.of at h
  grind

/-- Help, the version, an unknown option and a width that is none end the reading. -/
theorem accepted_of_read_words {i : Item} (hi : i ≠ .single "--char-width") {o p : Options}
    {rest : List String} (h : o.read (i.words ++ rest) = .ok (.draw p)) : i.Accepted := by
  cases i with
  | charWidth width =>
    cases hnumber : number? width.toList with
    | some n => simp [Item.Accepted, hnumber]
    | none => simp [Item.words, Options.read, Argument.of, Options.readWidth, hnumber] at h
  | single arg =>
    rw [Item.words, List.singleton_append, Options.read.eq_def] at h
    intro hends
    simp only [List.mem_cons, List.not_mem_nil, or_false] at hends
    rcases hends with harg | harg | harg | harg
    · simp [harg] at h
    · simp [harg] at h
    · exact hi (congrArg _ (of_eq_charWidth harg))
    · simp [harg] at h

theorem accepted_of_read {args : List String} {o p : Options} (h : o.read args = .ok (.draw p)) :
    ∀ i ∈ items args, i.Accepted := by
  have hstep {i : Item} (hi : i ≠ .single "--char-width") {o : Options} {rest : List String}
      (h : o.read (i.words ++ rest) = .ok (.draw p))
      (ih : ∀ {o : Options}, o.read rest = .ok (.draw p) → ∀ j ∈ items rest, j.Accepted) :
      ∀ j ∈ i :: items rest, j.Accepted := by
    have haccepted := accepted_of_read_words hi h
    rw [read_words haccepted] at h
    exact List.forall_mem_cons.mpr ⟨haccepted, ih h⟩
  fun_induction items args generalizing o with
  | case1 => exact fun i hi => absurd hi List.not_mem_nil
  | case2 => cases h
  | case3 width rest ih => exact hstep (by simp) h ih
  | case4 arg rest harg ih => exact hstep (by simpa using harg) h ih

/-- A command line draws if the reading goes on after each of its items. -/
theorem read_eq_draw {args : List String} {o p : Options} : o.read args = .ok (.draw p) ↔
    (∀ i ∈ items args, i.Accepted) ∧ (items args).foldl Item.apply o = p := by
  constructor
  · intro h
    have haccepted := accepted_of_read h
    refine ⟨haccepted, ?_⟩
    have hread := read_flatMap_words haccepted o
    rw [flatMap_items, h] at hread
    cases hread
    rfl
  · rintro ⟨h, rfl⟩
    simpa only [flatMap_items] using read_flatMap_words h o

/-! ## What flags ask for -/

/-- The last theme that is asked for. -/
def lastTheme (args : List String) : Option Theme :=
  ((items args).filterMap Item.theme?).getLast?

def lastWidth (args : List String) : Option Nat :=
  ((items args).filterMap Item.width?).getLast?

def asks (flag : String) (args : List String) : Bool :=
  (items args).contains (.single flag)

/-- A switch is turned off or left as it is. -/
def off (asked : Bool) : Option Bool :=
  if asked then some false else none

theorem off_getD (asked b : Bool) : (off asked).getD b = (b && !asked) := by
  cases asked <;> cases b <;> rfl

/-- The command line without what settings can say. -/
def withoutFlags (args : List String) : List String :=
  ((items args).filter (!·.isFlag)).flatMap Item.words

theorem foldl_or {α β : Type} (f : α → Option β) (l : List α) (b : Option β) :
    l.foldl (fun b a => (f a).or b) b = (l.filterMap f).getLast?.or b := by
  induction l generalizing b with
  | nil => simp
  | cons a l ih =>
    rw [List.foldl_cons, ih, List.filterMap_cons]
    cases f a with
    | none => rfl
    | some c => simp [List.getLast?_cons]

theorem foldl_contains {α : Type} [DecidableEq α] (x : α) (l : List α) (b : Bool) :
    l.foldl (fun b a => a = x || b) b = (l.contains x || b) := by
  induction l generalizing b with
  | nil => simp
  | cons a l ih =>
    rw [List.foldl_cons, ih, List.contains_cons, Bool.or_left_comm, Bool.or_assoc]
    simp [eq_comm, Bool.beq_eq_decide_eq]

section Asked

variable {args : List String} {o : Options}

/-- A field that each item may set holds what the last of those items set it to. -/
theorem last_or_of_read {α : Type} (field : Options → Option α) (f : Item → Option α)
    (hstep : ∀ o i, field (Item.apply o i) = (f i).or (field o))
    (h : Request.read args = .ok (.draw o)) :
    field o = ((items args).filterMap f).getLast?.or (field .none) := by
  have hfold : (items args).foldl (fun b i => (f i).or b) (field .none) =
      field ((items args).foldl Item.apply .none) :=
    List.foldl_hom field fun o i => (hstep o i).symm
  rw [← (read_eq_draw.mp h).2, ← hfold, foldl_or]

theorem last_of_read {α : Type} (field : Options → Option α) (f : Item → Option α)
    (hstep : ∀ o i, field (Item.apply o i) = (f i).or (field o)) (hnone : field .none = none)
    (h : Request.read args = .ok (.draw o)) :
    field o = ((items args).filterMap f).getLast? := by
  rw [last_or_of_read field f hstep h, hnone, Option.or_none]

/-- A field that one item sets holds if that item is there. -/
theorem asks_of_read (field : Options → Bool) (flag : String)
    (hstep : ∀ o i, field (Item.apply o i) = (i = .single flag || field o))
    (hnone : field .none = false) (h : Request.read args = .ok (.draw o)) :
    field o = asks flag args := by
  have hfold : (items args).foldl (fun b i => i = .single flag || b) (field .none) =
      field ((items args).foldl Item.apply .none) :=
    List.foldl_hom field fun o i => (hstep o i).symm
  rw [← (read_eq_draw.mp h).2, ← hfold, foldl_contains, hnone, Bool.or_false, asks]

theorem applyTo_of_read (h : Request.read args = .ok (.draw o)) (s : Settings) :
    o.applyTo s = { s with
      theme := (lastTheme args).getD s.theme
      charWidth := (lastWidth args).getD s.charWidth
      legend := (off (asks "--no-legend" args)).getD s.legend
      lineNumbers := (off (asks "--no-line-numbers" args)).getD s.lineNumbers } := by
  rw [Options.applyTo, last_of_read Options.theme Item.theme? (fun _ _ => rfl) rfl h,
    last_of_read Options.charWidth Item.width? (fun _ _ => rfl) rfl h,
    asks_of_read Options.noLegend "--no-legend" (fun _ _ => rfl) rfl h,
    asks_of_read Options.noLineNumbers "--no-line-numbers" (fun _ _ => rfl) rfl h,
    ← off_getD, ← off_getD, lastTheme, lastWidth]

end Asked

/-- The options without what settings can say. -/
def unflagged (o : Options) : Options :=
  { Options.none with file := o.file, list := o.list }

theorem applyTo_unflagged (o : Options) (s : Settings) : (unflagged o).applyTo s = s := by
  simp [unflagged, Options.applyTo, Options.none]

theorem unflagged_apply (o : Options) (i : Item) :
    unflagged (i.apply o) = if !i.isFlag then i.apply (unflagged o) else unflagged o := by
  cases hflag : i.isFlag with
  | true =>
    cases i with
    | charWidth width => rfl
    | single arg =>
      rw [Item.isFlag, List.contains_iff_mem] at hflag
      fin_cases hflag <;> rfl
  | false =>
    cases i with
    | charWidth width => cases hflag
    | single arg =>
      simp only [Item.isFlag, List.contains_eq_mem, decide_eq_false_iff_not, List.mem_cons,
        not_or] at hflag
      simp [unflagged, Item.apply, Item.theme?, Item.width?, hflag, Options.none]

theorem read_withoutFlags {args : List String} {o : Options}
    (h : Request.read args = .ok (.draw o)) :
    Request.read (withoutFlags args) = .ok (.draw (unflagged o)) := by
  obtain ⟨haccepted, rfl⟩ := read_eq_draw.mp h
  have hkept : ∀ i ∈ (items args).filter (!·.isFlag), i.Accepted :=
    fun i hi => haccepted i (List.mem_of_mem_filter hi)
  have hfold :
      (items args).foldl (fun o i => if !i.isFlag then i.apply o else o) (unflagged .none) =
        unflagged ((items args).foldl Item.apply .none) :=
    List.foldl_hom unflagged fun o i => (unflagged_apply o i).symm
  rw [← hfold, ← List.foldl_filter]
  exact read_flatMap_words hkept .none

/-! ## Settings that ask for the same -/

/-- The table that says what the flags ask for, and else what it said before. -/
def rewritten (args : List String) (t : Table) : Table :=
  t |>.amend "theme" ((lastTheme args).map fun theme => .scalar (.string theme.word))
    |>.amend "char-width" ((lastWidth args).map fun n : Nat => .scalar (.integer n))
    |>.amend "legend" ((off (asks "--no-legend" args)).map fun b => .scalar (.boolean b))
    |>.amend "line-numbers"
      ((off (asks "--no-line-numbers" args)).map fun b => .scalar (.boolean b))

theorem says_theme (theme : Theme) :
    Settings.SaysTheme (.scalar (.string theme.word)) theme := by
  cases theme <;> exact ⟨_, rfl, by decide⟩

theorem lastWidth_bounds {args : List String} {n : Nat} (h : lastWidth args = some n) :
    1 ≤ n ∧ n ≤ 64 := by
  obtain ⟨i, -, hi⟩ := List.mem_filterMap.mp (List.mem_of_getLast? h)
  cases i with
  | single arg => cases hi
  | charWidth width =>
    obtain ⟨m, -, rfl⟩ := Option.map_eq_some_iff.mp hi
    exact Settings.clampWidth_bounds m

theorem says_lastWidth {args : List String} {n : Nat} (h : lastWidth args = some n) :
    Settings.SaysWidth (.scalar (.integer n)) n := by
  have hbounds := lastWidth_bounds h
  exact ⟨n, rfl, by omega⟩

theorem means_rewritten {args : List String} {o : Options} {t : Table} {s : Settings}
    (hargs : Request.read args = .ok (.draw o)) (ht : Settings.Means t s) :
    Settings.Means (rewritten args t) (o.applyTo s) := by
  rw [applyTo_of_read hargs]
  constructor
  case theme =>
    exact ht.theme.amended (fun theme => .scalar (.string theme.word)) (fun _ _ => says_theme _)
      (by simp [rewritten])
  case charWidth =>
    exact ht.charWidth.amended (fun n => .scalar (.integer n)) (fun _ => says_lastWidth)
      (by simp [rewritten])
  case cellWidth => exact ht.cellWidth.congr (by simp [rewritten])
  case legend =>
    exact ht.legend.amended (fun b => .scalar (.boolean b)) (fun _ _ => .inl rfl)
      (by simp [rewritten])
  case lineNumbers =>
    exact ht.lineNumbers.amended (fun b => .scalar (.boolean b)) (fun _ _ => .inl rfl)
      (by simp [rewritten])
  case overrides => exact ht.overrides.congr (by simp [rewritten])

theorem warnings_rewritten (args : List String) (t : Table) :
    Settings.warnings (rewritten args t) = Settings.warnings t := by
  have htheme : "theme" ∈ Settings.knownKeys := by decide
  have hchar : "char-width" ∈ Settings.knownKeys := by decide
  have hlegend : "legend" ∈ Settings.knownKeys := by decide
  have hnumbers : "line-numbers" ∈ Settings.knownKeys := by decide
  rw [rewritten, Settings.warnings_amend hnumbers, Settings.warnings_amend hlegend,
    Settings.warnings_amend hchar, Settings.warnings_amend htheme]

theorem answer_of_values {args : List String} {o : Options} {t : Table} {s : Settings}
    (hargs : Request.read args = .ok (.draw o)) (ht : Settings.values t = .ok s)
    (w : Surroundings) :
    answer args (Settings.ofTable t) w =
      draw o.file o.list (o.applyTo s) (Settings.warnings t) w := by
  rw [answer, hargs, (Settings.ofTable_eq_ok t).mpr ⟨ht, rfl⟩]

/-- Once the settings have been read, a run does not look at their file any more. -/
theorem run_of_gives {f : SettingsFile} {t : Table} (h : f.Gives t) (args : List String)
    (w : Surroundings) :
    run args { w with settings := f } = answer args (Settings.ofTable t) w := by
  rw [run, SettingsFile.load_of_gives h]
  rfl

/-- Flags come to the same as a settings file that says what they ask for: what is written is the
same, on the error stream too, and so is what there is to tell of the file. The colors of the file
lie on top of the theme that is asked for, and the widths are from 1 to 64. -/
theorem run_rewritten {args : List String} {o : Options} {t : Table} {s : Settings}
    (hargs : Request.read args = .ok (.draw o)) (ht : Settings.values t = .ok s) :
    (∀ w, answer args (Settings.ofTable t) w =
        answer (withoutFlags args) (Settings.ofTable (rewritten args t)) w) ∧
      (∀ (w : Surroundings) (f g : SettingsFile), f.Gives t → g.Gives (rewritten args t) →
        run args { w with settings := f } = run (withoutFlags args) { w with settings := g }) ∧
      Settings.warnings (rewritten args t) = Settings.warnings t ∧
      ∃ r, Settings.values (rewritten args t) = .ok r ∧
        (∀ w, answer args (Settings.ofTable t) w =
          draw o.file o.list r (Settings.warnings t) w) ∧
        r.palette = (Palette.ofTheme ((lastTheme args).getD s.theme)).override? s.overrides ∧
        (1 ≤ r.charWidth ∧ r.charWidth ≤ 64) ∧ 1 ≤ r.cellWidth ∧ r.cellWidth ≤ 64 := by
  have hmeans := means_rewritten hargs ((Settings.values_eq_ok t).mp ht)
  have hvalues := (Settings.values_eq_ok _).mpr hmeans
  have hanswer (w : Surroundings) : answer args (Settings.ofTable t) w =
      answer (withoutFlags args) (Settings.ofTable (rewritten args t)) w := by
    rw [answer_of_values hargs ht, answer_of_values (read_withoutFlags hargs) hvalues,
      applyTo_unflagged, warnings_rewritten]
    rfl
  refine ⟨hanswer, ?_, warnings_rewritten args t, o.applyTo s, hvalues, answer_of_values hargs ht,
    ?_, hmeans.charWidth.width_bounds, hmeans.cellWidth.width_bounds⟩
  · intro w f g hf hg
    rw [run_of_gives hf, run_of_gives hg, hanswer]
  · rw [applyTo_of_read hargs]
    rfl

/-- Of two themes the last one counts, a width above the greatest one is lowered, and a flag may
stand after the file. -/
theorem run_rewritten_last :
    run ["--dark", "--char-width", "99", "a.rs", "--no-legend", "--light"]
        ⟨.present "legend = true".toByteArray, fun _ => .ok "x".toByteArray, .empty, some 40, id,
          Warning.message⟩ =
      run ["a.rs"]
        ⟨.present "char-width = 64\nlegend = false\ntheme = 'light'".toByteArray,
          fun _ => .ok "x".toByteArray, .empty, some 40, id, Warning.message⟩ := by
  have hargs : Request.read ["--dark", "--char-width", "99", "a.rs", "--no-legend", "--light"] =
      .ok (.draw ⟨some "a.rs", some .light, some 64, false, true, false⟩) := by
    cbv
  have ht : Settings.values [("legend", .scalar (.boolean true))] = .ok Settings.standard := by
    cbv
  have hbefore : Table.read? "legend = true".toList =
      some [("legend", .scalar (.boolean true))] := by
    cbv
  have hafter : Table.read? "char-width = 64\nlegend = false\ntheme = 'light'".toList =
      some (rewritten ["--dark", "--char-width", "99", "a.rs", "--no-legend", "--light"]
        [("legend", .scalar (.boolean true))]) := by
    cbv
  have hrest : withoutFlags ["--dark", "--char-width", "99", "a.rs", "--no-legend", "--light"] =
      ["a.rs"] := by
    cbv
  have hrun := (run_rewritten hargs ht).2.1
    ⟨.absent, fun _ => .ok "x".toByteArray, .empty, some 40, id, Warning.message⟩
    (.present "legend = true".toByteArray)
    (.present "char-width = 64\nlegend = false\ntheme = 'light'".toByteArray)
    ⟨_, rfl, hbefore⟩ ⟨_, rfl, hafter⟩
  rwa [hrest] at hrun

end Command

end Ribbon
