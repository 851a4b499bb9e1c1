import Mathlib
import Ribbon.Command.Run
import Ribbon.Proofs.Keywise

/-!
# How runs end

A run ends in the first thing that settles it: refused arguments, help or the version, refused
settings, an input that is no text, a listing, a refused palette, or a chart. What comes after that
is not looked at. Nothing is written before a fault but what is logged: the keys of the settings
file that have no meaning, as soon as the settings have been accepted.
-/

namespace Ribbon

open Toml

/-! ## Settings -/

namespace SettingsFile

/-- What there is to read in the settings file. No file is an empty one. -/
def Gives : SettingsFile → Table → Prop
  | noHome, t | absent, t => t = []
  | directory, _ => False
  | present bytes, t => ∃ text : String, bytes = text.toByteArray ∧ Table.read? text.toList = some t

theorem load_of_gives {f : SettingsFile} {t : Table} (h : f.Gives t) (explain : String → String) :
    f.load explain = Settings.ofTable t := by
  cases f with
  | noHome | absent =>
    rw [Gives] at h
    rw [h]
    rfl
  | directory => cases h
  | present bytes =>
    obtain ⟨text, hbytes, hread⟩ := h
    rw [load, textOf_eq_ok.mpr hbytes]
    change Settings.read explain text = _
    rw [Settings.read, hread]

theorem exists_gives_of_load {f : SettingsFile} {explain : String → String} {s : Settings}
    {ws : List Warning} (h : f.load explain = .ok (s, ws)) :
    ∃ t, f.Gives t ∧ Settings.ofTable t = .ok (s, ws) := by
  cases f with
  | noHome | absent => exact ⟨[], rfl, h⟩
  | directory => cases h
  | present bytes =>
    obtain ⟨text, hbytes, hread⟩ := bind_eq_ok.mp h
    unfold Settings.read at hread
    split at hread
    · cases hread
    · rename_i t ht
      exact ⟨t, ⟨text, textOf_eq_ok.mp hbytes, ht⟩, hread⟩

end SettingsFile

namespace Command

/-! ## Inputs -/

/-- The bytes of the file that is asked for, or of the standard input. -/
def given (w : Surroundings) : Option String → Except ReadFault ByteArray
  | some path => w.file path
  | none => .ok w.standardInput

/-- Why an input cannot be drawn. -/
inductive NoText (w : Surroundings) (file : Option String) : ReadFault → Prop
  | unread {cause : ReadFault} (h : given w file = .error cause) : NoText w file cause
  | binary {bytes : ByteArray} (h : given w file = .ok bytes) (hbytes : ¬ bytes.IsValidUTF8) :
    NoText w file .notText

def HasText (w : Surroundings) (file : Option String) (text : String) : Prop :=
  given w file = .ok text.toByteArray

section Input

variable (w : Surroundings) (file : Option String)

theorem source_eq : source w file = (given w file).mapError .reading >>= textOf := by
  cases file <;> rfl

theorem mapError_eq_ok {ε δ α : Type} {x : Except ε α} {f : ε → δ} {a : α} :
    x.mapError f = .ok a ↔ x = .ok a := by
  cases x with
  | error e => exact ⟨nofun, nofun⟩
  | ok b =>
    constructor
    · rintro ⟨⟩
      rfl
    · rintro ⟨⟩
      rfl

theorem mapError_eq_error {ε δ α : Type} {x : Except ε α} {f : ε → δ} {d : δ} :
    x.mapError f = .error d ↔ ∃ e, x = .error e ∧ f e = d := by
  cases x with
  | error e =>
    constructor
    · rintro ⟨⟩
      exact ⟨e, rfl, rfl⟩
    · rintro ⟨-, ⟨⟩, rfl⟩
      rfl
  | ok b => exact ⟨nofun, nofun⟩

theorem source_eq_ok {text : String} : source w file = .ok text ↔ HasText w file text := by
  simp [source_eq, bind_eq_ok, mapError_eq_ok, textOf_eq_ok, HasText]

theorem source_eq_error {e : Fault} :
    source w file = .error e ↔ ∃ cause, NoText w file cause ∧ e = .reading cause := by
  rw [source_eq, bind_eq_error, mapError_eq_error]
  simp only [mapError_eq_ok, textOf_eq_error]
  constructor
  · rintro (⟨cause, h, rfl⟩ | ⟨bytes, h, hbytes, rfl⟩)
    · exact ⟨cause, .unread h, rfl⟩
    · exact ⟨.notText, .binary h hbytes, rfl⟩
  · rintro ⟨cause, hcause, rfl⟩
    cases hcause with
    | unread h => exact .inl ⟨cause, h, rfl⟩
    | binary h hbytes => exact .inr ⟨_, h, hbytes, rfl⟩

end Input

/-! ## Endings -/

/-- The strips of a text under the width that the options ask for or else the settings give. -/
def stripsOf (o : Options) (s : Settings) (text : String) : List Strip :=
  (Scheme.standard (o.charWidth.getD s.charWidth)).strips text.toList

/-- The colors of the settings on top of the theme that is asked for or else given. -/
def paletteOf (o : Options) (s : Settings) : Except Fault Palette :=
  (Palette.ofTheme (o.theme.getD s.theme)).override? s.overrides

def chartOf (o : Options) (s : Settings) (p : Palette) : Chart where
  palette := p
  cellWidth := s.cellWidth
  lineNumbers := s.lineNumbers && !o.noLineNumbers
  legend := s.legend && !o.noLegend

/-- The ways for a run to end, each where none before it applies. -/
inductive Ends (args : List String) (w : Surroundings) : Outcome → Prop
  | arguments {e : Fault} (hargs : Request.read args = .error e) : Ends args w (.failure "" e)
  | help (hargs : Request.read args = .ok .help) : Ends args w (.success "" helpText)
  | version (hargs : Request.read args = .ok .version) :
    Ends args w (.success "" (versionText ++ "\n"))
  | settings {o : Options} {e : Fault} (hargs : Request.read args = .ok (.draw o))
    (hload : w.settings.load w.explain = .error e) : Ends args w (.failure "" e)
  | input {o : Options} {s : Settings} {ws : List Warning} {cause : ReadFault}
    (hargs : Request.read args = .ok (.draw o)) (hload : w.settings.load w.explain = .ok (s, ws))
    (hinput : NoText w o.file cause) : Ends args w (.failure (w.log ws) (.reading cause))
  | listing {o : Options} {s : Settings} {ws : List Warning} {text : String}
    (hargs : Request.read args = .ok (.draw o)) (hload : w.settings.load w.explain = .ok (s, ws))
    (hinput : HasText w o.file text) (hlist : o.list = true) :
    Ends args w (.success (w.log ws) (String.ofList (Ribbon.listing (stripsOf o s text))))
  | palette {o : Options} {s : Settings} {ws : List Warning} {text : String} {e : Fault}
    (hargs : Request.read args = .ok (.draw o)) (hload : w.settings.load w.explain = .ok (s, ws))
    (hinput : HasText w o.file text) (hlist : o.list = false)
    (hpalette : paletteOf o s = .error e) : Ends args w (.failure (w.log ws) e)
  | chart {o : Options} {s : Settings} {ws : List Warning} {text : String} {p : Palette}
    (hargs : Request.read args = .ok (.draw o)) (hload : w.settings.load w.explain = .ok (s, ws))
    (hinput : HasText w o.file text) (hlist : o.list = false) (hpalette : paletteOf o s = .ok p) :
    Ends args w (.success (w.log ws) (String.ofList (Stroke.encodeAll
      ((chartOf o s p).draw w.width (stripsOf o s text)))))

variable {args : List String} {w : Surroundings}

section Drawing

variable {o : Options} {s : Settings} {text : String}

theorem drawing_listing (columns : Nat) :
    drawing columns true (o.applyTo s) text =
      .ok (String.ofList (Ribbon.listing (stripsOf o s text)), []) :=
  rfl

theorem drawing_refused {e : Fault} (h : paletteOf o s = .error e) (columns : Nat) :
    drawing columns false (o.applyTo s) text = .error e :=
  bind_eq_error.mpr (.inl h)

/-- A palette of settings lacks no color, so there is nothing to tell of it. -/
theorem drawing_chart {p : Palette} (h : paletteOf o s = .ok p) (columns : Nat) :
    drawing columns false (o.applyTo s) text =
      .ok (String.ofList (Stroke.encodeAll
        ((chartOf o s p).draw columns (stripsOf o s text))), []) := by
  have hwarnings : (chartOf o s p).warnings = [] :=
    Chart.warnings_eq_nil (Palette.missing_of_override? (Palette.missing_ofTheme _) h)
  rw [← hwarnings]
  exact bind_eq_ok.mpr ⟨p, h, rfl⟩

end Drawing

section Draw

variable {file : Option String} {list : Bool} {s : Settings} {ws : List Warning} {text : String}

theorem draw_of_noText {cause : ReadFault} (hinput : NoText w file cause) :
    draw file list s ws w = .failure (w.log ws) (.reading cause) := by
  have hsource := (source_eq_error w file).mpr ⟨cause, hinput, rfl⟩
  have hdrawn : source w file >>= drawing w.width list s = .error (.reading cause) :=
    bind_eq_error.mpr (.inl hsource)
  rw [draw, hdrawn]

theorem draw_of_refused {e : Fault} (hinput : HasText w file text)
    (h : drawing w.width list s text = .error e) :
    draw file list s ws w = .failure (w.log ws) e := by
  have hdrawn : source w file >>= drawing w.width list s = .error e :=
    bind_eq_error.mpr (.inr ⟨text, (source_eq_ok w file).mpr hinput, h⟩)
  rw [draw, hdrawn]

theorem draw_of_drawing {out : String} (hinput : HasText w file text)
    (h : drawing w.width list s text = .ok (out, [])) :
    draw file list s ws w = .success (w.log ws) out := by
  have hdrawn : source w file >>= drawing w.width list s = .ok (out, []) :=
    bind_eq_ok.mpr ⟨text, (source_eq_ok w file).mpr hinput, h⟩
  rw [draw, hdrawn]
  simp only [List.append_nil]

end Draw

theorem run_of_load {o : Options} {s : Settings} {ws : List Warning}
    (hargs : Request.read args = .ok (.draw o)) (hload : w.settings.load w.explain = .ok (s, ws)) :
    run args w = draw o.file o.list (o.applyTo s) ws w := by
  rw [run, answer, hargs, hload]

theorem run_of_ends {x : Outcome} (h : Ends args w x) : run args w = x := by
  cases h with
  | arguments hargs => rw [run, answer, hargs]
  | help hargs => rw [run, answer, hargs]
  | version hargs => rw [run, answer, hargs]
  | settings hargs hload => rw [run, answer, hargs, hload]
  | input hargs hload hinput => rw [run_of_load hargs hload, draw_of_noText hinput]
  | listing hargs hload hinput hlist =>
    rw [run_of_load hargs hload, hlist, draw_of_drawing hinput (drawing_listing _)]
  | palette hargs hload hinput hlist hpalette =>
    rw [run_of_load hargs hload, hlist, draw_of_refused hinput (drawing_refused hpalette _)]
  | chart hargs hload hinput hlist hpalette =>
    rw [run_of_load hargs hload, hlist, draw_of_drawing hinput (drawing_chart hpalette _)]

/-- Some way applies. -/
theorem exists_ends (args : List String) (w : Surroundings) : ∃ x, Ends args w x := by
  cases hargs : Request.read args with
  | error e => exact ⟨_, .arguments hargs⟩
  | ok request =>
    cases request with
    | help => exact ⟨_, .help hargs⟩
    | version => exact ⟨_, .version hargs⟩
    | draw o =>
      cases hload : w.settings.load w.explain with
      | error e => exact ⟨_, .settings hargs hload⟩
      | ok loaded =>
        cases hsource : source w o.file with
        | error e =>
          obtain ⟨cause, hinput, -⟩ := (source_eq_error w _).mp hsource
          exact ⟨_, .input hargs hload hinput⟩
        | ok text =>
          have hinput := (source_eq_ok w _).mp hsource
          cases hlist : o.list with
          | true => exact ⟨_, .listing hargs hload hinput hlist⟩
          | false =>
            cases hpalette : paletteOf o loaded.1 with
            | error e => exact ⟨_, .palette hargs hload hinput hlist hpalette⟩
            | ok p => exact ⟨_, .chart hargs hload hinput hlist hpalette⟩

theorem ends_iff (x : Outcome) : Ends args w x ↔ run args w = x := by
  constructor
  · exact run_of_ends
  · rintro rfl
    obtain ⟨x, hx⟩ := exists_ends args w
    rwa [run_of_ends hx]

/-! ## What is logged -/

/-- What there is to tell before a run ends: the keys without a meaning, if the run comes to accept
the settings. -/
inductive Told (args : List String) (w : Surroundings) : List Warning → Prop
  | nothing (h : ∀ o s ws, Request.read args = .ok (.draw o) →
      w.settings.load w.explain ≠ .ok (s, ws)) : Told args w []
  | settings {o : Options} {s : Settings} {t : Table} (hargs : Request.read args = .ok (.draw o))
    (ht : w.settings.Gives t) (hvalues : Settings.values t = .ok s) :
    Told args w ((Settings.unknownKeys t).map .unknownKey)

theorem told_of_load {o : Options} {s : Settings} {ws : List Warning}
    (hargs : Request.read args = .ok (.draw o)) (hload : w.settings.load w.explain = .ok (s, ws)) :
    Told args w ws := by
  obtain ⟨t, ht, hloaded⟩ := SettingsFile.exists_gives_of_load hload
  obtain ⟨hvalues, rfl⟩ := (Settings.ofTable_eq_ok t).mp hloaded
  rw [Settings.warnings_eq]
  exact .settings hargs ht hvalues

theorem told_of_not_draw (h : ∀ o, Request.read args ≠ .ok (.draw o)) : Told args w [] :=
  .nothing fun o _ _ hargs => absurd hargs (h o)

/-- A run tells what there is to tell, and a fault if there is one. -/
theorem exists_told {x : Outcome} (h : Ends args w x) : ∃ ws, Told args w ws ∧
    ((∃ e, x = .failure (w.log ws) e) ∨ ∃ text, x = .success (w.log ws) text) := by
  cases h with
  | arguments hargs => exact ⟨[], told_of_not_draw (by simp [hargs]), .inl ⟨_, rfl⟩⟩
  | help hargs => exact ⟨[], told_of_not_draw (by simp [hargs]), .inr ⟨_, rfl⟩⟩
  | version hargs => exact ⟨[], told_of_not_draw (by simp [hargs]), .inr ⟨_, rfl⟩⟩
  | settings hargs hload => exact ⟨[], .nothing (by simp [hload]), .inl ⟨_, rfl⟩⟩
  | input hargs hload _ => exact ⟨_, told_of_load hargs hload, .inl ⟨_, rfl⟩⟩
  | listing hargs hload _ _ => exact ⟨_, told_of_load hargs hload, .inr ⟨_, rfl⟩⟩
  | palette hargs hload _ _ _ => exact ⟨_, told_of_load hargs hload, .inl ⟨_, rfl⟩⟩
  | chart hargs hload _ _ _ => exact ⟨_, told_of_load hargs hload, .inr ⟨_, rfl⟩⟩

/-- The error stream holds a fault, or nothing if there is none. -/
structure Silent (x : Outcome) : Prop where
  fault : x.exitCode = 1 → ∃ e : Fault, x.errors = "Error: " ++ e.message ++ "\n"
  fine : x.exitCode = 0 → x.errors = ""

/-- A run ends in just one way, the first that applies. Help and the version look at nothing around
the run. A fault is all that a run tells, besides what is logged, and a run without one tells no
fault. So the error stream is silent where nothing is logged. -/
theorem run_ends (args : List String) (w : Surroundings) :
    (∀ x, Ends args w x ↔ run args w = x) ∧
      (Request.read args = .ok .help ∨ Request.read args = .ok .version →
        ∀ v, run args v = run args w) ∧
      ∃ ws, Told args w ws ∧
        ((∃ e : Fault, run args w = ⟨1, "", w.log ws ++ "Error: " ++ e.message ++ "\n"⟩) ∨
          ∃ text, run args w = ⟨0, text, w.log ws⟩) ∧
        (w.log ws = "" → Silent (run args w)) := by
  refine ⟨ends_iff, ?_, ?_⟩
  · rintro (hargs | hargs) v
    · rw [run_of_ends (.help hargs), run_of_ends (.help hargs)]
    · rw [run_of_ends (.version hargs), run_of_ends (.version hargs)]
  · obtain ⟨x, hx⟩ := exists_ends args w
    obtain ⟨ws, htold, houtcome⟩ := exists_told hx
    rw [run_of_ends hx]
    refine ⟨ws, htold, houtcome, fun hlog => ?_⟩
    rcases houtcome with ⟨e, rfl⟩ | ⟨text, rfl⟩
    · refine ⟨fun _ => ⟨e, ?_⟩, nofun⟩
      rw [Outcome.failure, hlog, String.empty_append]
    · exact ⟨nofun, fun _ => hlog⟩

/-- The settings are looked at before the input, and help before what is wrong after it. -/
theorem run_ends_first :
    run ["--dump", "x"] ⟨.directory, fun _ => .error .notFound, .empty, none, id, Warning.message⟩ =
        .failure "" (.reading .isDirectory) ∧
      run ["-h", "--bogus"]
          ⟨.directory, fun _ => .error .notFound, .empty, none, id, Warning.message⟩ =
        run ["-h", "--bogus"] ⟨.absent, fun _ => .ok .empty, .empty, some 80, id, fun _ => ""⟩ := by
  constructor
  · exact ((run_ends ["--dump", "x"]
      ⟨.directory, fun _ => .error .notFound, .empty, none, id, Warning.message⟩).1 _).mp
      (.settings rfl rfl)
  · exact (run_ends _ _).2.1 (.inl rfl) _

/-- Nothing but a settings file, and a log of the bare warnings. -/
def settingsAlone (text : String) : Surroundings :=
  ⟨.present text.toByteArray, fun _ => .error .notFound, .empty, none, id, Warning.message⟩

/-- A key without a meaning is told of, though nothing goes wrong. -/
theorem not_silent_unknown_key : ¬ Silent (run ["--dump"] (settingsAlone "x = 1")) := by
  have hread : Settings.read id "x = 1" = .ok (.standard, [.unknownKey "x"]) := by
    cbv
  have hload : (settingsAlone "x = 1").settings.load id = .ok (.standard, [.unknownKey "x"]) :=
    bind_eq_ok.mpr ⟨_, textOf_eq_ok.mpr rfl, hread⟩
  have hargs : Request.read ["--dump"] = .ok (.draw ⟨none, none, none, true, false, false⟩) := rfl
  have hinput : HasText (settingsAlone "x = 1") none "" :=
    congrArg Except.ok String.toByteArray_empty.symm
  have hrun := run_of_ends (Ends.listing hargs hload hinput rfl)
  intro h
  rw [hrun] at h
  have herrors : Warning.message (.unknownKey "x") = "" := h.fine rfl
  revert herrors
  decide

end Command

end Ribbon
