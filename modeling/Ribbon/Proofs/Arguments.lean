import Ribbon.Proofs.Flags

/-!
# What arguments come to

Arguments are taken item by item, and the first item that ends the reading settles what comes of
them all. Where there is none, each option is as the last item about it has it.
-/

namespace Ribbon

open Text

namespace Text

/-- A text stands for a number of less than 64 bits: a plus sign at most, and then digits, one at
least. -/
def Denotes (s : List Char) (n : Nat) : Prop :=
  ∃ digits, (s = digits ∨ s = '+' :: digits) ∧ digits ≠ [] ∧ (∀ c ∈ digits, c.isDigit = true) ∧
    Nat.ofDigitChars 10 digits 0 = n ∧ n < 2 ^ 64

theorem digitsValue?_eq_some {s : List Char} {n : Nat} : digitsValue? s = some n ↔
    s ≠ [] ∧ (∀ c ∈ s, c.isDigit = true) ∧ Nat.ofDigitChars 10 s 0 = n := by
  have hvalue : s.foldl (fun n c => 10 * n + (c.toNat - 48)) 0 = Nat.ofDigitChars 10 s 0 := rfl
  have hrefused : (s.isEmpty || !s.all Char.isDigit) = true ↔
      ¬ (s ≠ [] ∧ ∀ c ∈ s, c.isDigit = true) := by
    simp [imp_iff_not_or]
  unfold digitsValue?
  rw [hvalue, ← and_assoc]
  split
  · rename_i h
    exact iff_of_false nofun fun hn => hrefused.mp h hn.1
  · rename_i h
    rw [hrefused, not_not] at h
    rw [Option.some.injEq, and_iff_right h]

theorem number?_eq_some {s : List Char} {n : Nat} : number? s = some n ↔ Denotes s n := by
  have hsize : Word.size = 2 ^ 64 := rfl
  unfold number?
  simp only [Option.filter_eq_some_iff, digitsValue?_eq_some, hsize, decide_eq_true_eq]
  unfold Denotes
  split
  · rename_i r
    constructor
    · rintro ⟨⟨hne, hdigits, hn⟩, hlt⟩
      exact ⟨r, .inr rfl, hne, hdigits, hn, hlt⟩
    · rintro ⟨digits, h | h, hne, hdigits, hn, hlt⟩
      · -- A plus sign is no digit.
        have hplus := hdigits '+' (h ▸ List.mem_cons_self)
        cases hplus
      · obtain rfl := (List.cons.inj h).2
        exact ⟨⟨hne, hdigits, hn⟩, hlt⟩
  · rename_i hplus
    constructor
    · rintro ⟨⟨hne, hdigits, hn⟩, hlt⟩
      exact ⟨s, .inl rfl, hne, hdigits, hn, hlt⟩
    · rintro ⟨digits, rfl | h, hne, hdigits, hn, hlt⟩
      · exact ⟨⟨hne, hdigits, hn⟩, hlt⟩
      · exact absurd h (hplus digits)

end Text

namespace Command

/-! ## Items of arguments -/

/-- A width is taken by the option before it, so an option without one is the last argument. -/
def WidthsTaken (is : List Item) : Prop :=
  ∀ before after, is = before ++ .single "--char-width" :: after → after = []

theorem WidthsTaken.tail {i : Item} {is : List Item} (h : WidthsTaken (i :: is)) : WidthsTaken is :=
  fun before after his => h (i :: before) after (by rw [his, List.cons_append])

theorem items_flatMap_words {is : List Item} (h : WidthsTaken is) :
    items (is.flatMap Item.words) = is := by
  induction is with
  | nil => rfl
  | cons i is ih =>
    have hrest := ih h.tail
    cases i with
    | charWidth width => simp [Item.words, items, hrest]
    | single arg =>
      by_cases harg : arg = "--char-width"
      · subst harg
        rw [h [] is rfl]
        rfl
      · rw [List.flatMap_cons, Item.words, List.singleton_append, items.eq_def]
        simp [hrest, harg]

theorem widthsTaken_items (args : List String) : WidthsTaken (items args) := by
  intro before after h
  fun_induction items args generalizing before with
  | case1 => simp at h
  | case2 =>
    cases before with
    | nil => simpa using h.symm
    | cons j before => simp at h
  | case3 width rest ih =>
    cases before with
    | nil => cases h
    | cons j before => exact ih before (List.cons.inj h).2
  | case4 arg rest harg ih =>
    cases before with
    | nil => simp at h; exact absurd h.1 harg
    | cons j before => exact ih before (List.cons.inj h).2

/-! ## Items that end the reading -/

/-- The arguments that ask for something by their words. -/
def known : List String :=
  ["--help", "-h", "--version", "-V", "--light", "--dark", "--dump", "--no-legend",
    "--no-line-numbers", "--char-width", "-"]

/-- An item that ends the reading, and what is answered then. -/
inductive Stops : Item → Except Fault Request → Prop
  | help {arg : String} (harg : arg = "--help" ∨ arg = "-h") : Stops (.single arg) (.ok .help)
  | version {arg : String} (harg : arg = "--version" ∨ arg = "-V") :
    Stops (.single arg) (.ok .version)
  | noWidth : Stops (.single "--char-width") (.error (.valueMissing "--char-width"))
  | width {value : String} (hvalue : ∀ n, ¬ Denotes value.toList n) :
    Stops (.charWidth value) (.error (.value "--char-width" value))
  | unknown {arg : String} (hdash : arg.toList.head? = some '-') (harg : arg ∉ known) :
    Stops (.single arg) (.error (.unknownOption arg))

theorem of_eq_help {arg : String} (h : Argument.of arg = .help) : arg = "--help" ∨ arg = "-h" := by
  unfold Argument.of at h
  grind

theorem of_eq_version {arg : String} (h : Argument.of arg = .version) :
    arg = "--version" ∨ arg = "-V" := by
  unfold Argument.of at h
  grind

theorem of_ne_unknown : ∀ arg ∈ known, Argument.of arg ≠ .unknown := by decide

theorem of_eq_unknown {arg : String} (h : Argument.of arg = .unknown) :
    arg.toList.head? = some '-' ∧ arg ∉ known := by
  refine ⟨?_, fun harg => of_ne_unknown arg harg h⟩
  unfold Argument.of at h
  grind

theorem of_unknown {arg : String} (hdash : arg.toList.head? = some '-') (harg : arg ∉ known) :
    Argument.of arg = .unknown := by
  simp only [known, List.mem_cons, List.not_mem_nil, or_false, not_or] at harg
  simp [Argument.of, hdash, harg]

theorem number?_eq_none {value : String} (h : ∀ n, ¬ Denotes value.toList n) :
    number? value.toList = none :=
  Option.eq_none_iff_forall_ne_some.mpr fun n hn => h n (number?_eq_some.mp hn)

theorem Stops.not_accepted {i : Item} {r : Except Fault Request} (h : Stops i r) : ¬ i.Accepted := by
  cases h with
  | help harg => rcases harg with rfl | rfl <;> simp [Item.Accepted, Argument.of]
  | version harg => rcases harg with rfl | rfl <;> simp [Item.Accepted, Argument.of]
  | noWidth => simp [Item.Accepted, Argument.of]
  | width hvalue => simp [Item.Accepted, number?_eq_none hvalue]
  | unknown hdash harg => simp [Item.Accepted, of_unknown hdash harg]

theorem exists_stops {i : Item} (h : ¬ i.Accepted) : ∃ r, Stops i r := by
  cases i with
  | charWidth value =>
    refine ⟨_, .width fun n hn => h ?_⟩
    rw [Item.Accepted, number?_eq_some.mpr hn]
    rfl
  | single arg =>
    rw [Item.Accepted, not_not] at h
    simp only [List.mem_cons, List.not_mem_nil, or_false] at h
    rcases h with hof | hof | hof | hof
    · exact ⟨_, .help (of_eq_help hof)⟩
    · exact ⟨_, .version (of_eq_version hof)⟩
    · obtain rfl := of_eq_charWidth hof
      exact ⟨_, .noWidth⟩
    · obtain ⟨hdash, harg⟩ := of_eq_unknown hof
      exact ⟨_, .unknown hdash harg⟩

/-- Whatever comes after the item, except that a width might. -/
theorem read_of_stops {i : Item} {r : Except Fault Request} (h : Stops i r) (o : Options)
    {rest : List String} (hrest : i = .single "--char-width" → rest = []) :
    o.read (i.words ++ rest) = r := by
  cases h with
  | help harg => rcases harg with rfl | rfl <;> rfl
  | version harg => rcases harg with rfl | rfl <;> rfl
  | noWidth =>
    rw [hrest rfl]
    rfl
  | width hvalue =>
    simp [Item.words, Options.read, Argument.of, Options.readWidth, number?_eq_none hvalue]
  | unknown hdash harg =>
    rw [Item.words, List.singleton_append, Options.read.eq_def]
    simp [of_unknown hdash harg]

/-! ## Items in order -/

theorem forall_not_stops {i : Item} : (∀ r, ¬ Stops i r) ↔ i.Accepted := by
  constructor
  · intro h
    by_contra hno
    obtain ⟨r, hr⟩ := exists_stops hno
    exact h r hr
  · exact fun h r hr => hr.not_accepted h

/-- The first item that ends the reading settles what comes of it. -/
theorem read_of_first {before : List Item} (hbefore : ∀ j ∈ before, j.Accepted) {i : Item}
    {r : Except Fault Request} (h : Stops i r) {rest : List String}
    (hrest : i = .single "--char-width" → rest = []) :
    Request.read (before.flatMap Item.words ++ (i.words ++ rest)) = r := by
  rw [Request.read, read_words_append hbefore, read_of_stops h _ hrest]

def Item.value? : Item → Option String
  | single _ => none
  | charWidth value => some value

/-- What items ask for: of those about one thing the last one counts. -/
structure Asks (is : List Item) (o : Options) : Prop where
  theme : o.theme = (is.filterMap Item.theme?).getLast?
  charWidth : ∀ n, o.charWidth = some n ↔ ∃ value m,
    (is.filterMap Item.value?).getLast? = some value ∧ Denotes value.toList m ∧ n = min 64 (max 1 m)
  file : o.file = (is.filterMap Item.input?).getLast?.join
  list : o.list = true ↔ .single "--dump" ∈ is
  noLegend : o.noLegend = true ↔ .single "--no-legend" ∈ is
  noLineNumbers : o.noLineNumbers = true ↔ .single "--no-line-numbers" ∈ is

theorem Asks.unique {is : List Item} {o p : Options} (ho : Asks is o) (hp : Asks is p) : o = p := by
  have hwidth : o.charWidth = p.charWidth :=
    Option.ext fun n => (ho.charWidth n).trans (hp.charWidth n).symm
  have hlist : o.list = p.list := Bool.eq_iff_iff.mpr (ho.list.trans hp.list.symm)
  have hlegend : o.noLegend = p.noLegend := Bool.eq_iff_iff.mpr (ho.noLegend.trans hp.noLegend.symm)
  have hnumbers : o.noLineNumbers = p.noLineNumbers :=
    Bool.eq_iff_iff.mpr (ho.noLineNumbers.trans hp.noLineNumbers.symm)
  cases o
  cases p
  simp only [Options.mk.injEq]
  exact ⟨ho.file.trans hp.file.symm, ho.theme.trans hp.theme.symm, hwidth, hlist, hlegend, hnumbers⟩

/-- Of the last value that is given its meaning is the last meaning, if each value has one. -/
theorem getLast?_filterMap {α β : Type} {f : α → Option β} {l : List α}
    (h : ∀ a ∈ l, (f a).isSome = true) : (l.filterMap f).getLast? = l.getLast?.bind f := by
  rcases List.eq_nil_or_concat l with rfl | ⟨l, a, rfl⟩
  · rfl
  · obtain ⟨b, hb⟩ := Option.isSome_iff_exists.mp (h a (by simp))
    simp [List.filterMap_append, hb]

theorem charWidth_of_draw {args : List String} {o : Options}
    (h : Request.read args = .ok (.draw o)) (n : Nat) :
    o.charWidth = some n ↔ ∃ value m, ((items args).filterMap Item.value?).getLast? = some value ∧
      Denotes value.toList m ∧ n = min 64 (max 1 m) := by
  have hwidth : (items args).filterMap Item.width? = ((items args).filterMap Item.value?).filterMap
      fun value => (number? value.toList).map Settings.clampWidth := by
    rw [List.filterMap_filterMap]
    refine List.filterMap_congr fun i _ => ?_
    cases i <;> rfl
  have hnumbers : ∀ value ∈ (items args).filterMap Item.value?,
      ((number? value.toList).map Settings.clampWidth).isSome = true := by
    intro value hvalue
    obtain ⟨i, hi, hiv⟩ := List.mem_filterMap.mp hvalue
    have haccepted := (read_eq_draw.mp h).1 i hi
    cases i with
    | single arg => cases hiv
    | charWidth width =>
      cases hiv
      rw [Option.isSome_map]
      exact haccepted
  rw [last_of_read Options.charWidth Item.width? (fun _ _ => rfl) rfl h, hwidth,
    getLast?_filterMap hnumbers, Option.bind_eq_some_iff]
  simp only [Option.map_eq_some_iff, number?_eq_some, Settings.clampWidth]
  constructor
  · rintro ⟨value, hvalue, m, hm, rfl⟩
    exact ⟨value, m, hvalue, hm, rfl⟩
  · rintro ⟨value, m, hvalue, hm, rfl⟩
    exact ⟨value, hvalue, m, hm, rfl⟩

theorem asks_of_draw {args : List String} {o : Options} (h : Request.read args = .ok (.draw o)) :
    Asks (items args) o where
  theme := last_of_read Options.theme Item.theme? (fun _ _ => rfl) rfl h
  charWidth := charWidth_of_draw h
  file := by
    have hfile := last_or_of_read (fun o => some o.file) Item.input?
      (fun o i => by simp only [Item.apply]; cases i.input? <;> rfl) h
    cases hlast : ((items args).filterMap Item.input?).getLast? with
    | none => simpa [hlast, Options.none] using hfile
    | some input => simpa [hlast] using hfile
  list := by
    rw [asks_of_read Options.list "--dump" (fun _ _ => rfl) rfl h, asks, List.contains_iff_mem]
  noLegend := by
    rw [asks_of_read Options.noLegend "--no-legend" (fun _ _ => rfl) rfl h, asks,
      List.contains_iff_mem]
  noLineNumbers := by
    rw [asks_of_read Options.noLineNumbers "--no-line-numbers" (fun _ _ => rfl) rfl h, asks,
      List.contains_iff_mem]

/-- What comes of the items of a command line. -/
inductive Answers (is : List Item) : Except Fault Request → Prop
  | stopped {before after : List Item} {i : Item} {r : Except Fault Request}
    (his : is = before ++ i :: after) (hbefore : ∀ j ∈ before, ∀ q, ¬ Stops j q) (hi : Stops i r) :
    Answers is r
  | drawn {o : Options} (hall : ∀ i ∈ is, ∀ r, ¬ Stops i r) (ho : Asks is o) :
    Answers is (.ok (.draw o))

theorem read_of_accepted {args : List String} (h : ∀ i ∈ items args, i.Accepted) :
    Request.read args = .ok (.draw ((items args).foldl Item.apply .none)) :=
  read_eq_draw.mpr ⟨h, rfl⟩

theorem exists_answers (args : List String) : ∃ r, Answers (items args) r := by
  rcases forall_or_exists_first Item.Accepted (items args) with
    hall | ⟨before, i, after, his, hbefore, hi⟩
  · exact ⟨_, .drawn (fun i hi => forall_not_stops.mpr (hall i hi))
      (asks_of_draw (read_of_accepted hall))⟩
  · obtain ⟨r, hr⟩ := exists_stops hi
    exact ⟨r, .stopped his (fun j hj => forall_not_stops.mpr (hbefore j hj)) hr⟩

theorem read_of_answers {args : List String} {r : Except Fault Request}
    (h : Answers (items args) r) : Request.read args = r := by
  cases h with
  | @stopped before after i _ his hbefore hi =>
    have haccepted : ∀ j ∈ before, j.Accepted := fun j hj => forall_not_stops.mp (hbefore j hj)
    have hrest : i = .single "--char-width" → after.flatMap Item.words = [] := by
      rintro rfl
      rw [widthsTaken_items args before after his, List.flatMap_nil]
    have hread := read_of_first haccepted hi hrest
    rwa [← List.flatMap_cons, ← List.flatMap_append, ← his, flatMap_items] at hread
  | drawn hall ho =>
    have haccepted : ∀ i ∈ items args, i.Accepted := fun i hi => forall_not_stops.mp (hall i hi)
    have hread := read_of_accepted haccepted
    rw [(asks_of_draw hread).unique ho] at hread
    exact hread

/-- Arguments are one list of items, and the answer to them is that of the first item that ends the
reading, whatever comes after it; or else the options that all the items ask for. -/
theorem read_iff_answers (args : List String) :
    (∀ is : List Item, is.flatMap Item.words = args ∧ WidthsTaken is ↔ is = items args) ∧
    (∀ r, Request.read args = r ↔ Answers (items args) r) ∧
    ∀ (before : List Item) i r, (∀ j ∈ before, ∀ q, ¬ Stops j q) → Stops i r →
      i ≠ .single "--char-width" → ∀ rest, Request.read (before.flatMap Item.words ++ (i.words ++ rest)) = r := by
  refine ⟨fun is => ⟨?_, ?_⟩, fun r => ⟨?_, read_of_answers⟩, ?_⟩
  · rintro ⟨rfl, h⟩
    exact (items_flatMap_words h).symm
  · rintro rfl
    exact ⟨flatMap_items args, widthsTaken_items args⟩
  · rintro rfl
    obtain ⟨r, hr⟩ := exists_answers args
    rwa [read_of_answers hr]
  · intro before i r hbefore hi hwidth rest
    exact read_of_first (fun j hj => forall_not_stops.mp (hbefore j hj)) hi fun h => absurd h hwidth

/-- A number may have a plus sign and zeros in front, of two themes the last one counts, and the
standard input is read if that is asked for after the file. A width is what follows the option,
so no help is asked for here. -/
theorem read_iff_answers_mixed :
    Request.read ["--dark", "--char-width", "+099", "a.rs", "-", "--light", "--dump"] =
        .ok (.draw ⟨none, some .light, some 64, true, false, false⟩) ∧
      ∀ rest, Request.read ("--dump" :: "--char-width" :: "--help" :: rest) =
        .error (.value "--char-width" "--help") := by
  have hnumber : number? "+099".toList = some 99 := by decide
  have hhelp : number? "--help".toList = none := by decide
  constructor
  · refine ((read_iff_answers _).2.1 _).mpr (.drawn ?_ ⟨rfl, ?_, rfl, ?_, ?_, ?_⟩)
    · simp only [forall_not_stops]
      decide
    · intro n
      have hlast : ((items ["--dark", "--char-width", "+099", "a.rs", "-", "--light",
          "--dump"]).filterMap Item.value?).getLast? = some "+099" := rfl
      simp only [hlast, ← number?_eq_some]
      constructor
      · rintro ⟨⟩
        exact ⟨_, 99, rfl, hnumber, rfl⟩
      · rintro ⟨_, m, ⟨⟩, hm, rfl⟩
        obtain rfl := Option.some.inj (hnumber.symm.trans hm)
        rfl
    all_goals decide
  · intro rest
    refine (read_iff_answers []).2.2 [.single "--dump"] (.charWidth "--help") _ ?_ (.width ?_)
      nofun rest
    · simp only [forall_not_stops]
      decide
    · intro n hn
      rw [← number?_eq_some, hhelp] at hn
      cases hn

end Command

end Ribbon
