import Mathlib.Data.List.Induction
import CodeMarkup.CommandLine

/-!
# Arguments, item by item

The arguments are cut into items from left to right: an option that takes a language tag and the
argument behind it are one item, and any other argument is an item by itself.  Some items stop the
reading.  The first of them decides what the arguments ask for, and if there is none the arguments
ask for a run, which all the items together describe.

* `argItems` — the cut; `argItems_eq_cons` says what the first item has taken, `argItems_append`
  what more arguments change.
* `ArgItem.Stops` — an item stops the reading, with the answer to all the arguments.
* `FirstStop`, `NoneStops` — what it means that an item is the first one that stops, or that there
  is none; one of the two is the case (`exists_firstStop`).
* `Describes` — what items that do not stop say of a run.
* `parseArgsFrom_of_stops`, `parseArgsFrom_of_positional`, `parseArgsFrom_of_not_stops` — one step
  of the reading; `parseArgs_of_append` — any number of steps.
* `parseArgs_eq_iff` — the answer to any arguments.
-/

namespace CodeMarkup

/-! ## Items -/

/-- The options that take a language tag. -/
def tagOptions : List String := ["--lang", "-l"]

/-- All options. -/
def knownOptions : List String :=
  ["--help", "-h", "--version", "-V", "--list", "--no-highlight"] ++ tagOptions

/-- Whether an argument names an input if it stands by itself: a file, or `-` for standard input. -/
def isPositional (arg : String) : Bool := arg == "-" || arg.toList.head? != some '-'

/-- An item of the arguments: an argument, and the one behind it if that is its value. -/
structure ArgItem where
  /-- The argument. -/
  arg : String
  /-- The value of the argument. -/
  value? : Option String
  deriving DecidableEq, Repr

/-- The items of the arguments, from left to right. -/
def argItems : List String → List ArgItem
  | [] => []
  | [arg] => [⟨arg, none⟩]
  | arg :: next :: rest =>
    if arg ∈ tagOptions then ⟨arg, some next⟩ :: argItems rest
    else ⟨arg, none⟩ :: argItems (next :: rest)

namespace ArgItem

/-- The arguments of an item. -/
def args (item : ArgItem) : List String := item.arg :: item.value?.toList

/-- The input that an item names. -/
def positional? (item : ArgItem) : Option String :=
  if item.value? = none ∧ isPositional item.arg = true then some item.arg else none

theorem positional?_eq_some_iff {item : ArgItem} {input : String} :
    item.positional? = some input ↔ item = ⟨input, none⟩ ∧ isPositional input = true := by
  obtain ⟨arg, value?⟩ := item
  simp only [positional?, Option.ite_none_right_eq_some, Option.some.injEq, ArgItem.mk.injEq]
  constructor
  · rintro ⟨⟨hvalue, hinput⟩, rfl⟩
    exact ⟨⟨rfl, hvalue⟩, hinput⟩
  · rintro ⟨⟨rfl, hvalue⟩, hinput⟩
    exact ⟨⟨hvalue, hinput⟩, rfl⟩

/-- An item stops the reading wherever it stands, with an answer to all the arguments. -/
inductive Stops : ArgItem → Except String Command → Prop
  /-- The help text is asked for. -/
  | help {arg : String} (h : arg ∈ ["--help", "-h"]) : Stops ⟨arg, none⟩ (.ok .help)
  /-- The version is asked for. -/
  | version {arg : String} (h : arg ∈ ["--version", "-V"]) : Stops ⟨arg, none⟩ (.ok .version)
  /-- An argument looks like an option and is none. -/
  | unknownOption {arg : String} (hdash : arg.toList.head? = some '-') (hne : arg ≠ "-")
    (hunknown : arg ∉ knownOptions) : Stops ⟨arg, none⟩ (.error ("Unknown option: " ++ arg))
  /-- An option that takes a language tag has nothing behind it. -/
  | missingTag {arg : String} (h : arg ∈ tagOptions) :
    Stops ⟨arg, none⟩ (.error (arg ++ " requires a language tag"))

end ArgItem

/-- The inputs that items name, in order. -/
def positionals (items : List ArgItem) : List String := items.filterMap ArgItem.positional?

/-- The files that items name, in order. -/
def namedFiles (items : List ArgItem) : List String := (positionals items).filter (· ≠ "-")

/-- An item stops the reading where it stands behind other items. -/
inductive StopsBehind (before : List ArgItem) : ArgItem → Except String Command → Prop
  /-- It would stop the reading anywhere. -/
  | anywhere {item : ArgItem} {answer : Except String Command} (h : item.Stops answer) :
    StopsBehind before item answer
  /-- It names an input, and a file has been named before it. -/
  | secondInput {item : ArgItem} (hinput : item.positional? ≠ none)
    (hnamed : namedFiles before ≠ []) :
    StopsBehind before item (.error "Only one input file may be given")

/-- None of the items stops the reading. -/
def NoneStops (items : List ArgItem) : Prop :=
  ∀ before item after, items = before ++ item :: after → ∀ answer, ¬ StopsBehind before item answer

/-- The first item that stops the reading does so with an answer. -/
def FirstStop (items : List ArgItem) (answer : Except String Command) : Prop :=
  ∃ before item after, items = before ++ item :: after ∧ NoneStops before ∧
    StopsBehind before item answer

/-- What items that do not stop the reading say of a run. -/
structure Describes (items : List ArgItem) (options : Options) : Prop where
  /-- The language tag is the last one that is given. -/
  lang : options.lang = (items.filterMap ArgItem.value?).getLast?.getD "php"
  /-- The tags are listed if an item says so. -/
  list : options.list = true ↔ ∃ item ∈ items, item.arg = "--list"
  /-- Highlighting is allowed if no item forbids it. -/
  highlight : options.highlight = true ↔ ¬ ∃ item ∈ items, item.arg = "--no-highlight"
  /-- The file is the only one that is named. -/
  file : namedFiles items = options.file?.toList

/-! ## The cut -/

/-- What the first item has taken of the arguments: its own ones, which are two if it is an option
with a language tag and one if not. -/
theorem argItems_eq_cons {args : List String} {item : ArgItem} {after : List ArgItem}
    (h : argItems args = item :: after) :
    ∃ rest, args = item.args ++ rest ∧ argItems rest = after ∧
      (item.value? ≠ none → item.arg ∈ tagOptions) ∧
      (item.value? = none → item.arg ∈ tagOptions → rest = []) := by
  rcases args with _ | ⟨arg, _ | ⟨next, rest⟩⟩
  · cases h
  · cases h
    exact ⟨[], rfl, rfl, fun hvalue => absurd rfl hvalue, fun _ _ => rfl⟩
  · rw [argItems] at h
    split at h
    next htag =>
      cases h
      exact ⟨rest, rfl, rfl, fun _ => htag, nofun⟩
    next htag =>
      cases h
      exact ⟨next :: rest, rfl, rfl, fun hvalue => absurd rfl hvalue,
        fun _ hmem => absurd hmem htag⟩

/-- The cut loses no argument. -/
theorem flatMap_args_argItems (args : List String) :
    (argItems args).flatMap ArgItem.args = args := by
  fun_induction argItems args with
  | case1 => rfl
  | case2 => rfl
  | case3 arg next rest htag ih => simp [ArgItem.args, ih]
  | case4 arg next rest htag ih => simpa [ArgItem.args] using ih

theorem argItems_eq_nil_iff {args : List String} : argItems args = [] ↔ args = [] := by
  constructor
  · intro h
    rw [← flatMap_args_argItems args, h, List.flatMap_nil]
  · rintro rfl
    rfl

/-- An item that is complete is cut off whatever stands behind it. -/
theorem argItems_args_append {item : ArgItem} (hvalue : item.value? ≠ none ↔ item.arg ∈ tagOptions)
    (rest : List String) : argItems (item.args ++ rest) = item :: argItems rest := by
  obtain ⟨arg, value?⟩ := item
  cases value? with
  | none =>
    have harg : arg ∉ tagOptions := fun hmem => hvalue.2 hmem rfl
    cases rest with
    | nil => rfl
    | cons next rest =>
      show argItems (arg :: next :: rest) = _
      rw [argItems, if_neg harg]
  | some tag =>
    show argItems (arg :: tag :: rest) = _
    rw [argItems, if_pos (hvalue.1 nofun)]

/-- More arguments change no item, unless the first of them is the value of the last one. -/
theorem argItems_append {args : List String} {before : List ArgItem} {item : ArgItem}
    (h : argItems args = before ++ [item]) (hitem : item.value? = none → item.arg ∉ tagOptions)
    (more : List String) : argItems (args ++ more) = before ++ item :: argItems more := by
  induction before generalizing args with
  | nil =>
    obtain ⟨rest, rfl, hrest, hvalue, -⟩ := argItems_eq_cons h
    rw [argItems_eq_nil_iff.1 hrest, List.append_nil, List.nil_append]
    exact argItems_args_append ⟨hvalue, fun hmem hnone => hitem hnone hmem⟩ more
  | cons first before ih =>
    obtain ⟨rest, rfl, hrest, hvalue, hlast⟩ := argItems_eq_cons h
    have hcomplete : first.value? ≠ none ↔ first.arg ∈ tagOptions := by
      refine ⟨hvalue, fun hmem hnone => ?_⟩
      rw [hlast hnone hmem] at hrest
      simp [argItems] at hrest
    rw [List.append_assoc, argItems_args_append hcomplete, ih hrest, List.cons_append]

/-! ## One step -/

theorem isPositional_of_mem : ∀ arg ∈ knownOptions, isPositional arg = false := by decide

theorem notMem_knownOptions_of_isPositional {arg : String} (h : isPositional arg = true) :
    arg ∉ knownOptions := fun hmem => by
  simp [isPositional_of_mem arg hmem] at h

/-- An argument that is no option names an input, or it is refused. -/
theorem parseArgsFrom_of_notMem {arg : String} (h : arg ∉ knownOptions) (options : Options)
    (rest : List String) :
    parseArgsFrom options (arg :: rest) =
      if isPositional arg then
        if options.file?.isSome then .error .secondFile
        else if arg = "-" then parseArgsFrom options rest
        else parseArgsFrom { options with file? := some arg } rest
      else .error (.unknownOption arg) := by
  simp only [knownOptions, tagOptions, List.cons_append, List.nil_append, List.mem_cons,
    List.not_mem_nil, or_false, not_or] at h
  rw [parseArgsFrom.eq_def]
  by_cases hdash : arg = "-"
  · simp [hdash, isPositional]
  · by_cases hhead : arg.toList.head? = some '-'
    · simp [h, hdash, hhead, isPositional]
    · simp [h, hdash, hhead, isPositional]

/-- An item that stops the reading anywhere decides the answer. -/
theorem parseArgsFrom_of_stops {item : ArgItem} {rest : List String}
    {answer : Except String Command} (options : Options) (hstops : item.Stops answer)
    (hrest : item.value? = none → item.arg ∈ tagOptions → rest = []) :
    (parseArgsFrom options (item.args ++ rest)).mapError UsageError.message = answer := by
  cases hstops with
  | @help arg h =>
    simp only [List.mem_cons, List.not_mem_nil, or_false] at h
    rw [ArgItem.args, List.cons_append, parseArgsFrom.eq_def]
    rcases h with rfl | rfl <;> rfl
  | @version arg h =>
    simp only [List.mem_cons, List.not_mem_nil, or_false] at h
    rw [ArgItem.args, List.cons_append, parseArgsFrom.eq_def]
    rcases h with rfl | rfl <;> rfl
  | @unknownOption arg hdash hne hunknown =>
    have hpositional : isPositional arg = false := by simp [isPositional, hdash, hne]
    rw [ArgItem.args, List.cons_append, parseArgsFrom_of_notMem hunknown, hpositional]
    rfl
  | @missingTag arg h =>
    obtain rfl := hrest rfl h
    simp only [tagOptions, List.mem_cons, List.not_mem_nil, or_false] at h
    rcases h with rfl | rfl <;> rfl

/-- Reading an input by itself. -/
theorem parseArgsFrom_of_positional {item : ArgItem} {input : String}
    (h : item.positional? = some input) (options : Options) (rest : List String) :
    parseArgsFrom options (item.args ++ rest) =
      if options.file?.isSome then .error .secondFile
      else if input = "-" then parseArgsFrom options rest
      else parseArgsFrom { options with file? := some input } rest := by
  obtain ⟨rfl, hpositional⟩ := ArgItem.positional?_eq_some_iff.1 h
  have hunknown := notMem_knownOptions_of_isPositional hpositional
  rw [ArgItem.args, List.cons_append, parseArgsFrom_of_notMem hunknown, hpositional]
  rfl

/-- What an item adds to the description of a run. -/
def Options.record (options : Options) (item : ArgItem) : Options where
  lang := item.value?.getD options.lang
  file? := (item.positional?.filter (· ≠ "-")).or options.file?
  list := options.list || decide (item.arg = "--list")
  highlight := options.highlight && decide (item.arg ≠ "--no-highlight")

/-- Recording an input: only a file leaves something behind. -/
theorem Options.record_of_positional {options : Options} {item : ArgItem} {input : String}
    (h : item.positional? = some input) (hfile : options.file? = none) :
    options.record item =
      if input = "-" then options else { options with file? := some input } := by
  obtain ⟨lang, file?, list, highlight⟩ := options
  obtain rfl : file? = none := hfile
  obtain ⟨rfl, hpositional⟩ := ArgItem.positional?_eq_some_iff.1 h
  have hunknown := notMem_knownOptions_of_isPositional hpositional
  have hlist : input ≠ "--list" := fun heq => hunknown (heq ▸ by decide)
  have hhighlight : input ≠ "--no-highlight" := fun heq => hunknown (heq ▸ by decide)
  rw [record, h]
  by_cases hdash : input = "-" <;>
    simp [Option.filter_some, hlist, hhighlight, hdash]

/-- An argument by itself that neither stops the reading nor names an input is a setting. -/
theorem ArgItem.setting_of_not_stops {arg : String}
    (hstops : ∀ answer, ¬ Stops ⟨arg, none⟩ answer) (hinput : positional? ⟨arg, none⟩ = none) :
    arg = "--list" ∨ arg = "--no-highlight" := by
  by_cases hknown : arg ∈ knownOptions
  · simp only [knownOptions, List.cons_append, List.nil_append, List.mem_cons] at hknown
    rcases hknown with rfl | rfl | rfl | rfl | rfl | rfl | htag
    · exact absurd (.help (by decide)) (hstops _)
    · exact absurd (.help (by decide)) (hstops _)
    · exact absurd (.version (by decide)) (hstops _)
    · exact absurd (.version (by decide)) (hstops _)
    · exact .inl rfl
    · exact .inr rfl
    · exact absurd (.missingTag htag) (hstops _)
  · obtain ⟨hne, hdash⟩ : arg ≠ "-" ∧ arg.toList.head? = some '-' := by
      simpa [positional?, isPositional] using hinput
    exact absurd (.unknownOption hdash hne hknown) (hstops _)

/-- An item that does not stop the reading is recorded. -/
theorem parseArgsFrom_of_not_stops {options : Options} {item : ArgItem} (rest : List String)
    (hstops : ∀ answer, ¬ item.Stops answer)
    (hfile : item.positional? ≠ none → options.file? = none)
    (hvalue : item.value? ≠ none → item.arg ∈ tagOptions) :
    parseArgsFrom options (item.args ++ rest) = parseArgsFrom (options.record item) rest := by
  cases hinput : item.positional? with
  | some input =>
    have hnone : options.file? = none := hfile (by simp [hinput])
    rw [parseArgsFrom_of_positional hinput, Options.record_of_positional hinput hnone, hnone]
    by_cases hdash : input = "-" <;> simp [hdash]
  | none =>
    obtain ⟨arg, value?⟩ := item
    cases value? with
    | some tag =>
      have harg : arg ∈ tagOptions := hvalue nofun
      simp only [tagOptions, List.mem_cons, List.not_mem_nil, or_false] at harg
      rcases harg with rfl | rfl <;>
        simp [ArgItem.args, parseArgsFrom, Options.record, ArgItem.positional?]
    | none =>
      rw [ArgItem.args, List.cons_append, parseArgsFrom.eq_def, Options.record, hinput]
      rcases ArgItem.setting_of_not_stops hstops hinput with rfl | rfl <;> simp

/-! ## Any number of steps -/

theorem noneStops_nil : NoneStops [] := by
  intro before item after h
  simp at h

theorem noneStops_concat_iff {before : List ArgItem} {item : ArgItem} :
    NoneStops (before ++ [item]) ↔
      NoneStops before ∧ ∀ answer, ¬ StopsBehind before item answer := by
  constructor
  · intro h
    refine ⟨fun front item' after hbefore => ?_, h before item [] rfl⟩
    exact h front item' (after ++ [item]) (by simp [hbefore])
  · rintro ⟨hbefore, hitem⟩ front item' after hsplit
    obtain rfl | ⟨after, last, rfl⟩ := List.eq_nil_or_concat after
    · obtain ⟨rfl, hlast⟩ := List.append_inj' hsplit rfl
      obtain rfl : item = item' := by simpa using hlast
      exact hitem
    · have hlast : before ++ [item] = (front ++ item' :: after) ++ [last] := by
        simpa using hsplit
      exact hbefore front item' after (List.append_inj' hlast rfl).1

theorem not_stopsBehind_iff {before : List ArgItem} {item : ArgItem} :
    (∀ answer, ¬ StopsBehind before item answer) ↔
      (∀ answer, ¬ item.Stops answer) ∧ (item.positional? ≠ none → namedFiles before = []) := by
  constructor
  · intro h
    refine ⟨fun answer hstops => h answer (.anywhere hstops), fun hinput => ?_⟩
    by_contra hnamed
    exact h _ (.secondInput hinput hnamed)
  · rintro ⟨hstops, hfile⟩ answer (h | ⟨hinput, hnamed⟩)
    · exact hstops answer h
    · exact hnamed (hfile hinput)

/-- Of any items, there is a first one that stops, or none stops. -/
theorem exists_firstStop (items : List ArgItem) :
    (∃ answer, FirstStop items answer) ∨ NoneStops items := by
  induction items using List.reverseRecOn with
  | nil => exact .inr noneStops_nil
  | append_singleton before item ih =>
    obtain ⟨answer, front, first, after, rfl, hfront, hfirst⟩ | hbefore := ih
    · exact .inl ⟨answer, front, first, after ++ [item], by simp, hfront, hfirst⟩
    · by_cases hitem : ∃ answer, StopsBehind before item answer
      · obtain ⟨answer, hanswer⟩ := hitem
        exact .inl ⟨answer, before, item, [], rfl, hbefore, hanswer⟩
      · exact .inr (noneStops_concat_iff.2 ⟨hbefore, not_exists.1 hitem⟩)

theorem positionals_concat (before : List ArgItem) (item : ArgItem) :
    positionals (before ++ [item]) = positionals before ++ item.positional?.toList := by
  rw [positionals, List.filterMap_append, positionals]
  cases h : item.positional? <;> simp [h]

theorem namedFiles_concat (before : List ArgItem) (item : ArgItem) :
    namedFiles (before ++ [item]) =
      namedFiles before ++ (item.positional?.filter (· ≠ "-")).toList := by
  rw [namedFiles, positionals_concat, List.filter_append, namedFiles]
  cases item.positional? with
  | none => rfl
  | some input => by_cases h : input = "-" <;> simp [Option.filter_some, h]

theorem describes_nil : Describes [] {} where
  lang := rfl
  list := by simp
  highlight := by simp
  file := rfl

theorem Describes.eq_none_iff {items : List ArgItem} {options : Options}
    (h : Describes items options) : options.file? = none ↔ namedFiles items = [] := by
  rw [h.file]
  cases options.file? <;> simp

/-- One more item that does not stop the reading is described by what it adds. -/
theorem Describes.record {before : List ArgItem} {options : Options} {item : ArgItem}
    (h : Describes before options) (hitem : ∀ answer, ¬ StopsBehind before item answer) :
    Describes (before ++ [item]) (options.record item) where
  lang := by
    cases hvalue : item.value? with
    | none => simp [Options.record, hvalue, h.lang]
    | some tag => simp [Options.record, hvalue]
  list := by
    simp only [Options.record, Bool.or_eq_true, decide_eq_true_eq, h.list, List.mem_append,
      List.mem_singleton, or_and_right, exists_or, exists_eq_left]
  highlight := by
    simp only [Options.record, Bool.and_eq_true, decide_eq_true_eq, h.highlight, List.mem_append,
      List.mem_singleton, or_and_right, exists_or, exists_eq_left, not_or, ne_eq]
  file := by
    rw [namedFiles_concat, h.file, Options.record]
    cases hfile : item.positional?.filter (· ≠ "-") with
    | none => simp
    | some path =>
      -- a file behind another one would stop the reading
      obtain ⟨hinput, -⟩ := Option.filter_eq_some_iff.1 hfile
      have hnamed := (not_stopsBehind_iff.1 hitem).2 (by simp [hinput])
      rw [h.eq_none_iff.2 hnamed]
      rfl

/-- A description leaves nothing open. -/
theorem Describes.unique {items : List ArgItem} {options other : Options}
    (h : Describes items options) (hother : Describes items other) : options = other := by
  have hlist : options.list = other.list := Bool.eq_iff_iff.2 (h.list.trans hother.list.symm)
  have hhighlight : options.highlight = other.highlight :=
    Bool.eq_iff_iff.2 (h.highlight.trans hother.highlight.symm)
  have hfile : options.file? = other.file? := by
    simpa using congrArg List.head? (h.file.symm.trans hother.file)
  obtain ⟨lang, file?, list, highlight⟩ := options
  obtain ⟨lang', file?', list', highlight'⟩ := other
  obtain rfl : lang = lang' := h.lang.trans hother.lang.symm
  subst hlist hhighlight hfile
  rfl

/-- Items that do not stop the reading are recorded one after the other. -/
theorem parseArgs_of_append {args : List String} {before after : List ArgItem}
    (h : argItems args = before ++ after) (hbefore : NoneStops before) :
    ∃ options rest, Describes before options ∧ argItems rest = after ∧
      parseArgs args = parseArgsFrom options rest := by
  induction before using List.reverseRecOn generalizing after with
  | nil => exact ⟨{}, args, describes_nil, h, rfl⟩
  | append_singleton before item ih =>
    obtain ⟨hbefore, hitem⟩ := noneStops_concat_iff.1 hbefore
    rw [List.append_assoc, List.singleton_append] at h
    obtain ⟨options, rest, hoptions, hrest, hparse⟩ := ih h hbefore
    obtain ⟨rest, rfl, hafter, hvalue, -⟩ := argItems_eq_cons hrest
    obtain ⟨hstops, hfile⟩ := not_stopsBehind_iff.1 hitem
    refine ⟨options.record item, rest, hoptions.record hitem, hafter, ?_⟩
    rw [hparse]
    exact parseArgsFrom_of_not_stops rest hstops (fun h => hoptions.eq_none_iff.2 (hfile h)) hvalue

/-- The first item that stops the reading decides the answer. -/
theorem FirstStop.parseArgs_eq {args : List String} {answer : Except String Command}
    (h : FirstStop (argItems args) answer) :
    (parseArgs args).mapError UsageError.message = answer := by
  obtain ⟨before, item, after, hitems, hbefore, hitem⟩ := h
  obtain ⟨options, rest, hoptions, hrest, hparse⟩ := parseArgs_of_append hitems hbefore
  obtain ⟨rest, rfl, -, -, hlast⟩ := argItems_eq_cons hrest
  rw [hparse]
  cases hitem with
  | anywhere hstops => exact parseArgsFrom_of_stops options hstops hlast
  | secondInput hinput hnamed =>
    obtain ⟨input, hinput⟩ := Option.ne_none_iff_exists'.1 hinput
    have hsome : options.file?.isSome = true :=
      Option.isSome_iff_ne_none.2 (mt hoptions.eq_none_iff.1 hnamed)
    rw [parseArgsFrom_of_positional hinput, if_pos hsome]
    rfl

/-- Without an item that stops the reading, the arguments ask for the run that they describe. -/
theorem NoneStops.parseArgs_eq {args : List String} (h : NoneStops (argItems args)) :
    ∃ options, Describes (argItems args) options ∧ parseArgs args = .ok (.run options) := by
  obtain ⟨options, rest, hoptions, hrest, hparse⟩ :=
    parseArgs_of_append (List.append_nil (argItems args)).symm h
  obtain rfl := argItems_eq_nil_iff.1 hrest
  exact ⟨options, hoptions, hparse⟩

/-- The arguments ask for a run exactly if no item stops the reading, and it is the run that the
items describe. -/
theorem parseArgs_eq_run_iff {args : List String} {options : Options} :
    parseArgs args = .ok (.run options) ↔
      NoneStops (argItems args) ∧ Describes (argItems args) options := by
  constructor
  · intro h
    obtain ⟨answer, hfirst⟩ | hnone := exists_firstStop (argItems args)
    · have hanswer : answer = .ok (.run options) := by
        rw [← hfirst.parseArgs_eq, h]
        rfl
      obtain ⟨before, item, after, -, -, hitem⟩ := hfirst
      rw [hanswer] at hitem
      obtain hstops | - := hitem
      cases hstops
    · obtain ⟨found, hfound, hparse⟩ := hnone.parseArgs_eq
      obtain rfl : options = found := by simpa [h] using hparse
      exact ⟨hnone, hfound⟩
  · rintro ⟨hnone, hoptions⟩
    obtain ⟨found, hfound, hparse⟩ := hnone.parseArgs_eq
    rw [hparse, hoptions.unique hfound]

/-- **Arguments are read item by item.**  The cut loses no argument.  The first item that stops the
reading decides the answer: the help text, the version, or an error in its words.  If none stops,
the answer is the run that the items describe.  What stands behind an item that stops the reading
has no part in the answer, save that a tag could stand behind an option that misses one. -/
theorem parseArgs_eq_iff (args : List String) :
    (argItems args).flatMap ArgItem.args = args ∧
      (∀ answer, (parseArgs args).mapError UsageError.message = answer ↔
        FirstStop (argItems args) answer ∨
          NoneStops (argItems args) ∧
            ∃ options, answer = .ok (.run options) ∧ Describes (argItems args) options) ∧
      ∀ before item answer, argItems args = before ++ [item] → NoneStops before →
        StopsBehind before item answer → item.arg ∉ tagOptions →
        ∀ more, (parseArgs (args ++ more)).mapError UsageError.message = answer := by
  refine ⟨flatMap_args_argItems args, fun answer => ⟨?_, ?_⟩, ?_⟩
  · rintro rfl
    obtain ⟨answer, hfirst⟩ | hnone := exists_firstStop (argItems args)
    · rw [hfirst.parseArgs_eq]
      exact .inl hfirst
    · obtain ⟨options, hoptions, hparse⟩ := hnone.parseArgs_eq
      exact .inr ⟨hnone, options, by rw [hparse]; rfl, hoptions⟩
  · rintro (hfirst | ⟨hnone, options, rfl, hoptions⟩)
    · exact hfirst.parseArgs_eq
    · rw [parseArgs_eq_run_iff.2 ⟨hnone, hoptions⟩]
      rfl
  · intro before item answer hitems hbefore hitem harg more
    exact FirstStop.parseArgs_eq
      ⟨before, item, argItems more, argItems_append hitems (fun _ => harg) more, hbefore, hitem⟩

/-- The value of an option is no item by itself, whatever it looks like. -/
example : parseArgs ["x.php", "-l", "--help", "--lang", "-", "-V", "y.php"] = .ok .version := by
  decide

end CodeMarkup
