import CodeMarkup.CommandLine
import CodeMarkup.Proofs.Language.Written
import CodeMarkup.Proofs.Page.ClassAttribute

/-!
# Whole runs of the program

A run reads its arguments, the settings file, the built-in languages and a source, and at each of
these steps it could go wrong.  Two of them decide: a run fails if its arguments are refused, or if
it needs a source and has none that is text.  A run that fails has written nothing, and one that
does not fail has shown its source as it is or as markup from which it can be read back.

* `PathTarget.Unreadable` — what cannot be read as text (`PathTarget.readText_eq_error_iff`).
* `runIn_eq` — the built-in languages and the settings never stop a run; `Environment.run_eq` — what
  each kind of command leads to.
* `Environment.Fails` — a run fails (`Environment.fails_iff`).
* `Environment.ShowsPlain`, `IsMarkupOf` — a source is shown as it is, or as markup.
* `Environment.report_exitCode_stdout` — the exit code and the output of a run.
-/

namespace CodeMarkup

/-! ## Reading text -/

/-- A path leads to nothing that could be read as text. -/
inductive PathTarget.Unreadable : PathTarget → Prop where
  | nothing : Unreadable .nothing
  | nowhere : Unreadable .nowhere
  | directory : Unreadable .directory
  | file {bytes : ByteArray} (h : ¬ bytes.IsValidUTF8) : Unreadable (.file bytes)

theorem fromUTF8?_eq_some_iff {bytes : ByteArray} {text : String} :
    String.fromUTF8? bytes = some text ↔ bytes = text.toUTF8 := by
  unfold String.fromUTF8?
  rw [String.toUTF8_eq_toByteArray]
  constructor
  · intro h
    obtain ⟨hvalid, htext⟩ := Option.dite_none_right_eq_some.1 h
    rw [← Option.some.inj htext]
    rfl
  · rintro rfl
    exact dif_pos text.isValidUTF8

theorem readBytes_eq_ok_iff {bytes : ByteArray} {text : List Char} :
    readBytes bytes = .ok text ↔ bytes = (String.ofList text).toUTF8 := by
  rw [← fromUTF8?_eq_some_iff, readBytes]
  cases h : String.fromUTF8? bytes with
  | none => simp
  | some found => simp [← String.toList_inj]

/-- Bytes that are not UTF-8 hold no text, and all others do. -/
theorem readBytes_eq_error_iff {bytes : ByteArray} :
    (∃ error, readBytes bytes = .error error) ↔ ¬ bytes.IsValidUTF8 := by
  unfold readBytes String.fromUTF8?
  by_cases h : bytes.IsValidUTF8
  · simp [h]
  · simp [h]

namespace PathTarget

variable {target : PathTarget}

theorem readText_eq_ok_iff {text : List Char} :
    target.readText = .ok text ↔ target = .file (String.ofList text).toUTF8 := by
  cases target with
  | nothing | nowhere | directory => simp [readText]
  | file bytes => simpa [readText] using readBytes_eq_ok_iff

theorem readText_eq_error_iff :
    (∃ error, target.readText = .error error) ↔ target.Unreadable := by
  cases target with
  | nothing => exact iff_of_true ⟨_, rfl⟩ .nothing
  | nowhere => exact iff_of_true ⟨_, rfl⟩ .nowhere
  | directory => exact iff_of_true ⟨_, rfl⟩ .directory
  | file bytes =>
    refine readBytes_eq_error_iff.trans ⟨.file, ?_⟩
    rintro (_ | _ | _ | h)
    exact h

end PathTarget

/-! ## Output for a source -/

namespace Options

variable (options : Options) (highlighter : Highlighter)

theorem enabled_highlighter :
    (options.highlighter highlighter).enabled = (options.highlight && highlighter.enabled) := by
  unfold Options.highlighter
  cases options.highlight <;> rfl

theorem tags_highlighter : (options.highlighter highlighter).tags = highlighter.tags := by
  unfold Options.highlighter
  cases options.highlight <;> rfl

theorem lead_highlighter : (options.highlighter highlighter).lead = highlighter.lead := by
  unfold Options.highlighter
  cases options.highlight <;> rfl

theorem sound_highlighter (h : highlighter.Sound) : (options.highlighter highlighter).Sound := by
  unfold Options.highlighter
  cases options.highlight <;> exact h

end Options

section

variable {highlighter : Highlighter} {tag : String}

theorem renderOutput_of_plain (source : List Char) (hsound : highlighter.Sound)
    (h : highlighter.enabled = false ∨ tag ∉ highlighter.tags) :
    renderOutput highlighter tag source = source := by
  unfold renderOutput
  rcases h with hdisabled | hunregistered
  · rw [hdisabled]
    rfl
  · have hnone := hsound.languageForTag?_eq_none_iff.2 hunregistered
    simp [Highlighter.highlightSource, hnone]

/-- While highlighting is on, a source with a registered tag becomes markup. -/
theorem renderOutput_of_mem (source : List Char) (hsound : highlighter.Sound)
    (henabled : highlighter.enabled = true) (h : tag ∈ highlighter.tags) :
    ∃ language : Language,
      renderOutput highlighter tag source = language.highlight highlighter.lead source := by
  obtain ⟨language, hlanguage⟩ := hsound tag h
  refine ⟨language, ?_⟩
  simp [renderOutput, henabled, Highlighter.highlightSource, hlanguage]

end

/-! ## Runs -/

/-- The highlighter of a run is always made, whatever the settings and wherever they come from. -/
theorem runIn_eq {m : Type → Type} [Monad m] (getSettings : m Settings)
    (getSource : Option String → m (Except ReadError (List Char))) (args : List String) :
    runIn getSettings getSource args =
      match parseArgs args with
      | .error error => pure (.error (.usage error))
      | .ok .help => pure (.ok helpText)
      | .ok .version => pure (.ok versionText)
      | .ok (.run options) => (do
        let settings ← getSettings
        let highlighter := options.highlighter (.ofSettings settings)
        if options.list then pure (.ok (unlines highlighter.tags))
        else
          match ← getSource options.file? with
          | .error error => pure (.error (.read error))
          | .ok source => pure (.ok (renderOutput highlighter options.lang source))) := by
  unfold runIn
  cases parseArgs args with
  | error error => rfl
  | ok command =>
    cases command with
    | help | version => rfl
    | run options =>
      refine bind_congr fun settings => ?_
      -- the languages must not be read by evaluation
      have hread := Highlighter.read_eq settings
      generalize Highlighter.read settings = result at hread ⊢
      subst hread
      rfl

/-- Some bytes are markup that brings nothing of its own and of which others are the source: without
the tags of its spans and with its entities read back, the markup is the source. -/
def IsMarkupOf (lead : List Char) (source output : ByteArray) : Prop :=
  ∃ text markup, source = (String.ofList text).toUTF8 ∧ output = (String.ofList markup).toUTF8 ∧
    MarkupSafe lead markup ∧ unescape (stripTags lead markup) = text

namespace Environment

variable {environment : Environment} {args : List String}

/-- The settings in force. -/
def settings (environment : Environment) : Settings := Settings.load environment.settingsFile?

/-- What a source is read from: the file that is named, or standard input. -/
def input (environment : Environment) : Option String → PathTarget
  | some path => environment.files path
  | none => .file environment.stdin

theorem source_eq (environment : Environment) (file? : Option String) :
    environment.source file? = (environment.input file?).readText := by
  cases file? <;> rfl

/-- The highlighter of a run. -/
def highlighter (environment : Environment) (options : Options) : Highlighter :=
  options.highlighter (.ofSettings environment.settings)

theorem sound_highlighter (environment : Environment) (options : Options) :
    (environment.highlighter options).Sound :=
  options.sound_highlighter _ (Highlighter.Origin.ofSettings environment.settings).sound

theorem lead_highlighter (environment : Environment) (options : Options) :
    (environment.highlighter options).lead = environment.settings.lead :=
  options.lead_highlighter (.ofSettings environment.settings)

/-- A run fails: its arguments are refused, or it needs a source and what it would be read from is
not there, is a directory or is not UTF-8. -/
inductive Fails (environment : Environment) (args : List String) : Prop where
  | usage {error : UsageError} (h : parseArgs args = .error error)
  | input {options : Options} (h : parseArgs args = .ok (.run options))
    (hlist : options.list = false) (hinput : (environment.input options.file?).Unreadable)

/-- A source is shown as it is: highlighting is switched off by an argument or by the settings, or
the tag is not registered. -/
def ShowsPlain (environment : Environment) (options : Options) : Prop :=
  options.highlight = false ∨ environment.settings.highlight = false ∨
    options.lang ∉ Highlighter.builtin.tags

theorem showsPlain_iff {options : Options} : environment.ShowsPlain options ↔
    (environment.highlighter options).enabled = false ∨
      options.lang ∉ (environment.highlighter options).tags := by
  rw [highlighter, options.enabled_highlighter, options.tags_highlighter, Bool.and_eq_false_iff,
    or_assoc]
  rfl

/-- What each command leads to. -/
theorem run_eq (environment : Environment) (args : List String) :
    run environment args =
      match parseArgs args with
      | .error error => .error (.usage error)
      | .ok .help => .ok helpText
      | .ok .version => .ok versionText
      | .ok (.run options) =>
        if options.list then .ok (unlines Highlighter.builtin.tags)
        else
          match (environment.input options.file?).readText with
          | .error error => .error (.read error)
          | .ok source =>
            .ok (renderOutput (environment.highlighter options) options.lang source) := by
  rw [run, runIn_eq]
  cases parseArgs args with
  | error error => rfl
  | ok command =>
    cases command with
    | help | version => rfl
    | run options =>
      simp only [pure_bind, Options.tags_highlighter, source_eq]
      split
      · rfl
      · cases (environment.input options.file?).readText <;> rfl

/-- The output for a source that could be read. -/
theorem run_of_source {options : Options} {source : List Char}
    (h : parseArgs args = .ok (.run options)) (hlist : options.list = false)
    (hsource : (environment.input options.file?).readText = .ok source) :
    run environment args =
      .ok (renderOutput (environment.highlighter options) options.lang source) := by
  simp [run_eq, h, hlist, hsource]

theorem fails_iff : environment.Fails args ↔ ∃ error, run environment args = .error error := by
  constructor
  · rintro (h | ⟨h, hlist, hinput⟩)
    · exact ⟨_, by rw [run_eq, h]⟩
    · obtain ⟨error, herror⟩ := PathTarget.readText_eq_error_iff.2 hinput
      exact ⟨.read error, by simp [run_eq, h, hlist, herror]⟩
  · rintro ⟨error, h⟩
    rw [run_eq] at h
    split at h
    · exact .usage ‹_›
    · cases h
    · cases h
    · rename_i options hargs
      split at h
      · cases h
      · rename_i hlist
        split at h
        · rename_i cause hcause
          exact .input hargs (by simpa using hlist)
            (PathTarget.readText_eq_error_iff.1 ⟨cause, hcause⟩)
        · cases h

/-- No settings make a run fail. -/
theorem fails_settingsFile? (settingsFile? : Option PathTarget) :
    { environment with settingsFile? }.Fails args ↔ environment.Fails args := by
  constructor
  all_goals
    rintro (h | ⟨h, hlist, hinput⟩)
    · exact .usage h
    · exact .input h hlist hinput

/-! ## Reports -/

theorem report_of_ok {output : List Char} (h : run environment args = .ok output) :
    environment.report args = ⟨(String.ofList output).toUTF8, "", 0⟩ := by
  rw [report, h]
  rfl

theorem exitCode_eq_zero_iff :
    (environment.report args).exitCode = 0 ↔ ¬ environment.Fails args := by
  rw [fails_iff, report]
  cases run environment args <;> simp [Report.ofResult]

theorem exitCode_eq_one_iff :
    (environment.report args).exitCode = 1 ∧ (environment.report args).stdout = ByteArray.empty ↔
      environment.Fails args := by
  rw [fails_iff, report]
  cases run environment args <;> simp [Report.ofResult]

/-- A run that does not fail shows its source. -/
theorem stdout_of_source {options : Options} (h : parseArgs args = .ok (.run options))
    (hlist : options.list = false) (hfails : ¬ environment.Fails args) :
    ∃ bytes, environment.input options.file? = .file bytes ∧
      (environment.ShowsPlain options → (environment.report args).stdout = bytes) ∧
      (¬ environment.ShowsPlain options →
        IsMarkupOf environment.settings.lead bytes (environment.report args).stdout) := by
  cases hsource : (environment.input options.file?).readText with
  | error cause =>
    have hinput := PathTarget.readText_eq_error_iff.1 ⟨cause, hsource⟩
    exact absurd (.input h hlist hinput) hfails
  | ok source =>
    rw [report_of_ok (run_of_source h hlist hsource)]
    have hsound := environment.sound_highlighter options
    refine ⟨_, PathTarget.readText_eq_ok_iff.1 hsource, fun hplain => ?_, fun hplain => ?_⟩
    · rw [renderOutput_of_plain source hsound (showsPlain_iff.1 hplain)]
    · rw [showsPlain_iff, not_or, Bool.not_eq_false, not_not] at hplain
      obtain ⟨language, hmarkup⟩ := renderOutput_of_mem source hsound hplain.1 hplain.2
      have hlead : Settings.isValidLead environment.settings.lead = true :=
        isValidLead_iff.2 (Settings.Loaded.inForce environment.settingsFile?).isClassToken
      rw [hmarkup, lead_highlighter]
      exact ⟨source, _, rfl, rfl, markupSafe_highlight _ _ _ hlead,
        unescape_stripTags_highlight _ _ _ _⟩

/-- **Whole runs.**  A run ends with exit code one and an empty output if its arguments are refused,
or if it needs a source and has none that is text; else it ends with exit code zero.  The settings
file never decides this.  A run that has shown a source has shown its very bytes if highlighting is
switched off or the tag is not registered, and if not, safe markup from which the bytes can be read
back.  The list of the tags is always the same. -/
theorem report_exitCode_stdout (environment : Environment) (args : List String) :
    ((environment.report args).exitCode = 1 ∧
        (environment.report args).stdout = ByteArray.empty ↔ environment.Fails args) ∧
      ((environment.report args).exitCode = 0 ↔ ¬ environment.Fails args) ∧
      (∀ settingsFile?, ({ environment with settingsFile? }.report args).exitCode =
        (environment.report args).exitCode) ∧
      (∀ options, parseArgs args = .ok (.run options) → options.list = false →
        (environment.report args).exitCode = 0 →
        ∃ bytes, environment.input options.file? = .file bytes ∧
          (environment.ShowsPlain options → (environment.report args).stdout = bytes) ∧
          (¬ environment.ShowsPlain options →
            IsMarkupOf environment.settings.lead bytes (environment.report args).stdout)) ∧
      ∀ options, parseArgs args = .ok (.run options) → options.list = true →
        ∀ other : Environment, other.report args = environment.report args := by
  refine ⟨exitCode_eq_one_iff, exitCode_eq_zero_iff, fun settingsFile? => ?_,
    fun options h hlist hexit => stdout_of_source h hlist (exitCode_eq_zero_iff.1 hexit),
    fun options h hlist other => ?_⟩
  · by_cases hfails : environment.Fails args
    · rw [(exitCode_eq_one_iff.2 hfails).1,
        (exitCode_eq_one_iff.2 ((fails_settingsFile? settingsFile?).2 hfails)).1]
    · rw [exitCode_eq_zero_iff.2 hfails,
        exitCode_eq_zero_iff.2 (mt (fails_settingsFile? settingsFile?).1 hfails)]
  · have hlisted : ∀ environment : Environment, run environment args =
        .ok (unlines Highlighter.builtin.tags) := fun environment => by
      simp [run_eq, h, hlist]
    rw [report_of_ok (hlisted other), report_of_ok (hlisted environment)]

end Environment

end CodeMarkup
