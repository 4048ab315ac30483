import CodeMarkup.Page.Highlighter

/-!
# The command line

The program reads one source, from a file or from standard input, and writes its markup. A source
in a language that is not registered is written as it is, and so is every source while highlighting
is off.

* `parseArgs` reads the arguments.
* `runIn` runs the program with given ways to get the settings and the source.
* `run` runs it in an `Environment` of values.
* `Report` is what a run leaves behind: its bytes on standard output, and its exit code.
-/

namespace CodeMarkup

/-! ## Arguments -/

/-- Why arguments are refused. -/
inductive UsageError where
  /-- An option that needs a language tag is the last argument. -/
  | missingTag (option : String)
  /-- An argument looks like an option and is none. -/
  | unknownOption (option : String)
  /-- A file was named before. -/
  | secondFile
  deriving DecidableEq, Repr

/-- What is wrong with the arguments, in words. -/
def UsageError.message : UsageError → String
  | missingTag option => option ++ " requires a language tag"
  | unknownOption option => "Unknown option: " ++ option
  | secondFile => "Only one input file may be given"

/-- What a run is to do. -/
structure Options where
  /-- The language tag of the source. -/
  lang : String := "php"
  /-- The file to read; standard input if there is none. -/
  file? : Option String := none
  /-- Whether to list the registered tags instead. -/
  list : Bool := false
  /-- Whether highlighting is allowed. -/
  highlight : Bool := true
  deriving DecidableEq, Repr

/-- What the arguments ask for. -/
inductive Command where
  /-- To run. -/
  | run (options : Options)
  /-- To show the help text. -/
  | help
  /-- To show the version. -/
  | version
  deriving DecidableEq, Repr

/-- Reads arguments after others that made `options`. -/
def parseArgsFrom (options : Options) : List String → Except UsageError Command
  | [] => .ok (.run options)
  | arg :: rest =>
    if arg = "--help" ∨ arg = "-h" then .ok .help
    else if arg = "--version" ∨ arg = "-V" then .ok .version
    else if arg = "--list" then parseArgsFrom { options with list := true } rest
    else if arg = "--no-highlight" then parseArgsFrom { options with highlight := false } rest
    else if arg = "--lang" ∨ arg = "-l" then
      match rest with
      | [] => .error (.missingTag arg)
      | tag :: rest => parseArgsFrom { options with lang := tag } rest
    else if arg.toList.head? = some '-' ∧ arg ≠ "-" then .error (.unknownOption arg)
    else if options.file?.isSome then .error .secondFile
    else if arg = "-" then parseArgsFrom options rest
    else parseArgsFrom { options with file? := some arg } rest

/-- Reads the arguments of the program. -/
def parseArgs (args : List String) : Except UsageError Command := parseArgsFrom {} args

/-! ## Texts of the program -/

/-- Lines, each with its line end. -/
def unlines (lines : List String) : List Char := lines.flatMap fun line => line.toList ++ ['\n']

/-- The name and the version of the program. -/
def programVersion : String := "dochl 0.1.0"

/-- The help text. -/
def helpText : List Char :=
  unlines
    [programVersion ++ " - highlight code samples for documentation",
      "",
      "Usage: dochl [OPTIONS] [FILE]",
      "",
      "Reads FILE (or stdin when FILE is omitted or '-') and writes markup to stdout.",
      "",
      "Options:",
      "  -l, --lang TAG     Language tag of the input (default: php)",
      "      --list         List registered language tags",
      "      --no-highlight Write the input unchanged",
      "  -h, --help         Show this help message",
      "  -V, --version      Show version information",
      "",
      "Settings are read from ~/.dochl.toml; set RUST_LOG for diagnostics."]

/-- The version text. -/
def versionText : List Char := unlines [programVersion]

/-! ## Running -/

/-- The output for a source with a language tag: its markup, or the source itself if highlighting is
off or the tag is not registered. An unknown tag is all that highlighting a source can fail for, so
there is no other error to report. -/
def renderOutput (highlighter : Highlighter) (tag : String) (source : List Char) : List Char :=
  if !highlighter.enabled then source
  else
    match highlighter.highlightSource tag source with
    | .ok markup => markup
    | .error _ => source

/-- The highlighter of a run, given the one that follows the settings. -/
def Options.highlighter (options : Options) (highlighter : Highlighter) : Highlighter :=
  if options.highlight then highlighter else { highlighter with enabled := false }

/-- Why a run fails. -/
inductive RunError where
  /-- The arguments are refused. -/
  | usage (error : UsageError)
  /-- A built-in category is refused. -/
  | category (error : CategoryError)
  /-- The source cannot be read. -/
  | read (error : ReadError)
  deriving DecidableEq, Repr

/-- What is wrong, in words. -/
def RunError.message : RunError → String
  | usage error => error.message
  | category error => error.message
  | read error => error.message

/-- Runs the program. `getSettings` gives the settings in force and `getSource` the text of a file,
or of standard input; both are asked only when they are needed. -/
def runIn {m : Type → Type} [Monad m] (getSettings : m Settings)
    (getSource : Option String → m (Except ReadError (List Char))) (args : List String) :
    m (Except RunError (List Char)) :=
  match parseArgs args with
  | .error error => pure (.error (.usage error))
  | .ok .help => pure (.ok helpText)
  | .ok .version => pure (.ok versionText)
  | .ok (.run options) => do
    let settings ← getSettings
    match Highlighter.read settings with
    | .error error => pure (.error (.category error))
    | .ok highlighter =>
      let highlighter := options.highlighter highlighter
      if options.list then pure (.ok (unlines highlighter.tags))
      else
        match ← getSource options.file? with
        | .error error => pure (.error (.read error))
        | .ok source => pure (.ok (renderOutput highlighter options.lang source))

/-- What the program can read. -/
structure Environment where
  /-- The bytes of standard input. -/
  stdin : ByteArray
  /-- What the named paths lead to. -/
  files : String → PathTarget
  /-- The settings file, if there is a home directory. -/
  settingsFile? : Option PathTarget

/-- The text of a file, or of standard input. -/
def Environment.source (environment : Environment) : Option String → Except ReadError (List Char)
  | some path => (environment.files path).readText
  | none => readBytes environment.stdin

/-- The output of the program in an environment. -/
def run (environment : Environment) (args : List String) : Except RunError (List Char) :=
  Id.run (runIn (pure (Settings.load environment.settingsFile?))
    (fun file? => pure (environment.source file?)) args)

/-! ## Reports -/

/-- What a run leaves behind. -/
structure Report where
  /-- The bytes on standard output. -/
  stdout : ByteArray
  /-- What is said about a failure on standard error. -/
  complaint : String
  /-- The exit code. -/
  exitCode : UInt32

/-- The report of a run: its output in UTF-8, or what is wrong. -/
def Report.ofResult : Except RunError (List Char) → Report
  | .ok output => ⟨(String.ofList output).toUTF8, "", 0⟩
  | .error error => ⟨ByteArray.empty, "Error: " ++ error.message ++ "\n", 1⟩

/-- The report of the program in an environment. -/
def Environment.report (environment : Environment) (args : List String) : Report :=
  .ofResult (run environment args)

end CodeMarkup
