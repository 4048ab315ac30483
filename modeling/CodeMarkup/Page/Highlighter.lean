import CodeMarkup.Dictionary
import CodeMarkup.Language.Builtin
import CodeMarkup.Page.Block
import CodeMarkup.Settings

/-!
# Highlighters

A highlighter knows languages by their tags and turns the blocks of a page into markup. A tag
belongs to the language that claimed it last, and the name of a language stands for the definition
registered last under it. A highlighter can be switched off; then it leaves blocks alone, while a
source can still be highlighted by itself.
-/

namespace CodeMarkup

/-- What became of a block. -/
inductive Outcome where
  /-- The content was replaced by markup. -/
  | highlighted
  /-- The block had been processed before. -/
  | alreadyProcessed
  /-- The block declares no language. -/
  | untagged
  /-- None of the declared languages is registered. -/
  | unsupported
  /-- The highlighter is switched off. -/
  | disabled
  deriving DecidableEq, Repr

/-- The name of an outcome. -/
def Outcome.name : Outcome → String
  | highlighted => "Highlighted"
  | alreadyProcessed => "AlreadyProcessed"
  | untagged => "Untagged"
  | unsupported => "Unsupported"
  | disabled => "Disabled"

/-- No language is registered for a tag. -/
structure UnknownLanguage where
  /-- The tag. -/
  tag : String
  deriving DecidableEq, Repr

/-- What is wrong, in words. -/
def UnknownLanguage.message (error : UnknownLanguage) : String :=
  "No language registered for tag: " ++ error.tag

/-- The registered languages and how they are shown. -/
structure Highlighter where
  /-- The languages by name. -/
  languages : Dictionary Language := []
  /-- The names of the languages by tag. -/
  names : Dictionary String := []
  /-- The lead of class names in markup. -/
  lead : List Char := TokenClass.defaultLead
  /-- Whether blocks are highlighted. -/
  enabled : Bool := true
  deriving DecidableEq, Repr

namespace Highlighter

/-- The highlighter that knows no language. -/
def empty : Highlighter := {}

/-- A highlighter with one more language, which takes over all its tags. -/
def addLanguage (highlighter : Highlighter) (language : Language) : Highlighter :=
  { highlighter with
    languages := highlighter.languages.insert language.name language
    names := language.tags.foldl (fun names tag => names.insert tag language.name)
      highlighter.names }

/-- The highlighter that knows the built-in languages. -/
def builtin : Highlighter := Language.builtin.foldl addLanguage empty

/-- The highlighter that knows the built-in languages and follows settings. -/
def ofSettings (settings : Settings) : Highlighter :=
  { builtin with lead := settings.lead, enabled := settings.highlight }

/-- Reads the built-in languages and makes the highlighter that knows them and follows settings. -/
def read (settings : Settings) : Except CategoryError Highlighter := do
  let languages ← Language.readBuiltin
  let highlighter := languages.foldl addLanguage empty
  pure { highlighter with lead := settings.lead, enabled := settings.highlight }

/-- The language that a tag stands for. -/
def languageForTag? (highlighter : Highlighter) (tag : String) : Option Language :=
  (highlighter.names.get? tag).bind highlighter.languages.get?

/-- The registered tags, in order. -/
def tags (highlighter : Highlighter) : List String := highlighter.names.keys

/-- The markup of a source in the language of a tag. -/
def highlightSource (highlighter : Highlighter) (tag : String) (source : List Char) :
    Except UnknownLanguage (List Char) :=
  match highlighter.languageForTag? tag with
  | none => .error ⟨tag⟩
  | some language => .ok (language.highlight highlighter.lead source)

/-- A block after highlighting, and what became of it. The first of its tags that is registered
gives the language. -/
def highlightBlock (highlighter : Highlighter) (block : Block) : Block × Outcome :=
  if block.isProcessed then (block, .alreadyProcessed)
  else if !highlighter.enabled then (block, .disabled)
  else if block.languages.isEmpty then (block, .untagged)
  else
    match block.languages.findSome? highlighter.languageForTag? with
    | none => (block, .unsupported)
    | some language =>
      (block.withMarkup (language.highlight highlighter.lead block.source), .highlighted)

/-- Blocks after highlighting, and how many of them became markup. -/
def highlightAll (highlighter : Highlighter) (blocks : List Block) : List Block × Nat :=
  let results := blocks.map highlighter.highlightBlock
  (results.map Prod.fst, results.countP fun result => result.2 == .highlighted)

/-- A highlighter switched on if it was off, and off if it was on. -/
def toggle (highlighter : Highlighter) : Highlighter :=
  { highlighter with enabled := !highlighter.enabled }

end Highlighter

end CodeMarkup
