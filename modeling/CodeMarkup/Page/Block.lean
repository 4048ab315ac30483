import CodeMarkup.Text.Blank

/-!
# Code blocks

A block is a code sample on a page, with the language tags that its class list declares and the
markup that is shown for it. A block is processed at most once: its content is its source until it
is processed, and its markup from then on.
-/

namespace CodeMarkup

/-- Whether a block has been processed. -/
inductive BlockState where
  /-- The content is the source. -/
  | unprocessed
  /-- The content is markup. -/
  | processed
  deriving DecidableEq, Repr

/-- The name of a state. -/
def BlockState.name : BlockState → String
  | unprocessed => "Unprocessed"
  | processed => "Processed"

/-- A code sample on a page. -/
structure Block where
  /-- The text of the sample. -/
  source : List Char
  /-- The declared language tags, in order. -/
  languages : List String
  /-- What is shown for the sample. -/
  content : List Char
  /-- Whether the sample has been processed. -/
  state : BlockState
  deriving DecidableEq, Repr

/-- The lead of the classes that declare a language. -/
def languageClassLead : List Char := "language-".toList

/-- The tag that a class declares, if it declares one. -/
def languageOfClass? (cls : List Char) : Option String :=
  if languageClassLead.isPrefixOf cls && decide (languageClassLead.length < cls.length) then
    some (String.ofList (cls.drop languageClassLead.length))
  else none

/-- The tags that a class list declares, in order. -/
def languagesOfClasses (classes : List Char) : List String :=
  (words classes).filterMap languageOfClass?

namespace Block

/-- An unprocessed block with language tags. -/
def ofTags (source : List Char) (tags : List String) : Block :=
  ⟨source, tags, source, .unprocessed⟩

/-- An unprocessed block with one language tag, or with none. -/
def ofSource (source : List Char) (language? : Option String) : Block :=
  ofTags source language?.toList

/-- An unprocessed block with the tags that a class list declares. -/
def ofClasses (source classes : List Char) : Block := ofTags source (languagesOfClasses classes)

/-- The first declared tag. -/
def language? (block : Block) : Option String := block.languages.head?

/-- Whether a block has been processed. -/
def isProcessed (block : Block) : Bool := block.state == .processed

/-- A block with its markup, processed. -/
def withMarkup (block : Block) (markup : List Char) : Block :=
  { block with content := markup, state := .processed }

end Block

end CodeMarkup
