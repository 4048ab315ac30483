import CodeMarkup.Markup.Render

/-!
# Languages

A language has a name, the tags by which a page refers to it, the grammar of its tokens and the
classifier that gives them classes. Patterns that several languages share stand here, each also in
the form in which it is written.
-/

namespace CodeMarkup

/-- A language that can be highlighted. -/
structure Language where
  /-- The name of the language. -/
  name : String
  /-- The tags by which pages refer to the language. -/
  tags : List String := []
  /-- The token categories of the language. -/
  grammar : Grammar := {}
  /-- The classes of its tokens. -/
  classifier : Classifier := {}
  deriving DecidableEq, Repr

namespace Language

/-- A language with one more tag. -/
def addTag (language : Language) (tag : String) : Language :=
  { language with tags := language.tags ++ [tag] }

/-- The markup of a source in a language. -/
def highlight (language : Language) (lead source : List Char) : List Char :=
  CodeMarkup.highlight language.grammar language.classifier lead source

end Language

/-! ## Patterns that languages share -/

namespace Pattern

/-- The edge of a word made of ASCII word characters. -/
def asciiEdge : Pattern := look (.word true .either)

/-- One of several words, standing alone: no ASCII word character is joined to it. -/
def wholeWord (words : List String) : Pattern :=
  sequence [asciiEdge, anyOf (words.map String.toList), asciiEdge]

/-- A text between two quotes, where a backslash takes the next character of its line with it. -/
def quoted (quote : Char) : Pattern :=
  sequence
    [literal [quote],
      many (choice
        [sequence [literal ['\\'], set (.noneOf ['\n'])], set (.noneOf [quote, '\\'])]),
      literal [quote]]

/-- A string literal in double or in single quotes. -/
def stringLiteral : Pattern := choice [quoted '"', quoted '\'']

/-- A number sign and the rest of its line. -/
def hashComment : Pattern := sequence [literal ['#'], many (set (.noneOf ['\n']))]

/-- A dollar sign and an identifier. -/
def dollarName : Pattern :=
  sequence
    [literal ['$'], set (.ofRanges [('A', 'Z'), ('a', 'z'), ('_', '_')]),
      many (set (.ofRanges [('A', 'Z'), ('a', 'z'), ('0', '9'), ('_', '_')]))]

end Pattern

/-! ## Written patterns that languages share -/

namespace Written

/-- The edge of a word made of ASCII word characters. -/
def asciiEdge : List Char := "(?-u:\\b)".toList

/-- A text that stands for itself: a backslash takes the meaning from a character that has one. -/
def escaped (text : List Char) : List Char :=
  text.flatMap fun c => if isMeta c then ['\\', c] else [c]

/-- One of several words, standing alone. -/
def wholeWord (words : List String) : List Char :=
  let choices := words.map fun word => escaped word.toList
  asciiEdge ++ "(?:".toList ++ ['|'].intercalate choices ++ ")".toList ++ asciiEdge

/-- A string literal in double or in single quotes. -/
def stringLiteral : List Char :=
  "\"(?:\\\\.|[^\"\\\\])*\"|'(?:\\\\.|[^'\\\\])*'".toList

/-- A number sign and the rest of its line. -/
def hashComment : List Char := "#[^\\n]*".toList

/-- A dollar sign and an identifier. -/
def dollarName : List Char := "\\$[A-Za-z_][A-Za-z0-9_]*".toList

end Written

end CodeMarkup
