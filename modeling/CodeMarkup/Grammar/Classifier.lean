import CodeMarkup.Markup.TokenClass

/-!
# Classifiers

A classifier gives the text of a token its class. It holds rules in order, and the first rule whose
test the text meets decides; a text that meets none gets the fallback. A rule or the fallback can
also decide that the token has no class.
-/

namespace CodeMarkup

/-- A test on the text of a token. -/
inductive TextTest where
  /-- The text starts with a given one. -/
  | startsWith (head : String)
  /-- The text starts with one of several. -/
  | startsWithAny (heads : List String)
  /-- The text is a given word. -/
  | equals (word : String)
  /-- The text is one of several words. -/
  | oneOf (words : List String)
  /-- The text starts with an ASCII digit. -/
  | startsWithDigit
  deriving DecidableEq, Repr

/-- Whether a text meets a test. -/
def TextTest.holds : TextTest → List Char → Bool
  | startsWith head, text => head.toList.isPrefixOf text
  | startsWithAny heads, text => heads.any fun head => head.toList.isPrefixOf text
  | equals word, text => word.toList == text
  | oneOf words, text => words.any fun word => word.toList == text
  | startsWithDigit, text => text.head?.any Char.isDigit

/-- Rules that give the text of a token its class. -/
structure Classifier where
  /-- The tests, with the class that each one gives. -/
  rules : List (TextTest × Option TokenClass) := []
  /-- The class of a text that meets no test. -/
  fallback : Option TokenClass := none
  deriving DecidableEq, Repr

namespace Classifier

/-- The class of a text. -/
def classify (classifier : Classifier) (text : List Char) : Option TokenClass :=
  match classifier.rules.find? fun rule => rule.1.holds text with
  | some (_, c) => c
  | none => classifier.fallback

end Classifier

end CodeMarkup
