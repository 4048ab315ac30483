import CodeMarkup.Grammar.Category

/-!
# Grammars

A grammar is the list of the token categories of a language. The order is precedence: of two
categories that match at the same place, the one declared first wins.

* `Grammar.readWith` and `Grammar.read` read the categories of a grammar; the first one refused
  refuses it.
* `Grammar.findAt?` is the earliest match of a grammar at or after an offset.
-/

namespace CodeMarkup

/-- The token categories of a language, in order of precedence. -/
structure Grammar where
  /-- The categories, the strongest first. -/
  categories : List Category := []
  deriving DecidableEq, Repr

/-- A match of a category of a grammar. -/
structure GrammarMatch where
  /-- Where the match starts. -/
  start : Cursor
  /-- Where the match ends. -/
  stop : Cursor
  /-- The position of the category in the grammar. -/
  category : Nat

/-- The matched text. -/
def GrammarMatch.text (found : GrammarMatch) : List Char :=
  takeBytes (found.stop.offset - found.start.offset) found.start.rest

namespace Grammar

/-- Reads a grammar from names and patterns written under flags. -/
def readWith (flags : Written.Flags) (rules : List (String × List Char)) :
    Except CategoryError Grammar := do
  let categories ← rules.mapM fun rule => Category.readWith flags rule.1 rule.2
  pure ⟨categories⟩

/-- Reads a grammar from names and written patterns. -/
def read (rules : List (String × List Char)) : Except CategoryError Grammar :=
  readWith { multiLine := true } rules

/-- Reads a grammar from names and written patterns, without a check on empty matches. -/
def readUnchecked (rules : List (String × List Char)) : Except CategoryError Grammar := do
  let categories ← rules.mapM fun rule => Category.readUnchecked rule.1 rule.2
  pure ⟨categories⟩

/-- The category at a position. -/
def category? (grammar : Grammar) (index : Nat) : Option Category := grammar.categories[index]?

/-- The name of the category at a position, or the empty name if there is none. -/
def categoryName (grammar : Grammar) (index : Nat) : String :=
  match grammar.category? index with
  | some category => category.name
  | none => ""

/-- The number of categories. -/
def size (grammar : Grammar) : Nat := grammar.categories.length

/-- Whether a grammar has no category. -/
def isEmpty (grammar : Grammar) : Bool := grammar.categories.isEmpty

/-- The better of the best match so far and that of one more category: the earlier one and, of two
at the same place, the one found before. An empty match does not count. -/
def better (place : Cursor) (best? : Option GrammarMatch) (category : Category × Nat) :
    Option GrammarMatch :=
  match category.1.matcher.find? place with
  | none => best?
  | some (start, stop) =>
    if start.offset == stop.offset then best?
    else
      match best? with
      | none => some ⟨start, stop, category.2⟩
      | some best =>
        if start.offset < best.start.offset then some ⟨start, stop, category.2⟩ else some best

/-- The earliest match at or after a place. A category whose first match there is empty does not
take part. -/
def find? (grammar : Grammar) (place : Cursor) : Option GrammarMatch :=
  grammar.categories.zipIdx.foldl (better place) none

/-- The earliest match at or after an offset. -/
def findAt? (grammar : Grammar) (text : List Char) (start : Nat) : Option GrammarMatch :=
  (Cursor.seek? text start).bind grammar.find?

end Grammar

end CodeMarkup
