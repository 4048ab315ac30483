import CodeMarkup.Text.Blank
import CodeMarkup.Text.Lowercase

/-!
# Filtering rule cards

A page lists rules as cards, in rulesets. A search term hides every card whose text does not
contain it, letter case aside, and then every ruleset without a card left to see. The empty term
hides no card.
-/

namespace CodeMarkup

/-- Whether one text is a piece of another. -/
def isPiece (piece : List Char) : List Char → Bool
  | [] => piece.isEmpty
  | c :: rest => piece.isPrefixOf (c :: rest) || isPiece piece rest

/-- A rule on a page. -/
structure RuleCard where
  /-- The anchor of the rule. -/
  id : String
  /-- The text that is searched, in lower case. -/
  haystack : List Char
  /-- Whether the card is hidden. -/
  hidden : Bool := false
  deriving DecidableEq, Repr

namespace RuleCard

/-- A card with the text that is searched. -/
def ofText (id : String) (text : List Char) : RuleCard := { id := id, haystack := lowercase text }

/-- A card that can be found by each of its fields. -/
def ofFields (id : String) (fields : List (List Char)) : RuleCard :=
  ofText id ([' '].intercalate fields)

/-- Whether a card contains a term, which is given in lower case. -/
def contains (card : RuleCard) (term : List Char) : Bool :=
  term.isEmpty || isPiece term card.haystack

/-- A card hidden unless it contains a term. -/
def filter (term : List Char) (card : RuleCard) : RuleCard :=
  { card with hidden := !card.contains term }

end RuleCard

/-- A named group of rules. -/
structure Ruleset where
  /-- The name of the group. -/
  id : String
  /-- The rules of the group. -/
  cards : List RuleCard
  /-- Whether the group is hidden. -/
  hidden : Bool := false
  deriving DecidableEq, Repr

namespace Ruleset

/-- How many cards of a ruleset can be seen. -/
def visibleCount (ruleset : Ruleset) : Nat := ruleset.cards.countP fun card => !card.hidden

/-- A ruleset with its cards hidden unless they contain a term, and hidden itself if no card is
left to see. -/
def filter (term : List Char) (ruleset : Ruleset) : Ruleset :=
  let cards := ruleset.cards.map (RuleCard.filter term)
  { ruleset with cards := cards, hidden := cards.all fun card => card.hidden }

end Ruleset

/-- The rulesets of a page. -/
structure RuleFilter where
  /-- The rulesets, in order. -/
  rulesets : List Ruleset
  deriving DecidableEq, Repr

namespace RuleFilter

/-- A term as it is searched: trimmed and in lower case. -/
def searchTerm (term : List Char) : List Char := lowercase (trim term)

/-- The rulesets after a term has been typed. -/
def apply (filter : RuleFilter) (term : List Char) : RuleFilter :=
  ⟨filter.rulesets.map (Ruleset.filter (searchTerm term))⟩

/-- How many cards can be seen. -/
def visibleCount (filter : RuleFilter) : Nat :=
  filter.rulesets.foldr (fun ruleset count => ruleset.visibleCount + count) 0

/-- The line that tells how many cards can be seen. -/
def countLabel (filter : RuleFilter) : String := toString filter.visibleCount ++ " rules shown"

/-- The rulesets after a term has been typed, and the answer: how many cards can be seen then. -/
def search (filter : RuleFilter) (term : List Char) : RuleFilter × Nat :=
  let filter := filter.apply term
  (filter, filter.visibleCount)

end RuleFilter

end CodeMarkup
