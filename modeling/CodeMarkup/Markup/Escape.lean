/-!
# Escaping

Text stands in markup with its ampersands and angle brackets written as entities. One pass over
the text replaces each of the three characters, so an entity that is already in the text is
escaped like any other text.
-/

namespace CodeMarkup

/-- A character as it stands in markup. -/
def escapeChar (c : Char) : List Char :=
  if c = '&' then "&amp;".toList
  else if c = '<' then "&lt;".toList
  else if c = '>' then "&gt;".toList
  else [c]

/-- A text as it stands in markup. -/
def escape (text : List Char) : List Char := text.flatMap escapeChar

/-- Markup with an escaped text behind it. -/
def escapeInto (markup text : List Char) : List Char := markup ++ escape text

end CodeMarkup
