import CodeMarkup.Grammar.Scan
import CodeMarkup.Markup.Escape

/-!
# Rendering segments as markup

The text of every segment is escaped once. A segment with a class stands in a span whose class
attribute is the class name behind the lead of the page. The lead itself is written as it is.
-/

namespace CodeMarkup

/-- The tag that opens the span of a token. -/
def spanOpen (lead : List Char) (c : TokenClass) : List Char :=
  "<span class=\"".toList ++ c.cssClass lead ++ "\">".toList

/-- The tag that closes a span. -/
def spanClose : List Char := "</span>".toList

/-- The markup of a text with a class or without one. -/
def renderPiece (lead : List Char) (class? : Option TokenClass) (text : List Char) : List Char :=
  match class? with
  | some c => spanOpen lead c ++ escape text ++ spanClose
  | none => escape text

/-- The markup of segments of a source, in the order given. -/
def render (source : List Char) (lead : List Char) (segments : List Segment) : List Char :=
  segments.flatMap fun segment => renderPiece lead segment.class? (segment.text source)

/-- The markup of a source. -/
def highlight (grammar : Grammar) (classifier : Classifier) (lead source : List Char) :
    List Char :=
  render source lead (scan grammar classifier source)

end CodeMarkup
