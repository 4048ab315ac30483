import CodeMarkup.Text.Word

/-!
# Conditions on a place

A `Look` is a condition that a pattern can put on a place in the text: the ends of the text, the
ends of a line, the edges of a word. Each looks at the character before the place and the character
after it, and at nothing else.
-/

namespace CodeMarkup

/-- How a place stands to the words beside it. -/
inductive WordEdge where
  /-- A word starts or ends here. -/
  | either
  /-- No word starts or ends here. -/
  | neither
  /-- A word starts here. -/
  | opens
  /-- A word ends here. -/
  | closes
  /-- No word character stands before. -/
  | noneBefore
  /-- No word character stands after. -/
  | noneAfter
  deriving DecidableEq, Repr

/-- A condition on a place in a text. -/
inductive Look where
  /-- The start of the text. -/
  | textStart
  /-- The end of the text. -/
  | textEnd
  /-- The start of a line that a line feed ends. -/
  | lineStart
  /-- The end of a line that a line feed ends. -/
  | lineEnd
  /-- The start of a line that a carriage return, a line feed or the pair ends. -/
  | returnLineStart
  /-- The end of a line that a carriage return, a line feed or the pair ends. -/
  | returnLineEnd
  /-- An edge of words made of word characters, or of ASCII word characters only. -/
  | word (ascii : Bool) (edge : WordEdge)
  deriving DecidableEq, Repr

/-- Whether words with a character before or after a place, or not, have this edge there. -/
def WordEdge.holds : WordEdge → (before after : Bool) → Bool
  | either, before, after => before != after
  | neither, before, after => before == after
  | opens, before, after => !before && after
  | closes, before, after => before && !after
  | noneBefore, before, _ => !before
  | noneAfter, _, after => !after

/-- Whether a place between two characters, either of which may be missing, meets a condition. -/
def Look.holds : Look → (prev? next? : Option Char) → Bool
  | textStart, prev?, _ => prev?.isNone
  | textEnd, _, next? => next?.isNone
  | lineStart, prev?, _ => prev?.isNone || prev? == some '\n'
  | lineEnd, _, next? => next?.isNone || next? == some '\n'
  | returnLineStart, prev?, next? =>
    prev?.isNone || prev? == some '\n' || (prev? == some '\r' && next? != some '\n')
  | returnLineEnd, prev?, next? =>
    next?.isNone || next? == some '\r' || (next? == some '\n' && prev? != some '\r')
  | word ascii edge, prev?, next? =>
    let isPart := if ascii then isAsciiWord else isWord
    edge.holds (prev?.any isPart) (next?.any isPart)

end CodeMarkup
