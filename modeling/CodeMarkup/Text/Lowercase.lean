import CodeMarkup.Text.Cased
import CodeMarkup.Text.LetterCase

/-!
# Lower-casing a text

Every character becomes its lower-case letter, with two exceptions. The capital I with a dot above
becomes two characters, an i and a combining dot. The capital sigma has two lower-case letters, and
which one stands is decided by its neighbours: the final form ends a word.
-/

namespace CodeMarkup

/-- Whether the first character of a list that is not case-ignorable is cased. -/
def meetsCased (text : List Char) : Bool :=
  match text.dropWhile isCaseIgnorable with
  | [] => false
  | c :: _ => isCased c

/-- The lower-case form of a character that does not depend on its neighbours. -/
def lowerForm (c : Char) : List Char :=
  if c.toNat == 0x130 then ['i', Char.ofNat 0x307] else [lowerChar c]

/-- The lower case of a capital sigma between `before`, last character first, and `after`: final
when a cased letter stands before it and none stands after it. -/
def lowerSigma (before after : List Char) : Char :=
  if meetsCased before && !meetsCased after then Char.ofNat 0x3C2 else Char.ofNat 0x3C3

/-- The lower case of a text that follows `before`, which is given last character first. -/
def lowercaseAfter (before : List Char) : List Char → List Char
  | [] => []
  | c :: rest =>
    (if c.toNat == 0x3A3 then [lowerSigma before rest] else lowerForm c) ++
      lowercaseAfter (c :: before) rest

/-- The lower case of a text. -/
def lowercase (text : List Char) : List Char := lowercaseAfter [] text

end CodeMarkup
