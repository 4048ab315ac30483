import CodeMarkup.Pattern.CharSet

/-!
# The members of a set of characters

A set of characters is an expression, and two expressions can denote the same set. This module gives
the table of the members of a set, by which sets can be compared and measured.

* `CharSet.ranges` is the table of the members.
* `CharSet.same` says whether two expressions denote the same set.
* `CharSet.only?` is the member of a set that has just one.
-/

namespace CodeMarkup.CharSet

/-- The members of a set that names them one by one. -/
def chars? : CharSet → Option (List Char)
  | none => some []
  | range first last => if first = last then some [first] else Option.none
  | union s t => do pure ((← s.chars?) ++ (← t.chars?))
  | _ => Option.none

/-- A table with the given characters added. -/
def withChars (chars : List Char) (table : CodeRanges) : CodeRanges :=
  chars.foldr (fun c all => CodeRanges.insert c.toNat c.toNat all) table

/-- The ASCII letters. -/
def asciiLetters : List Char := (stepsFrom 65 1 26 ++ stepsFrom 97 1 26).map Char.ofNat

/-- A table with all characters added that equal a member up to case. -/
def closeCase (mem : Char → Bool) (table : CodeRanges) : CodeRanges :=
  ((caseRepresentatives.map caseOrbit).filter fun orbit => orbit.any mem).foldr withChars table

/-- A table with all ASCII letters added that equal a member up to case. -/
def closeAsciiCase (mem : Char → Bool) (table : CodeRanges) : CodeRanges :=
  withChars (asciiLetters.filter fun c => (asciiOrbit c).any mem) table

/-- The table of the members of a set. -/
def ranges : CharSet → CodeRanges
  | none => []
  | range first last => if first ≤ last then [(first.toNat, last.toNat)] else []
  | digit => decimalDigitRanges
  | blank => blankRanges
  | word => wordRanges
  | compl s => CodeRanges.compl s.ranges
  | union s t => CodeRanges.union s.ranges t.ranges
  | inter s t => CodeRanges.inter s.ranges t.ranges
  | caseless s =>
    match s.chars? with
    | some chars => withChars (chars.flatMap caseOrbit) []
    | Option.none => closeCase s.mem s.ranges
  | asciiCaseless s => closeAsciiCase s.mem s.ranges

/-- Whether two sets have the same members. -/
def same (s t : CharSet) : Bool := s == t || s.ranges == t.ranges

/-- The only member of a set, if it has just one. -/
def only? : CharSet → Option Char
  | range first last => if first = last then some first else Option.none
  | digit => Option.none
  | blank => Option.none
  | word => Option.none
  | caseless s =>
    match s.only? with
    | some c => if (caseOrbit c).all (· == c) then some c else Option.none
    | Option.none => Option.none
  | s =>
    match s.ranges with
    | [(first, last)] => if first = last then some (Char.ofNat first) else Option.none
    | _ => Option.none

/-- Whether two sets are known to have no member in common, because one of them names its members
one by one. -/
def apart (s t : CharSet) : Bool :=
  match s.chars?, t.chars? with
  | some chars, _ => !chars.any t.mem
  | Option.none, some chars => !chars.any s.mem
  | Option.none, Option.none => false

end CodeMarkup.CharSet
