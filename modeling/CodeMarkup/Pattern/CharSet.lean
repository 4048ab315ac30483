import CodeMarkup.Text.Blank
import CodeMarkup.Text.LetterCase
import CodeMarkup.Text.Word

/-!
# Sets of characters

The sets that a pattern can name, as expressions over ranges and the classes of digits, blanks and
word characters. `CharSet.mem` decides membership; it is the only meaning that a set has.

* `CharSet.caseless` closes a set under the letters that differ in case only.
* `CharSet.ofRanges` and `CharSet.ofChars` build the finite unions.
-/

namespace CodeMarkup

/-- A set of characters. -/
inductive CharSet where
  /-- No character. -/
  | none
  /-- The characters from the first to the last of two. -/
  | range (first last : Char)
  /-- The decimal digits of every script. -/
  | digit
  /-- The blank characters. -/
  | blank
  /-- The word characters of every script. -/
  | word
  /-- The characters outside a set. -/
  | compl (s : CharSet)
  /-- The characters in one set or the other. -/
  | union (s t : CharSet)
  /-- The characters in both sets. -/
  | inter (s t : CharSet)
  /-- The characters that equal a member up to case. -/
  | caseless (s : CharSet)
  /-- The characters that equal a member up to the case of ASCII letters. -/
  | asciiCaseless (s : CharSet)
  deriving DecidableEq, Repr

namespace CharSet

/-- The letters that equal a character up to the case of ASCII letters. -/
def asciiOrbit (c : Char) : List Char := if c.isAlpha then [c.toLower, c.toUpper] else [c]

/-- Whether a character is a member of a set. -/
def mem : CharSet → Char → Bool
  | none, _ => false
  | range first last, c => decide (first.toNat ≤ c.toNat) && decide (c.toNat ≤ last.toNat)
  | digit, c => isDecimalDigit c
  | blank, c => isBlank c
  | word, c => isWord c
  | compl s, c => !s.mem c
  | union s t, c => s.mem c || t.mem c
  | inter s t, c => s.mem c && t.mem c
  | caseless s, c => (caseOrbit c).any s.mem
  | asciiCaseless s, c => (asciiOrbit c).any s.mem

/-- The number of ranges and classes with which a set is written. -/
def parts : CharSet → Nat
  | compl s => s.parts
  | union s t => s.parts + t.parts
  | inter s t => s.parts + t.parts
  | caseless s => s.parts
  | asciiCaseless s => s.parts
  | _ => 1

/-- The set of one character. -/
def single (c : Char) : CharSet := range c c

/-- The characters of `s` that are not in `t`. -/
def diff (s t : CharSet) : CharSet := inter s (compl t)

/-- The characters in exactly one of two sets. -/
def symmDiff (s t : CharSet) : CharSet := union (diff s t) (diff t s)

/-- The union of a list of sets. -/
def unions : List CharSet → CharSet
  | [] => none
  | [s] => s
  | s :: rest => union s (unions rest)

/-- The characters that lie in one of the ranges. -/
def ofRanges (ranges : List (Char × Char)) : CharSet :=
  unions (ranges.map fun pair => range pair.1 pair.2)

/-- The characters of a list. -/
def ofChars (chars : List Char) : CharSet := unions (chars.map single)

/-- Every character. -/
def all : CharSet := compl none

/-- Every character outside a list. -/
def noneOf (chars : List Char) : CharSet := compl (ofChars chars)

/-- The ASCII digits. -/
def asciiDigit : CharSet := range '0' '9'

/-- The ASCII letters and digits and the low line. -/
def asciiWord : CharSet := ofRanges [('0', '9'), ('A', 'Z'), ('_', '_'), ('a', 'z')]

/-- The ASCII blanks: the tab up to the carriage return, and the space. -/
def asciiBlank : CharSet := ofRanges [('\t', '\r'), (' ', ' ')]

end CharSet

end CodeMarkup
