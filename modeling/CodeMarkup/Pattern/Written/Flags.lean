import CodeMarkup.Pattern.CharSet
import CodeMarkup.Text.Alphabetic
import CodeMarkup.Text.Blank
import CodeMarkup.Text.Digit

/-!
# Flags and group openers of written patterns

A written pattern is read under flags, which change what its signs mean. Flags stand in a group of
their own, `(?i-s)`, and then hold up to the end of the group around them, or at the head of a
group, `(?i-s:…)`, and then hold inside it.

A written pattern can also name a property of characters, such as a script or a kind of letters. The
tables of these properties are no part of this library: who reads a pattern supplies them together
with the flags.
-/

namespace CodeMarkup.Written

/-- The set of the characters with a property, for each name that is known. A name is what stands
between the braces of a pattern, in any of its spellings and with its value if it has one. -/
abbrev Properties := List Char → Option CharSet

/-- How the signs of a written pattern are to be understood. -/
structure Flags where
  /-- Letters stand for both cases: the sign `i`. -/
  caseless : Bool := false
  /-- Line anchors hold at every line: the sign `m`. -/
  multiLine : Bool := false
  /-- The dot matches line feeds too: the sign `s`. -/
  dotAll : Bool := false
  /-- Repetitions are lazy unless a question mark follows: the sign `U`. -/
  swapGreed : Bool := false
  /-- Classes and word edges go by every script, not by ASCII alone: the sign `u`. -/
  unicode : Bool := true
  /-- A carriage return ends a line as well: the sign `R`. -/
  returns : Bool := false
  /-- Blanks and comments between the signs are skipped: the sign `x`. -/
  spaced : Bool := false
  /-- What the names of properties stand for. No sign changes this. -/
  properties : Properties := fun _ => none

/-- The flags with the one that a sign names switched on or off, if there is one. -/
def Flags.set? (flags : Flags) (sign : Char) (on : Bool) : Option Flags :=
  match sign with
  | 'i' => some { flags with caseless := on }
  | 'm' => some { flags with multiLine := on }
  | 's' => some { flags with dotAll := on }
  | 'U' => some { flags with swapGreed := on }
  | 'u' => some { flags with unicode := on }
  | 'R' => some { flags with returns := on }
  | 'x' => some { flags with spaced := on }
  | _ => none

/-! ## Blanks and comments -/

/-- A text without the blanks and comments at its head. A comment runs from a number sign to the
end of the line; `inComment` says whether the text begins within one. -/
def skipComments (inComment : Bool) : List Char → List Char
  | [] => []
  | c :: rest =>
    if inComment then skipComments (c != '\n') rest
    else if isBlank c then skipComments false rest
    else if c == '#' then skipComments true rest
    else c :: rest

/-- A text from its next sign on: without leading blanks and comments where flags skip them. -/
def Flags.skip (flags : Flags) (input : List Char) : List Char :=
  if flags.spaced then skipComments false input else input

/-! ## Group openers -/

/-- What an opening parenthesis begins. -/
inductive Opener where
  /-- Flags for the rest of the group around it; it is closed already. -/
  | flags (flags : Flags)
  /-- A group without a number, read under flags. -/
  | plain (flags : Flags)
  /-- A group with a number and maybe a name. -/
  | numbered (name? : Option (List Char))

/-- Reads the flags of a group, up to the colon or the closing parenthesis after them. `signs` are
those already read, `off` tells whether a minus was among them and `dangling` whether it was the
last one. No sign may come twice, and a minus must be followed by a flag. -/
def readFlags (flags : Flags) (signs : List Char) (off dangling : Bool) :
    List Char → Option (Opener × List Char)
  | [] => none
  | ':' :: rest => if dangling then none else some (.plain flags, rest)
  | ')' :: rest => if dangling || signs.isEmpty then none else some (.flags flags, rest)
  | c :: rest =>
    if signs.contains c then none
    else if c == '-' then readFlags flags (c :: signs) true true rest
    else
      match flags.set? c (!off) with
      | none => none
      | some flags' => readFlags flags' (c :: signs) off false rest

/-- Whether a character may stand first in the name of a group. -/
def isNameStart (c : Char) : Bool := c == '_' || isAlphabetic c

/-- Whether a character may stand in the name of a group, after the first. -/
def isNamePart (c : Char) : Bool :=
  c == '_' || c == '.' || c == '[' || c == ']' || isAlphabetic c || isNumeric c

/-- Reads the name of a group, up to the closing angle bracket after it. -/
def readName (input : List Char) : Option (Opener × List Char) :=
  match input with
  | [] => none
  | first :: more =>
    let part := more.takeWhile isNamePart
    match more.dropWhile isNamePart with
    | '>' :: rest =>
      if isNameStart first then some (.numbered (some (first :: part)), rest) else none
    | _ => none

/-- Reads what follows an opening parenthesis, up to the body of the group. Conditions on the text
around a place that are not of a fixed kind (the four look-around groups) are not supported. -/
def readOpener (flags : Flags) (input : List Char) : Option (Opener × List Char) :=
  let input := flags.skip input
  match input with
  | '?' :: '=' :: _ => none
  | '?' :: '!' :: _ => none
  | '?' :: '<' :: '=' :: _ => none
  | '?' :: '<' :: '!' :: _ => none
  | '?' :: 'P' :: '<' :: rest => readName rest
  | '?' :: '<' :: rest => readName rest
  | '?' :: rest => readFlags flags [] false false rest
  | _ => some (.numbered none, input)

end CodeMarkup.Written
