import CodeMarkup.Pattern.Basic
import CodeMarkup.Pattern.Written.Flags
import CodeMarkup.Text.Hex

/-!
# Escapes in written patterns

A backslash and what follows it stand for one character, for a class of characters or for a
condition on a place. The same escapes are read inside and outside of bracketed classes; inside, a
condition has no meaning and is refused by the reader of classes.
-/

namespace CodeMarkup.Written

/-- What an escape, or a single character, stands for. -/
inductive Primitive where
  /-- A character; `byte` if it was written as one byte in two hexadecimal digits. -/
  | char (c : Char) (byte : Bool)
  /-- A class of characters or, if negated, the characters outside it. -/
  | set (negated : Bool) (s : CharSet)
  /-- A condition on a place. -/
  | look (l : Look)

/-! ## Meanings under flags -/

/-- The set of a class that an escape names. Without the Unicode flag there is no set of the
characters outside a class, because it would have to hold parts of characters. -/
def Flags.negate? (flags : Flags) (negated : Bool) (s : CharSet) : Option CharSet :=
  if negated then (if flags.unicode then some (.compl s) else none) else some s

/-- A set closed under case, where flags ask for it. -/
def Flags.fold (flags : Flags) (s : CharSet) : CharSet :=
  if flags.caseless then (if flags.unicode then .caseless s else .asciiCaseless s) else s

/-- The set of a single character outside of brackets. -/
def Flags.charSet? (flags : Flags) (c : Char) (byte : Bool) : Option CharSet :=
  if byte && !flags.unicode && decide (0x7F < c.toNat) then none else some (flags.fold (.single c))

/-- The digits, as flags understand them. -/
def Flags.digits (flags : Flags) : CharSet := if flags.unicode then .digit else .asciiDigit

/-- The blanks, as flags understand them. -/
def Flags.blanks (flags : Flags) : CharSet := if flags.unicode then .blank else .asciiBlank

/-- The word characters, as flags understand them. -/
def Flags.wordChars (flags : Flags) : CharSet := if flags.unicode then .word else .asciiWord

/-- The characters that the dot stands for. -/
def Flags.dot? (flags : Flags) : Option CharSet :=
  if !flags.unicode then none
  else if flags.dotAll then some .all
  else if flags.returns then some (.noneOf ['\r', '\n'])
  else some (.noneOf ['\n'])

/-- The condition that the circumflex stands for. -/
def Flags.lineStart (flags : Flags) : Look :=
  if flags.multiLine then (if flags.returns then .returnLineStart else .lineStart) else .textStart

/-- The condition that the dollar sign stands for. -/
def Flags.lineEnd (flags : Flags) : Look :=
  if flags.multiLine then (if flags.returns then .returnLineEnd else .lineEnd) else .textEnd

/-- The condition on the edge of a word, as flags understand words. -/
def Flags.edge (flags : Flags) (edge : WordEdge) : Primitive := .look (.word (!flags.unicode) edge)

/-! ## Hexadecimal escapes -/

/-- Reads exactly `count` hexadecimal digits after the value of those before. -/
def readHexDigits (flags : Flags) (value : Nat) : Nat → List Char → Option (Nat × List Char)
  | 0, input => some (value, input)
  | count + 1, input =>
    match flags.skip input with
    | [] => none
    | c :: rest =>
      match hexDigit? c with
      | none => none
      | some d => readHexDigits flags (16 * value + d) count rest

/-- Reads hexadecimal digits up to a closing brace, after the value of those before; there has to
be at least one. -/
def readHexBraced (flags : Flags) (value? : Option Nat) : Nat → List Char → Option (Nat × List Char)
  | 0, _ => none
  | fuel + 1, input =>
    match flags.skip input with
    | [] => none
    | '}' :: rest => value?.map fun value => (value, rest)
    | c :: rest =>
      match hexDigit? c with
      | none => none
      | some d => readHexBraced flags (some (16 * value?.getD 0 + d)) fuel rest

/-- Reads the code point of a hexadecimal escape: digits in braces, or `count` digits. -/
def readHex (flags : Flags) (count : Nat) (input : List Char) : Option (Primitive × List Char) :=
  match flags.skip input with
  | '{' :: rest => do
    let (value, rest) ← readHexBraced flags none (rest.length + 1) rest
    let c ← scalar? value
    pure (.char c false, rest)
  | digits => do
    let (value, rest) ← readHexDigits flags 0 count digits
    let c ← scalar? value
    pure (.char c (count == 2), rest)

/-! ## Named word edges -/

/-- The word edge that a name in braces stands for. -/
def namedEdge? (name : List Char) : Option WordEdge :=
  match String.ofList name with
  | "start" => some .opens
  | "end" => some .closes
  | "start-half" => some .noneBefore
  | "end-half" => some .noneAfter
  | _ => none

/-- Whether a character may stand in the name of a word edge. -/
def isEdgeNamePart (c : Char) : Bool := c.isAlpha || c == '-'

/-- Reads the name of a word edge up to the closing brace, after the characters `name`, the last
one first. -/
def readEdgeName (flags : Flags) (name : List Char) :
    Nat → List Char → Option (WordEdge × List Char)
  | 0, _ => none
  | fuel + 1, input =>
    match input with
    | [] => none
    | '}' :: rest => (namedEdge? name.reverse).map fun edge => (edge, rest)
    | c :: rest =>
      if isEdgeNamePart c then readEdgeName flags (c :: name) fuel (flags.skip rest) else none

/-- Reads what follows the letter of a word edge. A brace opens the name of an edge, unless what it
holds cannot be one: then it is left for a repetition. -/
def readEdge (flags : Flags) (input : List Char) : Option (Primitive × List Char) :=
  match input with
  | '{' :: rest =>
    match flags.skip rest with
    | [] => none
    | c :: more =>
      if isEdgeNamePart c then do
        let (edge, rest) ← readEdgeName flags [] (more.length + 2) (c :: more)
        pure (flags.edge edge, rest)
      else some (flags.edge .either, input)
  | _ => some (flags.edge .either, input)

/-! ## Properties of characters -/

/-- Reads the name of a property up to the closing brace, after the characters `name`, the last one
first. -/
def readPropertyName (flags : Flags) (name : List Char) :
    Nat → List Char → Option (List Char × List Char)
  | 0, _ => none
  | fuel + 1, input =>
    match flags.skip input with
    | [] => none
    | '}' :: rest => some (name.reverse, rest)
    | c :: rest => readPropertyName flags (c :: name) fuel rest

/-- Reads what follows the letter of a property: its name in braces, or a name of one character. It
has to be known, and without the Unicode flag there are no properties. The set is closed under case
before it is negated. -/
def readProperty (flags : Flags) (negated : Bool) (input : List Char) :
    Option (Primitive × List Char) := do
  let (name, rest) ←
    match flags.skip input with
    | [] => none
    | '{' :: rest => readPropertyName flags [] (rest.length + 1) rest
    | '\\' :: _ => none
    | c :: rest => some ([c], rest)
  if flags.unicode then
    let s ← flags.properties name
    pure (.set negated (flags.fold s), rest)
  else none

/-! ## Escapes -/

/-- Whether a character has a meaning of its own in written patterns. -/
def isMeta (c : Char) : Bool :=
  ['\\', '.', '+', '*', '?', '(', ')', '|', '[', ']', '\x7b', '\x7d', '^', '$', '#', '&', '-',
    '~'].contains c

/-- Whether a backslash before a character makes it stand for itself: signs and ASCII characters
other than letters, digits and angle brackets. -/
def isEscapable (c : Char) : Bool :=
  isMeta c ||
    (decide (c.toNat < 128) && !c.isAlphanum && c != '<' && c != '>')

/-- Reads what follows a backslash. Digits are refused, as there are no references to groups, and so
are letters without a meaning. -/
def readEscape (flags : Flags) (input : List Char) : Option (Primitive × List Char) :=
  match input with
  | [] => none
  | c :: rest =>
    if isEscapable c then some (.char c false, rest)
    else
      match c with
      | 'x' => readHex flags 2 rest
      | 'u' => readHex flags 4 rest
      | 'U' => readHex flags 8 rest
      | 'd' => some (.set false flags.digits, rest)
      | 'D' => some (.set true flags.digits, rest)
      | 's' => some (.set false flags.blanks, rest)
      | 'S' => some (.set true flags.blanks, rest)
      | 'w' => some (.set false flags.wordChars, rest)
      | 'W' => some (.set true flags.wordChars, rest)
      | 'p' => readProperty flags false rest
      | 'P' => readProperty flags true rest
      | 'a' => some (.char '\x07' false, rest)
      | 'f' => some (.char '\x0c' false, rest)
      | 't' => some (.char '\t' false, rest)
      | 'n' => some (.char '\n' false, rest)
      | 'r' => some (.char '\r' false, rest)
      | 'v' => some (.char '\x0b' false, rest)
      | 'A' => some (.look .textStart, rest)
      | 'z' => some (.look .textEnd, rest)
      | 'b' => readEdge flags rest
      | 'B' => some (flags.edge .neither, rest)
      | '<' => some (flags.edge .opens, rest)
      | '>' => some (flags.edge .closes, rest)
      | _ => none

end CodeMarkup.Written
