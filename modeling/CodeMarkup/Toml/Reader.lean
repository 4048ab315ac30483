import CodeMarkup.Toml.Number
import CodeMarkup.Toml.Table

/-!
# Reading TOML documents

A document is a sequence of lines, each with a key and its value, a header or nothing, and maybe a
comment. Arrays may stretch over several lines; inline tables may not.

`Toml.read?` reads a document as a table. Arrays, inline tables and dotted keys that are nested too
deeply are refused. `Toml.pairLine` writes a line with a key and its value.
-/

namespace CodeMarkup.Toml

/-- The depth at which nested values and dotted keys are refused. -/
def depthLimit : Nat := 80

/-! ## Blanks and comments -/

/-- A text without the spaces and tabs at its head. -/
def skipSpaces (text : List Char) : List Char := text.dropWhile isSpace

/-- A text from the end of its first line on, if nothing but a comment stands before it. -/
def skipComment : List Char → List Char
  | '#' :: rest => rest.dropWhile isTextChar
  | text => text

/-- The text after the end of a line, where blanks and a comment may stand before it. The last line
need not have a line end. -/
def finishLine? (text : List Char) : Option (List Char) :=
  match skipComment (skipSpaces text) with
  | [] => some []
  | text => lineEnd? text

/-- A text without the blanks, comments and line ends at its head, as they may stand in an array. A
comment has to be followed by a line end. -/
def skipLines? : Nat → List Char → Option (List Char)
  | 0, _ => none
  | fuel + 1, text =>
    match skipSpaces text with
    | '#' :: rest => (lineEnd? (rest.dropWhile isTextChar)).bind (skipLines? fuel)
    | '\n' :: rest => skipLines? fuel rest
    | '\r' :: rest => (lineEnd? ('\r' :: rest)).bind (skipLines? fuel)
    | rest => some rest

/-! ## Keys -/

/-- Whether a character may stand in a key without quotes. -/
def isBareKeyChar (c : Char) : Bool := c.isAlphanum || c == '_' || c == '-'

/-- Reads a key, bare or quoted. -/
def readKey? (text : List Char) : Option (Key × List Char) :=
  match text with
  | '"' :: _ => Quoted.readLine? text
  | '\'' :: _ => Quoted.readLine? text
  | _ =>
    if text.head?.any isBareKeyChar then
      some (text.takeWhile isBareKeyChar, text.dropWhile isBareKeyChar)
    else none

/-- Reads keys between points, with blanks around each. -/
def readKeys? : Nat → List Char → Option (List Key × List Char)
  | 0, _ => none
  | fuel + 1, text => do
    let (key, rest) ← readKey? (skipSpaces text)
    match skipSpaces rest with
    | '.' :: rest => do
      let (keys, rest) ← readKeys? fuel rest
      pure (key :: keys, rest)
    | rest => pure ([key], rest)

/-- Reads a dotted key, as the path to a table and the key in it. -/
def readPath? (text : List Char) : Option (List Key × Key × List Char) := do
  let (keys, rest) ← readKeys? (text.length + 1) text
  let key ← keys.getLast?
  if keys.length < depthLimit then pure (keys.dropLast, key, rest) else none

/-! ## Values -/

mutual

/-- Reads a value. `depth` is the number of arrays and inline tables around it. -/
def readValue? : Nat → Nat → List Char → Option (Item × List Char)
  | 0, _, _ => none
  | fuel + 1, depth, text =>
    match text with
    | '"' :: _ => (Quoted.read? text).map fun found => (.string found.1, found.2)
    | '\'' :: _ => (Quoted.read? text).map fun found => (.string found.1, found.2)
    | '[' :: rest =>
      if depth + 1 < depthLimit then do
        let rest ← skipLines? (rest.length + 1) rest
        match rest with
        | ']' :: rest => pure (.array [], rest)
        | rest => do
          let (values, rest) ← readValues? fuel (depth + 1) rest
          pure (.array values, rest)
      else none
    | '{' :: rest =>
      if depth + 1 < depthLimit then
        match skipSpaces rest with
        | '}' :: rest => some (.table .inline [], rest)
        | rest => do
          let (entries, rest) ← readEntries? fuel (depth + 1) [] rest
          pure (.table .inline entries, rest)
      else none
    | 't' :: 'r' :: 'u' :: 'e' :: rest => some (.boolean true, rest)
    | 'f' :: 'a' :: 'l' :: 's' :: 'e' :: rest => some (.boolean false, rest)
    | _ =>
      match Moment.skip? text with
      | some rest => some (.moment, rest)
      | none =>
        (Number.read? text).map fun found =>
          match found.1 with
          | .integer n => (.integer n, found.2)
          | .float => (.float, found.2)

/-- Reads the values of an array that is not empty, up to its closing bracket. A comma may follow
the last one. -/
def readValues? : Nat → Nat → List Char → Option (List Item × List Char)
  | 0, _, _ => none
  | fuel + 1, depth, text => do
    let (value, rest) ← readValue? fuel depth text
    let rest ← skipLines? (rest.length + 1) rest
    match rest with
    | ']' :: rest => pure ([value], rest)
    | ',' :: rest => do
      let rest ← skipLines? (rest.length + 1) rest
      match rest with
      | ']' :: rest => pure ([value], rest)
      | rest => do
        let (values, rest) ← readValues? fuel depth rest
        pure (value :: values, rest)
    | _ => none

/-- Reads the entries of an inline table that is not empty, up to its closing brace, after the
entries read before. -/
def readEntries? : Nat → Nat → Table → List Char → Option (Table × List Char)
  | 0, _, _, _ => none
  | fuel + 1, depth, entries, text => do
    let (path, key, rest) ← readPath? text
    match rest with
    | '=' :: rest => do
      let (value, rest) ← readValue? fuel depth (skipSpaces rest)
      let entries ← Table.define? .inline path key value .inline entries
      match skipSpaces rest with
      | '}' :: rest => pure (entries, rest)
      | ',' :: rest => readEntries? fuel depth entries rest
      | _ => none
    | _ => none

end

/-! ## Documents -/

/-- Reads a header after its first bracket, and the rest of its line. -/
def readHeader? (layout : Layout) (text : List Char) : Option (Layout × List Char) :=
  match text with
  | '[' :: rest => do
    let (path, key, rest) ← readPath? rest
    match rest with
    | ']' :: ']' :: rest => do
      let rest ← finishLine? rest
      let layout ← layout.openElement? path key
      pure (layout, rest)
    | _ => none
  | _ => do
    let (path, key, rest) ← readPath? text
    match rest with
    | ']' :: rest => do
      let rest ← finishLine? rest
      let layout ← layout.openTable? path key
      pure (layout, rest)
    | _ => none

/-- Reads a dotted key and its value, and the rest of the line. -/
def readPair? (layout : Layout) (text : List Char) : Option (Layout × List Char) := do
  let (path, key, rest) ← readPath? text
  match rest with
  | '=' :: rest => do
    let (value, rest) ← readValue? (text.length + 1) 0 (skipSpaces rest)
    let rest ← finishLine? rest
    let layout ← layout.define? path key value
    pure (layout, rest)
  | _ => none

/-- Reads the lines of a document. -/
def readLines? : Nat → Layout → List Char → Option Table
  | 0, _, _ => none
  | fuel + 1, layout, text =>
    match skipSpaces text with
    | [] => layout.close?
    | '#' :: rest => (finishLine? ('#' :: rest)).bind (readLines? fuel layout)
    | '\n' :: rest => readLines? fuel layout rest
    | '\r' :: rest => (lineEnd? ('\r' :: rest)).bind (readLines? fuel layout)
    | '[' :: rest => (readHeader? layout rest).bind fun found => readLines? fuel found.1 found.2
    | rest => (readPair? layout rest).bind fun found => readLines? fuel found.1 found.2

/-- A text without the byte order mark at its head, if there is one. -/
def dropByteOrderMark : List Char → List Char
  | c :: rest => if c.toNat == 0xFEFF then rest else c :: rest
  | [] => []

/-- Reads a document as the table of its entries, which have to be sound. -/
def read? (text : List Char) : Option Table := do
  let text := dropByteOrderMark text
  let entries ← readLines? (text.length + 1) {} text
  if Item.areSoundEntries entries then pure entries else none

/-! ## Writing -/

/-- The line of a key without quotes and its value, as the value is written. -/
def pairLine (key : Key) (written : List Char) : List Char :=
  key ++ " = ".toList ++ written ++ ['\n']

end CodeMarkup.Toml
