import CodeMarkup.Text.Hex

/-!
# Quoted strings of TOML

A TOML string stands in one of four forms: between quotation marks, where a backslash escapes, or
between apostrophes, where nothing does; and each of them on one line, or between triple marks over
several lines.

* `Quoted.read?` reads a string in any form.
* `Quoted.write` writes a string in the plainest form that can hold it.
-/

namespace CodeMarkup.Toml

/-- Whether a character can stand for itself in a string or a comment: a tab, or anything that is
not a control character. -/
def isTextChar (c : Char) : Bool := c == '\t' || (decide (32 ≤ c.toNat) && c.toNat != 127)

/-- Whether a character is a space or a tab. -/
def isSpace (c : Char) : Bool := c == ' ' || c == '\t'

/-- A text after a line end at its head, if there is one. -/
def lineEnd? : List Char → Option (List Char)
  | '\n' :: rest => some rest
  | '\r' :: '\n' :: rest => some rest
  | _ => none

namespace Quoted

/-! ## Reading -/

/-- A character in front of a string that has been read. -/
def push (c : Char) (result : Option (List Char × List Char)) : Option (List Char × List Char) :=
  result.map fun found => (c :: found.1, found.2)

/-- The character that a letter after a backslash stands for. -/
def escaped? : Char → Option Char
  | 'b' => some '\x08'
  | 't' => some '\t'
  | 'n' => some '\n'
  | 'f' => some '\x0c'
  | 'r' => some '\r'
  | '"' => some '"'
  | '\\' => some '\\'
  | _ => none

/-- The character that hexadecimal digits after a backslash stand for. -/
def coded? (digits : List Char) : Option Char := (hexValue? 0 digits).bind scalar?

/-- Reads a string on one line, with escapes, after its opening mark. -/
def readBasic : List Char → Option (List Char × List Char)
  | [] => none
  | '"' :: rest => some ([], rest)
  | '\\' :: 'u' :: a :: b :: c :: d :: rest =>
    (coded? [a, b, c, d]).bind fun x => push x (readBasic rest)
  | '\\' :: 'U' :: a :: b :: c :: d :: e :: f :: g :: h :: rest =>
    (coded? [a, b, c, d, e, f, g, h]).bind fun x => push x (readBasic rest)
  | '\\' :: c :: rest => (escaped? c).bind fun x => push x (readBasic rest)
  | c :: rest => if c != '\\' && isTextChar c then push c (readBasic rest) else none

/-- Reads a string on one line, without escapes, after its opening mark. -/
def readLiteral : List Char → Option (List Char × List Char)
  | [] => none
  | '\'' :: rest => some ([], rest)
  | c :: rest => if isTextChar c then push c (readLiteral rest) else none

/-- Whether only spaces stand before the next line end of a text. -/
def endsLine (text : List Char) : Bool := (lineEnd? (text.dropWhile isSpace)).isSome

/-- Reads a string over several lines, with escapes, after its opening marks. A backslash at the end
of a line takes the blanks after it along; `trimming` says whether such blanks are being skipped. Up
to two marks may stand directly before the closing ones. -/
def readBasicLines (trimming : Bool) : List Char → Option (List Char × List Char)
  | [] => none
  | '"' :: '"' :: '"' :: '"' :: '"' :: rest => some (['"', '"'], rest)
  | '"' :: '"' :: '"' :: '"' :: rest => some (['"'], rest)
  | '"' :: '"' :: '"' :: rest => some ([], rest)
  | '\r' :: '\n' :: rest =>
    if trimming then readBasicLines true rest else push '\n' (readBasicLines false rest)
  | '\n' :: rest =>
    if trimming then readBasicLines true rest else push '\n' (readBasicLines false rest)
  | '\\' :: rest =>
    if endsLine rest then readBasicLines true rest
    else
      match rest with
      | 'u' :: a :: b :: c :: d :: rest =>
        (coded? [a, b, c, d]).bind fun x => push x (readBasicLines false rest)
      | 'U' :: a :: b :: c :: d :: e :: f :: g :: h :: rest =>
        (coded? [a, b, c, d, e, f, g, h]).bind fun x => push x (readBasicLines false rest)
      | c :: rest => (escaped? c).bind fun x => push x (readBasicLines false rest)
      | [] => none
  | c :: rest =>
    if trimming && isSpace c then readBasicLines true rest
    else if isTextChar c then push c (readBasicLines false rest)
    else none

/-- Reads a string over several lines, without escapes, after its opening marks. Up to two marks may
stand directly before the closing ones. -/
def readLiteralLines : List Char → Option (List Char × List Char)
  | [] => none
  | '\'' :: '\'' :: '\'' :: '\'' :: '\'' :: rest => some (['\'', '\''], rest)
  | '\'' :: '\'' :: '\'' :: '\'' :: rest => some (['\''], rest)
  | '\'' :: '\'' :: '\'' :: rest => some ([], rest)
  | '\r' :: '\n' :: rest => push '\n' (readLiteralLines rest)
  | '\n' :: rest => push '\n' (readLiteralLines rest)
  | c :: rest => if isTextChar c then push c (readLiteralLines rest) else none

/-- A text without the line end at its head, if there is one. -/
def dropLineEnd (text : List Char) : List Char := (lineEnd? text).getD text

/-- Reads a string that stands on one line. -/
def readLine? : List Char → Option (List Char × List Char)
  | '"' :: rest => readBasic rest
  | '\'' :: rest => readLiteral rest
  | _ => none

/-- Reads a string. A line end directly after triple opening marks does not belong to it. -/
def read? : List Char → Option (List Char × List Char)
  | '"' :: '"' :: '"' :: rest => readBasicLines false (dropLineEnd rest)
  | '\'' :: '\'' :: '\'' :: rest => readLiteralLines (dropLineEnd rest)
  | text => readLine? text

/-! ## Writing -/

/-- The form in which a string is written. -/
inductive Style where
  /-- Between quotation marks, on one line. -/
  | basic
  /-- Between apostrophes, on one line. -/
  | literal
  /-- Between triple quotation marks. -/
  | basicLines
  /-- Between triple apostrophes. -/
  | literalLines
  deriving DecidableEq, Repr

/-- The length of the longest run of a mark in a text, at least `best`, where `run` marks stand
before the text. -/
def longestRun (mark : Char) (run best : Nat) : List Char → Nat
  | [] => best
  | c :: rest =>
    if c = mark then longestRun mark (run + 1) (max best (run + 1)) rest
    else longestRun mark 0 best rest

/-- Whether a character has to be written by its code: a control character other than a tab or a
line feed. -/
def needsCode (c : Char) : Bool :=
  (decide (c.toNat < 32) && c != '\t' && c != '\n') || c.toNat == 127

/-- The plainest form that can hold a string. The forms on one line come first, and of each pair the
one between quotation marks, as long as it needs no escapes. -/
def style (text : List Char) : Style :=
  let coded := text.any needsCode
  let backslash := text.contains '\\'
  let lines := text.contains '\n'
  let quotes := longestRun '"' 0 0 text
  let apostrophes := longestRun '\'' 0 0 text
  if !coded && !backslash && quotes == 0 && !lines then .basic
  else if !coded && apostrophes == 0 && !lines then .literal
  else if !coded && !backslash && decide (quotes ≤ 2) then .basicLines
  else if !coded && decide (apostrophes ≤ 2) then .literalLines
  else if lines then .basicLines
  else .basic

/-- A character between quotation marks; `lines` says whether line feeds stand for themselves. -/
def writeChar (lines : Bool) (c : Char) : List Char :=
  match c with
  | '\x08' => "\\b".toList
  | '\t' => "\\t".toList
  | '\n' => if lines then ['\n'] else "\\n".toList
  | '\x0c' => "\\f".toList
  | '\r' => "\\r".toList
  | '\\' => "\\\\".toList
  | c => if needsCode c then "\\u".toList ++ upperHex4 c.toNat else [c]

/-- The content between quotation marks, where `run` marks stand directly before it. A mark is
escaped if it would make a run longer than `limit`. -/
def writeBody (lines : Bool) (limit run : Nat) : List Char → List Char
  | [] => []
  | c :: rest =>
    if c = '"' then
      if limit < run + 1 then "\\\"".toList ++ writeBody lines limit 0 rest
      else '"' :: writeBody lines limit (run + 1) rest
    else writeChar lines c ++ writeBody lines limit 0 rest

/-- A string in a form. Triple marks are followed by a line end if the string has several lines. -/
def writeAs (form : Style) (text : List Char) : List Char :=
  let opening := if text.contains '\n' then ['\n'] else []
  match form with
  | .basic => "\"".toList ++ writeBody false 0 0 text ++ "\"".toList
  | .literal => "'".toList ++ text ++ "'".toList
  | .basicLines => "\"\"\"".toList ++ opening ++ writeBody true 2 0 text ++ "\"\"\"".toList
  | .literalLines => "'''".toList ++ opening ++ text ++ "'''".toList

/-- A string in the plainest form that can hold it. -/
def write (text : List Char) : List Char := writeAs (style text) text

end Quoted

end CodeMarkup.Toml
