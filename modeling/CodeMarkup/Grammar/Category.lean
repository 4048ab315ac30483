import CodeMarkup.Pattern.Matcher
import CodeMarkup.Pattern.Written.Reader

/-!
# Token categories

A category is a named kind of token of one language, with the matcher of its tokens. The category
of a pattern is accepted unless the pattern matches the empty text somewhere in one of a few sample
texts. A category read from a written pattern is checked so, and its line anchors hold at every
line.

* `Category.accept` checks the category of a pattern.
* `Category.readWith` reads a category under flags and checks it, and `Category.read` does so with
  no flag but the one for line anchors and with no table of properties.
* `Category.readUnchecked` reads one without the check and with line anchors at the text's ends.
* `Category.findAt?` is the first match of a category at or after an offset.
-/

namespace CodeMarkup

/-- Why a category is refused. -/
inductive CategoryError where
  /-- The pattern of the category cannot be read. -/
  | badPattern (category : String)
  /-- The pattern of the category matches the empty text. -/
  | matchesEmpty (category : String)
  deriving DecidableEq, Repr

/-- What is wrong with the category, in words. For a pattern that cannot be read these are the words
up to the colon; what the reader of patterns finds wrong with it, which follows there, is left
out. -/
def CategoryError.message : CategoryError → String
  | badPattern category => "Invalid pattern for category '" ++ category ++ "'"
  | matchesEmpty category => "Pattern for category '" ++ category ++ "' matches the empty string"

/-! ## All matches in a text -/

namespace Matcher

/-- The matches that follow each other from a place on, at most `fuel` of them. `last?` is the end
of the match before. An empty match there is passed over: the search goes on one character later. -/
def matchesWithin (m : Matcher) : Nat → Option Nat → Cursor → List (Cursor × Cursor)
  | 0, _, _ => []
  | fuel + 1, last?, place =>
    match m.find? place with
    | none => []
    | some (start, stop) =>
      if start.offset == stop.offset && last? == some stop.offset then
        match place.next?.bind m.find? with
        | none => []
        | some (start, stop) => (start, stop) :: matchesWithin m fuel (some stop.offset) stop
      else (start, stop) :: matchesWithin m fuel (some stop.offset) stop

/-- All matches in a text that follow each other, in order. -/
def allMatches (m : Matcher) (text : List Char) : List (Cursor × Cursor) :=
  m.matchesWithin (text.length + 2) none (.start text)

/-- Whether one of the matches in a text is empty. -/
def matchesEmptyIn (m : Matcher) (text : List Char) : Bool :=
  (m.allMatches text).any fun found => found.1.offset == found.2.offset

end Matcher

/-! ## Categories -/

/-- A named kind of token. -/
structure Category where
  /-- The name of the category. -/
  name : String
  /-- What matches the tokens of the category. -/
  matcher : Matcher
  deriving DecidableEq, Repr

namespace Category

/-- The sample texts in which a category must not match the empty text. -/
def samples : List String := ["", " ", "a", "0", "a b", "\n"]

/-- The category of a pattern. -/
def ofPattern (name : String) (p : Pattern) : Category := ⟨name, .ofPattern p⟩

/-- The category of a pattern, if the pattern does not match the empty text in a sample. -/
def accept (name : String) (p : Pattern) : Except CategoryError Category :=
  let category := ofPattern name p
  if samples.any fun text => category.matcher.matchesEmptyIn text.toList then
    .error (.matchesEmpty name)
  else .ok category

/-- Reads a category with a pattern written under flags and checks it. -/
def readWith (flags : Written.Flags) (name : String) (written : List Char) :
    Except CategoryError Category :=
  match Pattern.readWith? flags written with
  | none => .error (.badPattern name)
  | some p => accept name p

/-- Reads a category with a written pattern and checks it. -/
def read (name : String) (written : List Char) : Except CategoryError Category :=
  readWith { multiLine := true } name written

/-- Reads a category with a written pattern, without a check on empty matches. -/
def readUnchecked (name : String) (written : List Char) : Except CategoryError Category :=
  match Pattern.read? false written with
  | none => .error (.badPattern name)
  | some p => .ok (ofPattern name p)

/-- The offsets of the first match at or after an offset. The characters before the offset are
seen by the conditions of the pattern. -/
def findAt? (category : Category) (text : List Char) (start : Nat) : Option (Nat × Nat) := do
  let place ← Cursor.seek? text start
  let found ← category.matcher.find? place
  pure (found.1.offset, found.2.offset)

end Category

end CodeMarkup
