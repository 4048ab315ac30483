/-!
# Places in a text

Offsets into a text count the bytes of its UTF-8 form. A `Cursor` is a place between two characters
of a text: it knows its offset, the character before it, and the text after it, and nothing further
back.

* `Cursor.next?` moves a cursor over one character.
* `Cursor.seek?` finds the first place at or after an offset.
* `slice` cuts a text between two offsets.
-/

namespace CodeMarkup

/-- The number of bytes in the UTF-8 form of a text. -/
def utf8Length : List Char → Nat
  | [] => 0
  | c :: rest => c.utf8Size + utf8Length rest

/-- A place in a text. -/
structure Cursor where
  /-- The number of bytes before the place. -/
  offset : Nat
  /-- The character before the place, if it is not the start of the text. -/
  prev? : Option Char
  /-- The text after the place. -/
  rest : List Char
  deriving DecidableEq, Repr

namespace Cursor

/-- The place before the first character of a text. -/
def start (text : List Char) : Cursor := ⟨0, none, text⟩

/-- The character after the place, if it is not the end of the text. -/
def peek? (place : Cursor) : Option Char := place.rest.head?

/-- The place after the character `c`, where `rest` follows it. -/
def after (place : Cursor) (c : Char) (rest : List Char) : Cursor :=
  ⟨place.offset + c.utf8Size, some c, rest⟩

/-- The place one character further on, if there is one. -/
def next? (place : Cursor) : Option Cursor :=
  match place.rest with
  | [] => none
  | c :: rest => some (place.after c rest)

/-- The first place of `rest`, itself at `offset` and after `prev?`, at or after `target`. -/
def seekFrom (target offset : Nat) (prev? : Option Char) : List Char → Option Cursor
  | [] => if target ≤ offset then some ⟨offset, prev?, []⟩ else none
  | c :: rest =>
    if target ≤ offset then some ⟨offset, prev?, c :: rest⟩
    else seekFrom target (offset + c.utf8Size) (some c) rest

/-- The first place of a text at or after an offset, if the text is that long. -/
def seek? (text : List Char) (target : Nat) : Option Cursor := seekFrom target 0 none text

end Cursor

/-- A text without its first characters, as many as fill `count` bytes. -/
def dropBytes : Nat → List Char → List Char
  | _, [] => []
  | 0, text => text
  | count + 1, c :: rest => dropBytes (count + 1 - c.utf8Size) rest

/-- The first characters of a text, as many as fit in `count` bytes. -/
def takeBytes : Nat → List Char → List Char
  | _, [] => []
  | count, c :: rest =>
    if c.utf8Size ≤ count then c :: takeBytes (count - c.utf8Size) rest else []

/-- The part of a text between two byte offsets. -/
def slice (text : List Char) (first last : Nat) : List Char :=
  takeBytes (last - first) (dropBytes first text)

end CodeMarkup
