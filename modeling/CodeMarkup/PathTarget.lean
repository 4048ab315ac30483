/-!
# What a path leads to

A path leads to nothing, to a directory or to a file of bytes. Text can be read only from a file
whose bytes are UTF-8. It can be written to a file, or to a new one where nothing is yet, but not to
a directory, and not where the directory is missing that a new file would be put in.
-/

namespace CodeMarkup

/-- Why no text can be read. -/
inductive ReadError where
  /-- There is nothing to read from. -/
  | notFound
  /-- It is a directory. -/
  | isDirectory
  /-- The bytes are not UTF-8. -/
  | notUtf8
  deriving DecidableEq, Repr

/-- What is wrong, in words. -/
def ReadError.message : ReadError → String
  | notFound => "I/O error: No such file or directory (os error 2)"
  | isDirectory => "I/O error: Is a directory (os error 21)"
  | notUtf8 => "I/O error: stream did not contain valid UTF-8"

/-- Why no text can be written. -/
inductive WriteError where
  /-- There is no directory that a new file could be put in. -/
  | notFound
  /-- It would be written to a directory. -/
  | isDirectory
  deriving DecidableEq, Repr

/-- What is wrong, in words. -/
def WriteError.message : WriteError → String
  | notFound => "I/O error: No such file or directory (os error 2)"
  | isDirectory => "I/O error: Is a directory (os error 21)"

/-- The text that bytes hold in UTF-8. -/
def readBytes (bytes : ByteArray) : Except ReadError (List Char) :=
  match String.fromUTF8? bytes with
  | some text => .ok text.toList
  | none => .error .notUtf8

/-- What a path leads to. -/
inductive PathTarget where
  /-- Nothing, in a directory that is there. -/
  | nothing
  /-- Nothing, and the directory is missing as well. -/
  | nowhere
  /-- A directory. -/
  | directory
  /-- A file with its bytes. -/
  | file (bytes : ByteArray)

/-- The text of the file that a path leads to. -/
def PathTarget.readText : PathTarget → Except ReadError (List Char)
  | nothing => .error .notFound
  | nowhere => .error .notFound
  | directory => .error .isDirectory
  | file bytes => readBytes bytes

/-- What the path leads to after a text has been written to it: a file of this text and of nothing
that was there before. -/
def PathTarget.writeText (text : List Char) : PathTarget → Except WriteError PathTarget
  | nowhere => .error .notFound
  | directory => .error .isDirectory
  | nothing | file _ => .ok (.file (String.ofList text).toUTF8)

end CodeMarkup
