/-!
# The bytes of characters

The UTF-8 form of a character has one to four bytes. The characters of a range do not share a form,
but every range splits into parts whose characters have the same number of bytes and of which each
byte runs, by itself, from a first to a last one.

* `Utf8.bytes` is the form of a code point.
* `Utf8.paths` gives the parts of a range, in order.
-/

namespace CodeMarkup.Utf8

/-- The bytes from a first to a last one. -/
abbrev ByteRange := Nat × Nat

/-- The bytes of the UTF-8 form of a code point. -/
def bytes (n : Nat) : List Nat :=
  if n < 0x80 then [n]
  else if n < 0x800 then [0xC0 + n / 64, 0x80 + n % 64]
  else if n < 0x10000 then [0xE0 + n / 4096, 0x80 + n / 64 % 64, 0x80 + n % 64]
  else [0xF0 + n / 262144, 0x80 + n / 4096 % 64, 0x80 + n / 64 % 64, 0x80 + n % 64]

/-- Where to cut a range in two because of its last `6 * k` bits, where `block` is two to that
power: code points that agree in the bits before have to come in whole blocks. -/
def blockCut? (first last block : Nat) : Option (Nat × Nat) :=
  if first / block = last / block then none
  else if first % block ≠ 0 then
    let next := (first / block + 1) * block
    some (next - 1, next)
  else if last % block ≠ block - 1 then
    let next := last / block * block
    some (next - 1, next)
  else none

/-- Where to cut a range in two, if it has to be cut: the end of the first part and the start of the
second. The parts have no surrogates, and characters with forms of one length. -/
def cut? (first last : Nat) : Option (Nat × Nat) :=
  if first < 0xE000 ∧ 0xD7FF < last then some (0xD7FF, 0xE000)
  else if first ≤ 0x7F ∧ 0x7F < last then some (0x7F, 0x80)
  else if first ≤ 0x7FF ∧ 0x7FF < last then some (0x7FF, 0x800)
  else if first ≤ 0xFFFF ∧ 0xFFFF < last then some (0xFFFF, 0x10000)
  else if last ≤ 0x7F then none
  else
    (blockCut? first last 64).or
      ((blockCut? first last 4096).or (blockCut? first last 262144))

/-- The parts of a range, after at most `fuel` cuts one inside the other. -/
def pathsWithin : Nat → Nat → Nat → List (List ByteRange)
  | 0, _, _ => []
  | fuel + 1, first, last =>
    if last < first then []
    else
      match cut? first last with
      | some (stop, start) => pathsWithin fuel first stop ++ pathsWithin fuel start last
      | none => [(bytes first).zip (bytes last)]

/-- The parts of a range, in order, each as a range for every byte. No range is cut more than seven
times deep. -/
def paths (first last : Nat) : List (List ByteRange) := pathsWithin 16 first last

end CodeMarkup.Utf8
