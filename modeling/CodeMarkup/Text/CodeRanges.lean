/-!
# Sets of code points

The character classes of this library are tables of code points. A table is a sorted list of
closed ranges with a gap between each two, and a look-up stops at the first range that begins after
the code point. A set has one such list only, so equal sets have equal tables.
-/

namespace CodeMarkup

/-- A set of code points: closed ranges, sorted and with gaps between them. -/
abbrev CodeRanges := List (Nat × Nat)

namespace CodeRanges

/-- Whether a code point lies in one of the ranges. -/
def contains : CodeRanges → Nat → Bool
  | [], _ => false
  | (first, last) :: rest, n =>
    if n < first then false else if n ≤ last then true else contains rest n

/-- A set with one more range. Ranges that touch become one. -/
def insert (first last : Nat) : CodeRanges → CodeRanges
  | [] => [(first, last)]
  | (a, b) :: rest =>
    if last + 1 < a then (first, last) :: (a, b) :: rest
    else if b + 1 < first then (a, b) :: insert first last rest
    else insert (min first a) (max last b) rest

/-- The code points in one set or the other. -/
def union (s t : CodeRanges) : CodeRanges := s.foldr (fun range all => insert range.1 range.2 all) t

/-- The gaps of a set from a code point on. -/
def gapsFrom (next : Nat) : CodeRanges → CodeRanges
  | [] => if next ≤ 0x10FFFF then [(next, 0x10FFFF)] else []
  | (first, last) :: rest =>
    if next < first then (next, first - 1) :: gapsFrom (last + 1) rest else gapsFrom (last + 1) rest

/-- The characters outside a set. Surrogate code points are not characters. -/
def compl (s : CodeRanges) : CodeRanges := gapsFrom 0 (insert 0xD800 0xDFFF s)

/-- The characters in both sets. -/
def inter (s t : CodeRanges) : CodeRanges := compl (union (compl s) (compl t))

end CodeRanges

end CodeMarkup
