import CodeMarkup.Pattern.Written.Primitive

/-!
# Bracketed classes in written patterns

Square brackets hold a set of characters: single characters, ranges, classes, further brackets, and
the operators `&&` (both), `--` (the first only) and `~~` (exactly one), which group from the left
and bind more loosely than the union of neighbours.

Every reader here also counts how deeply brackets, unions and operators are nested, since a written
pattern has to stay below a fixed depth.
-/

namespace CodeMarkup.Written

/-- A value and the depth of nesting in which it was written. -/
structure Nested (α : Type) where
  /-- The value. -/
  value : α
  /-- The number of signs that enclose the innermost one. -/
  depth : Nat

/-- The least depth that is at least as great as all of a list. -/
def deepest {α : Type} (parts : List (Nested α)) : Nat :=
  parts.foldl (fun depth part => max depth part.depth) 0

/-! ## Parts of a class -/

/-- An operator between two sets. -/
inductive SetOperator where
  /-- The characters in both sets. -/
  | inter
  /-- The characters in the first set only. -/
  | diff
  /-- The characters in exactly one set. -/
  | symmDiff

/-- The set that an operator makes of two. -/
def SetOperator.apply : SetOperator → CharSet → CharSet → CharSet
  | inter, s, t => .inter s t
  | diff, s, t => .diff s t
  | symmDiff, s, t => .symmDiff s t

/-- The named classes of ASCII characters. -/
def namedClass? (name : List Char) : Option CharSet :=
  match String.ofList name with
  | "alnum" => some (.ofRanges [('0', '9'), ('A', 'Z'), ('a', 'z')])
  | "alpha" => some (.ofRanges [('A', 'Z'), ('a', 'z')])
  | "ascii" => some (.range '\x00' '\x7f')
  | "blank" => some (.ofChars ['\t', ' '])
  | "cntrl" => some (.ofRanges [('\x00', '\x1f'), ('\x7f', '\x7f')])
  | "digit" => some (.range '0' '9')
  | "graph" => some (.range '!' '~')
  | "lower" => some (.range 'a' 'z')
  | "print" => some (.range ' ' '~')
  | "punct" => some (.ofRanges [('!', '/'), (':', '@'), ('[', '\x60'), ('\x7b', '~')])
  | "space" => some .asciiBlank
  | "upper" => some (.range 'A' 'Z')
  | "word" => some .asciiWord
  | "xdigit" => some (.ofRanges [('0', '9'), ('A', 'F'), ('a', 'f')])
  | _ => none

/-- Reads a named class after its opening bracket, as `:name:]` or, negated, `:^name:]`. -/
def readNamedClass (input : List Char) : Option (Bool × CharSet × List Char) :=
  match input with
  | ':' :: more =>
    let (negated, more) :=
      match more with
      | '^' :: rest => (true, rest)
      | _ => (false, more)
    match more.dropWhile (· != ':') with
    | ':' :: ']' :: rest => (namedClass? (more.takeWhile (· != ':'))).map (negated, ·, rest)
    | _ => none
  | _ => none

/-- Reads one character or escape of a class. -/
def readMember (flags : Flags) (input : List Char) : Option (Primitive × List Char) :=
  match input with
  | [] => none
  | '\\' :: rest => readEscape flags rest
  | c :: rest => some (.char c false, rest)

/-- The character that an end of a range stands for. Without the Unicode flag it has to be an ASCII
character. -/
def endpoint? (flags : Flags) : Primitive → Option Char
  | .char c _ => if !flags.unicode && decide (0x7F < c.toNat) then none else some c
  | _ => none

/-- The set that a member stands for. -/
def memberSet? (flags : Flags) : Primitive → Option CharSet
  | .set negated s => flags.negate? negated s
  | p => (endpoint? flags p).map CharSet.single

/-- The next sign after the first character of a text, past the blanks and the beginning of a
comment where flags skip them. -/
def peekPast (flags : Flags) (input : List Char) : Option Char :=
  let rest := input.drop 1
  if flags.spaced then
    match rest.dropWhile isBlank with
    | '#' :: more => (more.dropWhile isBlank).head?
    | more => more.head?
  else rest.head?

/-- Reads a member of a class, or a range from one member to another. A minus before a closing
bracket or before another minus does not make a range. -/
def readRange (flags : Flags) (input : List Char) : Option (CharSet × List Char) := do
  let (first, rest) ← readMember flags input
  let rest := flags.skip rest
  match rest with
  | [] => none
  | '-' :: more =>
    let past := peekPast flags rest
    if past == some ']' || past == some '-' then
      let s ← memberSet? flags first
      pure (s, rest)
    else
      let (last, rest) ← readMember flags (flags.skip more)
      let a ← endpoint? flags first
      let b ← endpoint? flags last
      if a.toNat ≤ b.toNat then pure (.range a b, rest) else none
  | _ =>
    let s ← memberSet? flags first
    pure (s, rest)

/-! ## Whole classes -/

/-- The union of the members read, the last one first. -/
def unite (members : List (Nested CharSet)) : Nested CharSet :=
  match members with
  | [] => ⟨.none, 0⟩
  | [one] => one
  | _ => ⟨.unions (members.reverse.map Nested.value), deepest members + 1⟩

/-- A first set, if there is one, combined with a second. Both are closed under case before. -/
def combine (flags : Flags) (left? : Option (Nested CharSet × SetOperator))
    (right : Nested CharSet) : Nested CharSet :=
  match left? with
  | none => right
  | some (left, operator) =>
    ⟨operator.apply (flags.fold left.value) (flags.fold right.value),
      max left.depth right.depth + 1⟩

/-- The minus signs at the head of a class, as its members, and what follows them. -/
def readMinuses (flags : Flags) (members : List (Nested CharSet)) :
    Nat → List Char → List (Nested CharSet) × List Char
  | 0, input => (members, input)
  | fuel + 1, input =>
    match input with
    | '-' :: rest => readMinuses flags (⟨.single '-', 0⟩ :: members) fuel (flags.skip rest)
    | _ => (members, input)

/-- Reads the head of a class after its opening bracket: a circumflex that negates it, and signs
that would have a meaning elsewhere. -/
def readHead (flags : Flags) (input : List Char) : Bool × List (Nested CharSet) × List Char :=
  let input := flags.skip input
  let (negated, input) :=
    match input with
    | '^' :: rest => (true, flags.skip rest)
    | _ => (false, input)
  match readMinuses flags [] input.length input with
  | ([], ']' :: rest) => (negated, [⟨.single ']', 0⟩], flags.skip rest)
  | (members, rest) => (negated, members, rest)

/-- The set of a class whose parts are read. -/
def closeClass (flags : Flags) (negated : Bool) (inner : Nested CharSet) :
    Option (Nested CharSet) :=
  (flags.negate? negated (flags.fold inner.value)).map fun s => ⟨s, inner.depth + 1⟩

/-- Reads the rest of a class up to its closing bracket. `left?` is what stands before the last
operator and `members` what was read since, the last one first. -/
def readParts (flags : Flags) (negated : Bool) :
    Nat → Option (Nested CharSet × SetOperator) → List (Nested CharSet) → List Char →
      Option (Nested CharSet × List Char)
  | 0, _, _, _ => none
  | fuel + 1, left?, members, input =>
    match flags.skip input with
    | [] => none
    | '[' :: rest =>
      match readNamedClass rest with
      | some (outside, s, rest) => do
        let s ← flags.negate? outside (flags.fold s)
        readParts flags negated fuel left? (⟨s, 0⟩ :: members) rest
      | none => do
        let head := readHead flags rest
        let (inner, rest) ← readParts flags head.1 fuel none head.2.1 head.2.2
        readParts flags negated fuel left? (inner :: members) rest
    | ']' :: rest => do
      let s ← closeClass flags negated (combine flags left? (unite members))
      pure (s, rest)
    | '&' :: '&' :: rest =>
      readParts flags negated fuel (some (combine flags left? (unite members), .inter)) [] rest
    | '-' :: '-' :: rest =>
      readParts flags negated fuel (some (combine flags left? (unite members), .diff)) [] rest
    | '~' :: '~' :: rest =>
      readParts flags negated fuel (some (combine flags left? (unite members), .symmDiff)) [] rest
    | input => do
      let (s, rest) ← readRange flags input
      readParts flags negated fuel left? (⟨s, 0⟩ :: members) rest

/-- Reads a bracketed class after its opening bracket. -/
def readBracket (flags : Flags) (input : List Char) : Option (Nested CharSet × List Char) :=
  let head := readHead flags input
  readParts flags head.1 (input.length + 1) none head.2.1 head.2.2

end CodeMarkup.Written
