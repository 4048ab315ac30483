import CodeMarkup.Pattern.Automaton.Layout
import CodeMarkup.Pattern.Written.Bracket

/-!
# Reading written patterns

A written pattern is read sign by sign. Parentheses are read by recursion; flags that stand alone
hold from their place to the end of the group around them, over its further branches too.

A written pattern is refused if it is malformed, if it names a property that is not known, if it is
nested too deeply, or if its automata would take too much room. `Pattern.readWith?` reads a pattern
under flags, and `Pattern.read?` without a table of properties.
-/

namespace CodeMarkup.Written

/-! ## Parts of a sequence -/

/-- A part of a sequence that has been read. -/
inductive Part where
  /-- Flags for what follows; they cannot be repeated. -/
  | flags
  /-- A pattern. -/
  | pattern (p : Nested Pattern)

/-- The pattern of a part. -/
def Part.toPattern : Part → Pattern
  | flags => .empty
  | pattern p => p.value

/-- The depth of a part. -/
def Part.depth : Part → Nat
  | flags => 0
  | pattern p => p.depth

/-- The sequence of the parts read, the last one first. A sequence of several parts encloses
them. -/
def closeSequence (parts : List Part) : Nested Pattern :=
  let deepestPart := parts.foldl (fun depth part => max depth part.depth) 0
  ⟨.sequence (parts.reverse.map Part.toPattern),
    if 2 ≤ parts.length then deepestPart + 1 else deepestPart⟩

/-- The choice between the branches read, the last one first. -/
def closeChoice (branches : List (Nested Pattern)) : Nested Pattern :=
  match branches with
  | [one] => one
  | _ => ⟨.choice (branches.reverse.map Nested.value), deepest branches + 1⟩

/-- A single character, as a pattern. -/
def charPart? (flags : Flags) (c : Char) (byte : Bool) : Option Part :=
  (flags.charSet? c byte).map fun s => .pattern ⟨.one s, 0⟩

/-- What an escape stands for outside of brackets, as a pattern. -/
def primitivePart? (flags : Flags) : Primitive → Option Part
  | .char c byte => charPart? flags c byte
  | .set negated s => (flags.negate? negated s).map fun s => .pattern ⟨.one s, 0⟩
  | .look l => some (.pattern ⟨.look l, 0⟩)

/-! ## Repetitions -/

/-- The largest bound of a counted repetition. -/
def largestCount : Nat := 4294967295

/-- Reads decimal digits after the digits `digits`, the last one first. -/
def readDigits (flags : Flags) (digits : List Char) : Nat → List Char → List Char × List Char
  | 0, input => (digits, input)
  | fuel + 1, input =>
    match input with
    | c :: rest =>
      if c.isDigit then readDigits flags (c :: digits) fuel (flags.skip rest) else (digits, input)
    | [] => (digits, [])

/-- Skips the blanks after a bound. -/
def skipBlanks (flags : Flags) : Nat → List Char → List Char
  | 0, input => input
  | fuel + 1, input =>
    match input with
    | c :: rest => if isBlank c then skipBlanks flags fuel (flags.skip rest) else input
    | [] => []

/-- Reads a bound of a counted repetition, with blanks around it. -/
def readBound (flags : Flags) (input : List Char) : Option (Nat × List Char) :=
  let (digits, rest) := readDigits flags [] input.length (input.dropWhile isBlank)
  let value := digits.reverse.foldl (fun n c => 10 * n + (c.toNat - 48)) 0
  if digits.isEmpty || decide (largestCount < value) then none
  else some (value, skipBlanks flags rest.length rest)

/-- The bounds of a repetition. -/
structure Bounds where
  /-- The least number of rounds. -/
  least : Nat
  /-- The greatest number of rounds, if there is one. -/
  most? : Option Nat

/-- Reads the bounds of a counted repetition after its opening brace: one number, a number and a
comma, or two numbers in order. -/
def readBounds (flags : Flags) (input : List Char) : Option (Bounds × List Char) := do
  let (least, rest) ← readBound flags (flags.skip input)
  match rest with
  | '}' :: rest => pure (⟨least, some least⟩, flags.skip rest)
  | ',' :: rest =>
    match flags.skip rest with
    | '}' :: rest => pure (⟨least, none⟩, flags.skip rest)
    | rest => do
      let (most, rest) ← readBound flags rest
      match rest with
      | '}' :: rest => if least ≤ most then pure (⟨least, some most⟩, flags.skip rest) else none
      | _ => none
  | _ => none

/-- The parts read, the last one first, with the last one repeated; a question mark makes the
repetition lazy. There has to be a part that can be repeated. -/
def repeatLast (flags : Flags) (bounds : Bounds) (parts : List Part) (input : List Char) :
    Option (List Part × List Char) :=
  match parts with
  | .pattern p :: before =>
    let (greedy, rest) :=
      match input with
      | '?' :: rest => (flags.swapGreed, rest)
      | _ => (!flags.swapGreed, input)
    some (.pattern ⟨.repetition bounds.least bounds.most? greedy p.value, p.depth + 1⟩ :: before,
      rest)
  | _ => none

/-! ## Sequences and groups -/

/-- The numbered groups opened so far. -/
structure Groups where
  /-- How many there are. -/
  count : Nat := 0
  /-- Their names. -/
  names : List (List Char) := []

/-- The groups after one more with a name, or without one. No two groups share a name. -/
def Groups.add? (groups : Groups) (name? : Option (List Char)) : Option Groups :=
  match name? with
  | none => some { groups with count := groups.count + 1 }
  | some name =>
    if groups.names.contains name then none else some ⟨groups.count + 1, name :: groups.names⟩

/-- Reads a choice of sequences up to the end of the text or, if `inside` is set, up to the
parenthesis that closes the group. `branches` are the finished branches and `parts` what was read
of the current one, both with the last one first. -/
def readChoice (inside : Bool) :
    Nat → Flags → Groups → List (Nested Pattern) → List Part → List Char →
      Option (Nested Pattern × Groups × List Char)
  | 0, _, _, _, _, _ => none
  | fuel + 1, flags, groups, branches, parts, input =>
    match flags.skip input with
    | [] =>
      if inside then none else some (closeChoice (closeSequence parts :: branches), groups, [])
    | ')' :: rest =>
      if inside then some (closeChoice (closeSequence parts :: branches), groups, rest) else none
    | '|' :: rest => readChoice inside fuel flags groups (closeSequence parts :: branches) [] rest
    | '(' :: rest => do
      let (opener, rest) ← readOpener flags rest
      match opener with
      | .flags flags => readChoice inside fuel flags groups branches (.flags :: parts) rest
      | .plain inner => do
        let (body, groups, rest) ← readChoice true fuel inner groups [] [] rest
        readChoice inside fuel flags groups branches
          (.pattern ⟨body.value, body.depth + 1⟩ :: parts) rest
      | .numbered name? => do
        let index := groups.count
        let groups ← groups.add? name?
        let (body, groups, rest) ← readChoice true fuel flags groups [] [] rest
        readChoice inside fuel flags groups branches
          (.pattern ⟨.group index body.value, body.depth + 1⟩ :: parts) rest
    | '[' :: rest => do
      let (s, rest) ← readBracket flags rest
      readChoice inside fuel flags groups branches (.pattern ⟨.one s.value, s.depth⟩ :: parts) rest
    | '?' :: rest => do
      let (parts, rest) ← repeatLast flags ⟨0, some 1⟩ parts rest
      readChoice inside fuel flags groups branches parts rest
    | '*' :: rest => do
      let (parts, rest) ← repeatLast flags ⟨0, none⟩ parts rest
      readChoice inside fuel flags groups branches parts rest
    | '+' :: rest => do
      let (parts, rest) ← repeatLast flags ⟨1, none⟩ parts rest
      readChoice inside fuel flags groups branches parts rest
    | '{' :: rest => do
      let (bounds, rest) ← readBounds flags rest
      let (parts, rest) ← repeatLast flags bounds parts rest
      readChoice inside fuel flags groups branches parts rest
    | '\\' :: rest => do
      let (primitive, rest) ← readEscape flags rest
      let part ← primitivePart? flags primitive
      readChoice inside fuel flags groups branches (part :: parts) rest
    | '.' :: rest => do
      let s ← flags.dot?
      readChoice inside fuel flags groups branches (.pattern ⟨.one s, 0⟩ :: parts) rest
    | '^' :: rest =>
      readChoice inside fuel flags groups branches (.pattern ⟨.look flags.lineStart, 0⟩ :: parts)
        rest
    | '$' :: rest =>
      readChoice inside fuel flags groups branches (.pattern ⟨.look flags.lineEnd, 0⟩ :: parts) rest
    | c :: rest => do
      let part ← charPart? flags c false
      readChoice inside fuel flags groups branches (part :: parts) rest

end CodeMarkup.Written

namespace CodeMarkup

/-! ## Limits -/

/-- The depth to which the signs of a written pattern may be nested. -/
def Pattern.depthLimit : Nat := 250

/-- Reads a written pattern under flags. -/
def Pattern.readWith? (flags : Written.Flags) (text : List Char) : Option Pattern := do
  let (p, _, _) ← Written.readChoice false (text.length + 1) flags {} [] [] text
  if p.depth ≤ depthLimit && p.value.fits then pure p.value else none

/-- Reads a written pattern. `multiLine` says whether its line anchors hold at every line. -/
def Pattern.read? (multiLine : Bool) (text : List Char) : Option Pattern :=
  readWith? { multiLine := multiLine } text

end CodeMarkup
