import CodeMarkup.Pattern.CharSet.Ranges
import CodeMarkup.Pattern.Look

/-!
# Patterns

A pattern describes pieces of text: words, sets of characters, conditions on a place, sequences,
choices and repetitions. Choices and repetitions are ordered: of the ways in which a pattern can
match at a place, the first in the order of its branches is meant, where a greedy repetition prefers
one more round and a lazy one prefers to stop.

* `Pattern.sequence`, `Pattern.choice` and `Pattern.repetition` build patterns in a normal form
  that decides the order: branches that all begin alike share their beginning, and repeating what
  matches only the empty text is one optional round.
* `Pattern.nullable` and `Pattern.onlyEmpty` say which lengths a pattern can match.
-/

namespace CodeMarkup

/-- A description of pieces of text, with its ways to match in order. -/
inductive Pattern where
  /-- The empty text. -/
  | empty
  /-- The characters of a text, one after the other. -/
  | literal (text : List Char)
  /-- One character of a set. -/
  | set (s : CharSet)
  /-- The empty text, at a place that meets a condition. -/
  | look (l : Look)
  /-- One pattern and then another. -/
  | cat (p q : Pattern)
  /-- One pattern or, failing that, another. -/
  | alt (p q : Pattern)
  /-- A pattern at least `least` times and at most `most?` times, if there is such a bound. -/
  | times (least : Nat) (most? : Option Nat) (greedy : Bool) (body : Pattern)
  /-- A pattern in numbered parentheses. -/
  | group (index : Nat) (body : Pattern)
  deriving DecidableEq, Repr

namespace Pattern

/-- Whether a pattern can match the empty text at some place. -/
def nullable : Pattern → Bool
  | empty => true
  | literal text => text.isEmpty
  | set _ => false
  | look _ => true
  | cat p q => p.nullable && q.nullable
  | alt p q => p.nullable || q.nullable
  | times least _ _ body => least == 0 || body.nullable
  | group _ body => body.nullable

/-- Whether a pattern can match nothing but the empty text. -/
def onlyEmpty : Pattern → Bool
  | empty => true
  | literal text => text.isEmpty
  | set _ => false
  | look _ => true
  | cat p q => p.onlyEmpty && q.onlyEmpty
  | alt p q => p.onlyEmpty && q.onlyEmpty
  | times _ _ _ body => body.onlyEmpty
  | group _ body => body.onlyEmpty

/-- Whether two patterns are written alike, up to the way in which their sets are written. -/
def same : Pattern → Pattern → Bool
  | set s, set t => s.same t
  | cat p q, cat p' q' => p.same p' && q.same q'
  | alt p q, alt p' q' => p.same p' && q.same q'
  | times least most? greedy body, times least' most?' greedy' body' =>
    least == least' && most? == most?' && greedy == greedy' && body.same body'
  | group index body, group index' body' => index == index' && body.same body'
  | p, q => p == q

/-- One character of a set. A set of one character is a text. -/
def one (s : CharSet) : Pattern :=
  match s.only? with
  | some c => literal [c]
  | none => set s

/-! ## Sequences -/

/-- The parts of a sequence, in order. -/
def items : Pattern → List Pattern
  | empty => []
  | cat p q => p.items ++ q.items
  | p => [p]

/-- Patterns one after the other. -/
def ofItems : List Pattern → Pattern
  | [] => empty
  | [p] => p
  | p :: rest => cat p (ofItems rest)

/-- A pattern before the parts of a sequence; two texts become one. -/
def prepend (p : Pattern) (parts : List Pattern) : List Pattern :=
  match p, parts with
  | literal text, literal more :: rest => literal (text ++ more) :: rest
  | p, parts => p :: parts

/-- Patterns one after the other, as one flat sequence in which no two texts are neighbours. -/
def sequence (parts : List Pattern) : Pattern :=
  ofItems ((parts.flatMap items).foldr prepend [])

/-! ## Choices -/

/-- The branches of a choice, in order. -/
def branches : Pattern → List Pattern
  | alt p q => p.branches ++ q.branches
  | p => [p]

/-- A choice of patterns, the first preferred. -/
def ofBranches : List Pattern → Pattern
  | [] => set .none
  | [p] => p
  | p :: rest => alt p (ofBranches rest)

/-- The character that a pattern matches, if it is a text of one character. -/
def asChar? : Pattern → Option Char
  | literal [c] => some c
  | _ => none

/-- The set of characters that a pattern matches, if it is written as a set. -/
def asSet? : Pattern → Option CharSet
  | set s => some s
  | _ => none

/-- A choice of patterns as one flat list of branches. Branches that are all characters, or all
sets of characters, are united. -/
def flatChoice (parts : List Pattern) : Pattern :=
  let all := parts.flatMap branches
  match all with
  | [p] => p
  | _ =>
    match all.mapM asChar?, all.mapM asSet? with
    | some chars, _ => one (.ofChars chars)
    | none, some sets => one (.unions sets)
    | none, none => ofBranches all

/-- The longest common beginning of two lists. -/
def commonItems : List Pattern → List Pattern → List Pattern
  | p :: ps, q :: qs => if p.same q then p :: commonItems ps qs else []
  | _, _ => []

/-- The longest common beginning of sequences that each have several parts. -/
def sharedItems : List (List Pattern) → List Pattern
  | [] => []
  | first :: rest =>
    if (first :: rest).all (fun parts => decide (2 ≤ parts.length)) then
      rest.foldl commonItems first
    else []

/-- A choice of patterns, the first preferred. Branches that all begin with the same parts share
them, so that the ways through the shared parts come before the choice. -/
def choice (parts : List Pattern) : Pattern :=
  let all := parts.flatMap branches
  let shared := if 2 ≤ all.length then sharedItems (all.map items) else []
  if shared.isEmpty then flatChoice all
  else
    sequence (shared ++
      [flatChoice (all.map fun p => ofItems (p.items.drop shared.length))])

/-- A choice of texts. -/
def anyOf (texts : List (List Char)) : Pattern := choice (texts.map literal)

/-! ## Repetitions -/

/-- A pattern repeated. What matches only the empty text is repeated at most once. -/
def repetition (least : Nat) (most? : Option Nat) (greedy : Bool) (body : Pattern) : Pattern :=
  let bounds : Nat × Option Nat :=
    if body.onlyEmpty then (min least 1, some (min (most?.getD 1) 1)) else (least, most?)
  if bounds = (0, some 0) then empty
  else if bounds = (1, some 1) then body
  else times bounds.1 bounds.2 greedy body

/-- A pattern any number of times, as often as possible. -/
def many (p : Pattern) : Pattern := repetition 0 none true p

/-- A pattern any number of times, as seldom as possible. -/
def manyLazy (p : Pattern) : Pattern := repetition 0 none false p

/-- A pattern at least once, as often as possible. -/
def many1 (p : Pattern) : Pattern := repetition 1 none true p

/-- A pattern or, failing that, nothing. -/
def optional (p : Pattern) : Pattern := repetition 0 (some 1) true p

end Pattern

end CodeMarkup
