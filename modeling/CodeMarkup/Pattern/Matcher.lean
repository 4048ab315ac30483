import CodeMarkup.Pattern.Basic
import CodeMarkup.Text.Cursor
import Std.Data.TreeSet

/-!
# Matchers

A matcher is a pattern made ready to run: repetitions are reduced to spans of characters and loops,
and a mark stands at every point that could be reached in many ways at one place. `Matcher.run`
tries the ways of a matcher in order and continues each with what follows. A way that passes a mark
where a way has passed it before is given up: what follows is the same, so it would fail as the
earlier way did, or go round a loop without consuming anything. This is why an attempt takes a
number of steps that is at most proportional to the length of the text for every point of the
matcher.

* `Matcher.ofPattern` gives the matcher of a pattern.
* `Matcher.run` runs a matcher from a place, with a continuation.
* `Matcher.matchAt?` is the end of the preferred match that starts at a place.
* `Matcher.find?` is the first match at or after a place, and `Matcher.search?` the first that is
  not empty.
-/

namespace CodeMarkup

namespace Pattern

/-! ## Simple patterns -/

/-- The largest number of parts with which the first characters of a choice are looked at. -/
def manyHeads : Nat := 50

/-- A set that holds every character with which a match of a pattern can begin, for a pattern that
consumes something. Of a choice with many branches none is given. -/
def heads? : Pattern → Option CharSet
  | literal (c :: _) => some (.single c)
  | set s => some s
  | cat p q => if p.onlyEmpty then q.heads? else p.heads?
  | alt p q => do
    let s ← p.heads?
    let t ← q.heads?
    if s.parts + t.parts ≤ manyHeads then some (.union s t) else none
  | times (_ + 1) _ _ body => body.heads?
  | group _ body => body.heads?
  | _ => none

/-- Whether no two matches of patterns begin with the same character. -/
def apart (p q : Pattern) : Bool :=
  match p.heads?, q.heads? with
  | some s, some t => s.apart t
  | _, _ => false

/-- Whether a pattern is known to match in at most one way at each place: it has no choice that the
next character does not decide, and no repetition without a fixed count. -/
def isSingleWay : Pattern → Bool
  | empty => true
  | literal _ => true
  | set _ => true
  | look _ => true
  | cat p q => p.isSingleWay && q.isSingleWay
  | alt p q => p.isSingleWay && q.isSingleWay && p.apart q
  | times least most? _ body => most? == some least && body.isSingleWay
  | group _ body => body.isSingleWay

end Pattern

/-- A pattern made ready to run. -/
inductive Matcher where
  /-- Matches the empty text. -/
  | empty
  /-- Matches one character of a set. -/
  | set (s : CharSet)
  /-- Matches the empty text at a place that meets a condition. -/
  | look (l : Look)
  /-- Matches the empty text, once at each place. -/
  | mark (label : Nat)
  /-- Matches one thing and then another. -/
  | cat (m n : Matcher)
  /-- Matches one thing or, failing that, another. -/
  | alt (m n : Matcher)
  /-- Matches any number of characters of a set; a greedy span prefers one more. -/
  | span (greedy : Bool) (s : CharSet)
  /-- Matches a thing any number of times; a greedy loop prefers one more round. -/
  | loop (greedy : Bool) (body : Matcher)
  deriving DecidableEq, Repr

namespace Matcher

/-! ## From patterns -/

/-- At which places a point of a matcher may be reached, from one start. -/
inductive Spread where
  /-- By each way at one place. -/
  | single
  /-- By each way at all places of a run of characters of a set. -/
  | run (s : CharSet)
  /-- At any places. -/
  | wide
  deriving DecidableEq

/-- The spread of a point behind one character of a set. Only the end of a run is followed by a
character that is not of its kind. -/
def Spread.step (t : CharSet) : Spread → Spread
  | single => single
  | run s => if s.apart t then single else wide
  | wide => wide

/-- The spread of a point that is reached in the ways of two. -/
def Spread.merge (first rest : Spread) : Spread := if first = rest then first else wide

/-- A point of a matcher that is being built. -/
structure Point where
  /-- The first label that is free. -/
  label : Nat := 0
  /-- The places at which the point may be reached. -/
  spread : Spread := .single
  /-- In how many ways the point may be reached, in all if its spread is single, and at one place if
  not. -/
  ways : Nat := 1

/-- The point behind a text. -/
def Point.behind (text : List Char) (point : Point) : Point :=
  { point with spread := text.foldl (fun spread c => spread.step (.single c)) point.spread }

/-- A part of a matcher and the point behind it. -/
structure Built where
  /-- The part. -/
  matcher : Matcher
  /-- The point behind it. -/
  point : Point

/-- The number of ways from which on a point is marked. -/
def crowd : Nat := 100

/-- A part with a mark at its end, if one is wanted or if the point there is crowded. -/
def Built.marked (wanted : Bool) (built : Built) : Built :=
  if wanted || decide (crowd < built.point.ways) then
    ⟨cat built.matcher (mark built.point.label), built.point.label + 1, .wide, 1⟩
  else built

/-- One matcher and then another, where the empty matcher on either side is left out. -/
def join : Matcher → Matcher → Matcher
  | empty, n => n
  | m, empty => m
  | m, n => cat m n

/-- A matcher and, failing it, nothing; a lazy one prefers nothing. -/
def optional (greedy : Bool) (m : Matcher) : Matcher :=
  if greedy then alt m empty else alt empty m

/-- The characters of a text, one after the other. -/
def ofText : List Char → Matcher
  | [] => empty
  | [c] => set (.single c)
  | c :: rest => cat (set (.single c)) (ofText rest)

/-- The parts that `make` builds, one after the other, `count` of them. -/
def copies (make : Point → Built) : Nat → Point → Built
  | 0, point => ⟨empty, point⟩
  | count + 1, point =>
    let first := make point
    let rest := copies make count first.point
    ⟨join first.matcher rest.matcher, rest.point⟩

/-- The point behind two parts of which either may be taken. -/
def Point.merge (first rest : Point) : Point :=
  ⟨rest.label, first.spread.merge rest.spread, first.ways + rest.ways⟩

/-- Up to `count` parts that `make` builds, each one allowed only after the one before. -/
def upTo (greedy : Bool) (make : Point → Built) : Nat → Point → Built
  | 0, point => ⟨empty, point⟩
  | count + 1, point =>
    let first := make point
    let rest := upTo greedy make count first.point
    ⟨optional greedy (join first.matcher rest.matcher), point.merge rest.point⟩

/-- A part at least once, where every round starts with a mark. -/
def atLeastOnce (greedy : Bool) (make : Point → Built) (point : Point) : Built :=
  let body := make ⟨point.label + 1, .wide, 1⟩
  let round := cat (mark point.label) body.matcher
  ⟨cat round (loop greedy round), body.point⟩

/-- The matcher of a repetition whose body can match the empty text. It has marks, as the body has:
at the start of every round, so that none is repeated without consuming anything, and at its end. -/
def ofNullableTimes (least : Nat) (most? : Option Nat) (greedy : Bool) (make : Point → Built)
    (point : Point) : Built :=
  match most?, least with
  | none, 0 =>
    let loops := atLeastOnce greedy make point
    Built.marked true ⟨optional greedy loops.matcher, loops.point⟩
  | none, more + 1 =>
    let first := copies make more point
    let loops := atLeastOnce greedy make first.point
    Built.marked true ⟨join first.matcher loops.matcher, loops.point⟩
  | some most, least =>
    let first := copies make least point
    let rest := Built.marked (least != most) (upTo greedy make (most - least) first.point)
    ⟨join first.matcher rest.matcher, rest.point⟩

/-- A loop whose rounds consume something, and whose head is marked. -/
def markedLoop (greedy : Bool) (make : Point → Built) (point : Point) : Built :=
  let body := make ⟨point.label + 1, .wide, 1⟩
  let head := mark point.label
  ⟨cat head (loop greedy (cat body.matcher head)), body.point.label, .wide, 1⟩

/-- A loop whose rounds consume something in at most one way, entered by each way at one place. It
comes to every place at most once for each way in which it is entered. -/
def plainLoop (greedy : Bool) (make : Point → Built) (point : Point) : Built :=
  let body := make { point with spread := .wide }
  match body.matcher with
  | set s => ⟨span greedy s, body.point.label, .run s, point.ways⟩
  | m => ⟨loop greedy m, body.point.label, .wide, point.ways⟩

/-- The matcher of a repetition whose body consumes at least one character. `marks` says whether it
stands inside a loop that could go round without consuming anything, and `singleWay` whether the
body matches in at most one way at each place. -/
def ofConsumingTimes (marks singleWay : Bool) (least : Nat) (most? : Option Nat) (greedy : Bool)
    (make : Point → Built) (point : Point) : Built :=
  let first := copies make least point
  let plain := singleWay && !marks && first.point.spread == .single
  let rest :=
    match most? with
    | none =>
      if plain then plainLoop greedy make first.point
      else markedLoop greedy make first.point
    | some most =>
      let rest := upTo greedy make (most - least) first.point
      if least == most then rest
      else if plain then ⟨rest.matcher, rest.point.label, .wide, first.point.ways⟩
      else rest.marked marks
  ⟨join first.matcher rest.matcher, rest.point⟩

/-- The matcher of a pattern from a point on. `marks` says whether the pattern stands inside a loop
that could go round without consuming anything. -/
def build (marks : Bool) : Pattern → Point → Built
  | .empty, point => ⟨empty, point⟩
  | .literal text, point => ⟨ofText text, point.behind text⟩
  | .set s, point => ⟨set s, { point with spread := point.spread.step s }⟩
  | .look l, point => ⟨look l, point⟩
  | .cat p q, point =>
    let first := build marks p point
    let rest := build marks q first.point
    ⟨cat first.matcher rest.matcher, rest.point⟩
  | .alt p q, point =>
    let first := build marks p point
    let rest := build marks q { point with label := first.point.label }
    let both := alt first.matcher rest.matcher
    if !marks && p.isSingleWay && q.isSingleWay && p.apart q then
      ⟨both, rest.point.label, first.point.spread.merge rest.point.spread, point.ways⟩
    else Built.marked marks ⟨both, first.point.merge rest.point⟩
  | .times least most? greedy body, point =>
    if body.nullable then ofNullableTimes least most? greedy (build true body) point
    else
      ofConsumingTimes marks body.isSingleWay least most? greedy (build marks body) point
  | .group _ body, point => build marks body point

/-- The matcher of a pattern. -/
def ofPattern (p : Pattern) : Matcher := (build false p {}).matcher

/-! ## Running -/

/-- The marks passed in an attempt, each with the offset of the place where it was passed. -/
abbrev Passed := Std.TreeSet (Nat × Nat) (compareLex (compareOn Prod.fst) (compareOn Prod.snd))

/-- What comes of trying ways to match. -/
inductive Attempt where
  /-- One of them leads to a match, which ends here. -/
  | found (stop : Cursor)
  /-- None does, and these marks have been passed. -/
  | failed (passed : Passed)

/-- The first of two attempts or, if it fails, the second, which learns of the marks passed. -/
@[inline] def Attempt.orElse (first : Attempt) (second : Passed → Attempt) : Attempt :=
  match first with
  | found stop => found stop
  | failed passed => second passed

/-- What a matcher continues with: a place, and the marks passed so far. -/
abbrev Continuation := Cursor → Passed → Attempt

/-- Any number of characters of a set from a place on, and then what follows. -/
def spans (s : CharSet) (greedy : Bool) (next : Continuation) (offset : Nat)
    (prev? : Option Char) : List Char → Passed → Attempt
  | [], passed => next ⟨offset, prev?, []⟩ passed
  | c :: rest, passed =>
    if s.mem c then
      if greedy then
        (spans s greedy next (offset + c.utf8Size) (some c) rest passed).orElse
          (next ⟨offset, prev?, c :: rest⟩)
      else
        (next ⟨offset, prev?, c :: rest⟩ passed).orElse
          (spans s greedy next (offset + c.utf8Size) (some c) rest)
    else next ⟨offset, prev?, c :: rest⟩ passed

/-- Rounds of `body`, at most one for each character of `room`, and then what follows. A round that
consumes nothing fails. -/
def rounds (body : Cursor → Passed → Continuation → Attempt) (greedy : Bool)
    (next : Continuation) : List Char → Continuation
  | [], place, passed => next place passed
  | _ :: room, place, passed =>
    let again := fun place' passed =>
      if place.offset < place'.offset then rounds body greedy next room place' passed
      else .failed passed
    if greedy then (body place passed again).orElse (next place)
    else (next place passed).orElse fun passed => body place passed again

/-- Runs a matcher from a place, after the marks `passed`, and goes on with `next`. The answer is
that of the first way that succeeds. -/
def run : Matcher → Cursor → Passed → Continuation → Attempt
  | empty, place, passed, next => next place passed
  | set s, place, passed, next =>
    match place.rest with
    | [] => .failed passed
    | c :: rest => if s.mem c then next (place.after c rest) passed else .failed passed
  | look l, place, passed, next =>
    if l.holds place.prev? place.peek? then next place passed else .failed passed
  | mark label, place, passed, next =>
    if passed.contains (place.offset, label) then .failed passed
    else next place (passed.insert (place.offset, label))
  | cat m n, place, passed, next => m.run place passed fun place' passed => n.run place' passed next
  | alt m n, place, passed, next =>
    (m.run place passed next).orElse fun passed => n.run place passed next
  | span greedy s, place, passed, next =>
    spans s greedy next place.offset place.prev? place.rest passed
  | loop greedy body, place, passed, next =>
    rounds (body.run) greedy next place.rest place passed

/-- The end of the preferred match that starts at a place. -/
def matchAt? (m : Matcher) (place : Cursor) : Option Cursor :=
  match m.run place ∅ fun stop _ => .found stop with
  | .found stop => some stop
  | .failed _ => none

/-! ## Searching -/

/-- The first place of `rest`, itself at `offset` and after `prev?`, where a matcher matches, and
the end of the match. -/
def findFrom (m : Matcher) (offset : Nat) (prev? : Option Char) :
    List Char → Option (Cursor × Cursor)
  | [] => (m.matchAt? ⟨offset, prev?, []⟩).map fun stop => (⟨offset, prev?, []⟩, stop)
  | c :: rest =>
    match m.matchAt? ⟨offset, prev?, c :: rest⟩ with
    | some stop => some (⟨offset, prev?, c :: rest⟩, stop)
    | none => findFrom m (offset + c.utf8Size) (some c) rest

/-- The start and the end of the first match at or after a place. -/
def find? (m : Matcher) (place : Cursor) : Option (Cursor × Cursor) :=
  m.findFrom place.offset place.prev? place.rest

/-- The first match at or after a place that is not empty. An empty match is stepped over by one
character, at most once for each character of `room`. -/
def searchWithin (m : Matcher) (room : List Char) (place : Cursor) : Option (Cursor × Cursor) :=
  match m.find? place with
  | none => none
  | some (start, stop) =>
    if start.offset < stop.offset then some (start, stop)
    else
      match start.next?, room with
      | some further, _ :: room => searchWithin m room further
      | _, _ => none

/-- The start and the end of the first match at or after a place that is not empty. -/
def search? (m : Matcher) (place : Cursor) : Option (Cursor × Cursor) :=
  m.searchWithin place.rest place

end Matcher

end CodeMarkup
