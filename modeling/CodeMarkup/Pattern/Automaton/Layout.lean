import CodeMarkup.Pattern.Automaton.Shared
import CodeMarkup.Pattern.Automaton.Trie
import CodeMarkup.Pattern.Basic

/-!
# Laying out a pattern

Two automata decide a pattern: one reads forward and finds where a match ends, the other reads
backward and finds where it starts. Neither may take more than ten mebibytes. Repetitions with a
count are laid out as often as they are counted, so that short patterns can ask for a lot of room.

A `Layout` says what is laid out in which order. Only classes of characters beyond ASCII depend on
what came before them; everything else takes the same room wherever it stands.

* `Pattern.layout` is the layout of a pattern, and `Layout.place` the room after it.
* `Pattern.fits` says whether both automata have room.
* `Pattern.roomBound` bounds the room of both without laying them out.
-/

namespace CodeMarkup

namespace Automaton

/-- The order in which the states of an automaton are laid out. -/
inductive Layout where
  /-- States that take the same room everywhere. -/
  | plain (room : Room)
  /-- A class of characters, as the paths of its parts. -/
  | charClass (paths : List (List Utf8.ByteRange))
  /-- One layout and then another. -/
  | row (first second : Layout)
  /-- A layout several times. -/
  | copies (count : Nat) (body : Layout)

namespace Layout

/-- States that take the same room everywhere: `count` states, and bytes beyond theirs. -/
def states (count extra : Nat) : Layout := plain (({} : Room).add count extra)

/-- A state with two branches. -/
def fork : Layout := states 1 (2 * branchBytes)

/-- One layout after another, as one where the room of both is known. -/
def append : Layout → Layout → Layout
  | plain first, plain second => plain ⟨first.states + second.states, first.bytes + second.bytes⟩
  | first, second => row first second

instance : Append Layout := ⟨append⟩

/-- A layout several times, as one where its room is known. -/
def repeated (count : Nat) : Layout → Layout
  | plain room => plain ⟨count * room.states, count * room.bytes⟩
  | body => copies count body

/-- A step of laying out, repeated until it runs out of room. -/
def repeatStep (step : Room → Room) : Nat → Room → Room
  | 0, room => room
  | count + 1, room => if room.fits then repeatStep step count (step room) else room

/-- The room after a layout. -/
def place (backward : Bool) : Layout → Room → Room
  | plain more, room => ⟨room.states + more.states, room.bytes + more.bytes⟩
  | charClass paths, room => if backward then room.addBackward paths else room.addForward paths
  | row first second, room => second.place backward (first.place backward room)
  | copies count body, room => repeatStep (body.place backward) count room

/-- The layout of a class of characters. ASCII characters are one byte each and need no paths. -/
def ofSet (s : CharSet) : Layout :=
  let ranges := s.ranges
  if ranges.all fun range => decide (range.2 < 128) then states 2 (ranges.length * linkBytes)
  else charClass (ranges.flatMap fun range => Utf8.paths range.1 range.2)

/-- The layout of a repetition. `consumes` says whether its body is known to consume something. -/
def ofTimes (consumes : Bool) (least : Nat) (most? : Option Nat) (body : Layout) : Layout :=
  match most?, least with
  | some most, 0 =>
    if most = 1 then fork ++ body ++ states 1 0
    else states 2 0 ++ repeated most (fork ++ body)
  | some most, least =>
    if least = most then repeated least body
    else repeated least body ++ states 1 0 ++ repeated (most - least) (fork ++ body)
  | none, 0 => if consumes then fork ++ body else body ++ fork ++ fork ++ states 1 0
  | none, 1 => body ++ fork
  | none, more + 1 => repeated more body ++ body ++ fork

/-- What a branch of a choice adds behind it, where `before` branches come before it: the second one
brings the two states of the choice. -/
def branch : Nat → Layout
  | 0 => states 0 0
  | 1 => states 2 (2 * branchBytes)
  | _ => states 0 branchBytes

end Layout

end Automaton

open Automaton

namespace Pattern

/-- The texts of a choice between texts. -/
def texts? : Pattern → Option (List (List Char))
  | literal text => some [text]
  | alt p q => do pure ((← p.texts?) ++ (← q.texts?))
  | _ => none

/-- The bytes of a text, in the order in which they are read. -/
def readingOrder (backward : Bool) (text : List Char) : List Nat :=
  let bytes := text.flatMap fun c => Utf8.bytes c.toNat
  if backward then bytes.reverse else bytes

/-- Whether a set without members occurs in a pattern. Nothing is known then of the lengths of its
matches. -/
def hasEmptySet : Pattern → Bool
  | set s => s.ranges.isEmpty
  | cat p q => p.hasEmptySet || q.hasEmptySet
  | alt p q => p.hasEmptySet || q.hasEmptySet
  | times _ _ _ body => body.hasEmptySet
  | group _ body => body.hasEmptySet
  | _ => false

/-- The layout of a pattern as a branch of a choice, where `before` branches come before it, and the
number of branches with it. -/
def layoutFrom (backward : Bool) : Pattern → Nat → Layout × Nat
  | empty, before => (.states 1 0 ++ .branch before, before + 1)
  | literal text, before =>
    (.states (readingOrder backward text).length 0 ++ .branch before, before + 1)
  | set s, before => (.ofSet s ++ .branch before, before + 1)
  | look _, before => (.states 1 0 ++ .branch before, before + 1)
  | cat p q, before =>
    let first := (layoutFrom backward p 0).1
    let second := (layoutFrom backward q 0).1
    ((if backward then second ++ first else first ++ second) ++ .branch before, before + 1)
  | alt p q, before =>
    match (alt p q).texts?, before with
    | some texts, 0 => (.plain (Trie.ofTexts (texts.map (readingOrder backward))).room, 1)
    | _, before =>
      let first := layoutFrom backward p before
      let rest := layoutFrom backward q first.2
      (first.1 ++ rest.1, rest.2)
  | times least most? _ body, before =>
    let inner := (layoutFrom backward body 0).1
    (.ofTimes (!body.nullable && !body.hasEmptySet) least most? inner ++ .branch before,
      before + 1)
  | group _ body, before =>
    let inner := (layoutFrom backward body 0).1
    ((if backward then inner else .states 1 0 ++ inner ++ .states 1 0) ++ .branch before,
      before + 1)

/-- Whether every match of a pattern starts at the start of the text, by a condition. -/
def startsText : Pattern → Bool
  | look .textStart => true
  | cat p q => p.startsText || (p.onlyEmpty && q.startsText)
  | alt p q => p.startsText && q.startsText
  | times least _ _ body => least != 0 && body.startsText
  | group _ body => body.startsText
  | _ => false

/-- Whether every match of a pattern ends at the end of the text, by a condition. -/
def endsText : Pattern → Bool
  | look .textEnd => true
  | cat p q => q.endsText || (q.onlyEmpty && p.endsText)
  | alt p q => p.endsText && q.endsText
  | times least _ _ body => least != 0 && body.endsText
  | group _ body => body.endsText
  | _ => false

/-- The layout of the automaton of a pattern. It begins with a loop over the bytes before the match,
unless the match has to stand at the end of the text where the automaton begins to read. The
automaton that reads forward notes where the match starts and ends. -/
def layout (backward : Bool) (p : Pattern) : Layout :=
  let before : Layout :=
    if (if backward then p.endsText else p.startsText) then .states 1 0
    else .fork ++ .states 2 linkBytes
  let body := (layoutFrom backward p 0).1
  before ++ (if backward then body else .states 1 0 ++ body ++ .states 1 0) ++ .states 1 0

end Pattern

/-! ## A bound -/

/-- A bound on the bytes that a class of characters takes in either automaton. -/
def CharSet.roomBound : CharSet → Nat
  | none => 100
  | range _ last => if last.toNat < 128 then 100 else 2500
  | digit => 100000
  | blank => 20000
  | word => 200000
  | compl s => s.roomBound + 2500
  | union s t => s.roomBound + t.roomBound
  | inter s t => s.roomBound + t.roomBound
  | caseless s =>
    match s.chars? with
    | some chars => 10000 * chars.length + 100
    | Option.none => s.roomBound + 300000
  | asciiCaseless s => s.roomBound + 1000

namespace Pattern

/-- A bound on the bytes that a pattern takes in either automaton. -/
def roomBound : Pattern → Nat
  | empty => 100
  | literal text => 400 * text.length + 100
  | set s => s.roomBound + 100
  | look _ => 100
  | cat p q => p.roomBound + q.roomBound
  | alt p q => p.roomBound + q.roomBound + 100
  | times least most? _ body => (max least (most?.getD 1) + 1) * (body.roomBound + 100) + 200
  | group _ body => body.roomBound + 100

/-- Whether both automata of a pattern have room. They are laid out only if the bound leaves the
matter open. -/
def fits (p : Pattern) : Bool :=
  decide (p.roomBound + 1000 ≤ byteLimit) ||
    (((p.layout false).place false {}).fits && ((p.layout true).place true {}).fits)

end Pattern

end CodeMarkup
