import CodeMarkup.Pattern.Automaton.Room
import Std.Data.HashMap

/-!
# Shared states of character classes

The parts of a class of characters, each a path of byte ranges, have much in common, and an
automaton shares what it can. States that have been made are remembered in a table with a fixed
number of slots. The slot of a state is computed from what the state is, so that the same state is
found again; but another state with the same slot displaces it, and then it may be made twice.

* `Room.addForward` adds a class to an automaton that reads forward. Paths come in order, and the
  states of a path are settled from its end as soon as the next path leaves it.
* `Room.addBackward` adds a class to an automaton that reads backward.
-/

namespace CodeMarkup.Automaton

open Utf8 (ByteRange)

/-! ## Slots -/

/-- A slot number so far, with one more number mixed in. -/
def mix (h : UInt64) (n : Nat) : UInt64 := (h ^^^ n.toUInt64) * 1099511628211

/-- The slot of a list of numbers in a table of a given size. -/
def slot (size : Nat) (numbers : List Nat) : Nat :=
  (numbers.foldl mix 14695981039346656037).toNat % size

/-- A table of states by their slots: what each state is, and its number. -/
abbrev Slots (α : Type) := Std.HashMap Nat (α × Nat)

/-- The number of a state that the table remembers. -/
def Slots.find? {α : Type} [BEq α] (slots : Slots α) (index : Nat) (state : α) : Option Nat :=
  match slots[index]? with
  | some (other, number) => if other == state then some number else none
  | none => none

/-! ## Reading forward -/

/-- A link: a range of bytes and the number of the state to which it leads. -/
structure Link where
  /-- The bytes that it reads. -/
  range : ByteRange
  /-- The state to which it leads. -/
  next : Nat
  deriving DecidableEq

/-- A state on the path that was added last. -/
structure OpenState where
  /-- Its links that are settled. -/
  links : List Link := []
  /-- The byte range of its last link, the next state of which is still open. -/
  last? : Option ByteRange := none

/-- The links of a state, where the last one leads to a given state. -/
def OpenState.settle (state : OpenState) (next : Nat) : List Link :=
  match state.last? with
  | none => state.links
  | some range => state.links ++ [⟨range, next⟩]

/-- An automaton that reads forward while a class is added. -/
structure Forward where
  /-- Its states and bytes. -/
  room : Room
  /-- The states of the class that are remembered. -/
  slots : Slots (List Link) := {}

/-- The number of slots of the table for reading forward. -/
def forwardSlots : Nat := 10000

/-- A state with the given links, made unless it is remembered, and its number. -/
def Forward.state (forward : Forward) (links : List Link) : Nat × Forward :=
  let index :=
    slot forwardSlots (links.flatMap fun link => [link.range.1, link.range.2, link.next])
  match forward.slots.find? index links with
  | some number => (number, forward)
  | none =>
    let number := forward.room.states
    (number, ⟨forward.room.add 1 (links.length * linkBytes),
      forward.slots.insert index (links, number)⟩)

/-- The states of a path made from its end on, where `target` follows the last one, and the number
of the first. -/
def Forward.settle (forward : Forward) (target : Nat) : List OpenState → Nat × Forward
  | [] => (target, forward)
  | state :: deeper =>
    let (next, forward) := forward.settle target deeper
    forward.state (state.settle next)

/-- The states behind those that are open, on a new path. -/
def openPath (path : List ByteRange) : List OpenState :=
  path.map fun range => { last? := some range }

/-- The open states after one more path. Where the path leaves the one before, the states behind are
settled. -/
def Forward.addPath (target : Nat) :
    List OpenState → List ByteRange → Forward → List OpenState × Forward
  | state :: deeper, range :: path, forward =>
    if state.last? == some range then
      let (deeper, forward) := addPath target deeper path forward
      (state :: deeper, forward)
    else
      let (next, forward) := forward.settle target deeper
      (⟨state.settle next, some range⟩ :: openPath path, forward)
  | states, _, forward => (states, forward)

/-- An automaton that reads forward, with the paths of a class. -/
def Room.addForward (room : Room) (paths : List (List ByteRange)) : Room :=
  let target := room.states
  let (states, forward) := paths.foldl
    (fun found path => Forward.addPath target found.1 path found.2)
    ([{}], { room := room.add 1 0 : Forward })
  (forward.settle target states).2.room

/-! ## Reading backward -/

/-- An automaton that reads backward while a class is added. -/
structure Backward where
  /-- Its states and bytes. -/
  room : Room
  /-- The states of the class that are remembered: what follows each, and the bytes it reads. -/
  slots : Slots (Nat × ByteRange) := {}

/-- The number of slots of the table for reading backward. -/
def backwardSlots : Nat := 1000

/-- A state that reads a range of bytes and is followed by a given state, made unless it is
remembered, and its number. -/
def Backward.state (backward : Backward) (next : Nat) (range : ByteRange) : Nat × Backward :=
  let index := slot backwardSlots [next, range.1, range.2]
  match backward.slots.find? index (next, range) with
  | some number => (number, backward)
  | none =>
    let number := backward.room.states
    (number, ⟨backward.room.add 1 0, backward.slots.insert index ((next, range), number)⟩)

/-- An automaton with one more path of a class, which is a branch of the first state. -/
def Backward.addPath (target : Nat) (backward : Backward) (path : List ByteRange) : Backward :=
  let (_, backward) := path.foldl
    (fun found range => found.2.state found.1 range) (target, backward)
  { backward with room := backward.room.add 0 branchBytes }

/-- An automaton that reads backward, with the paths of a class. -/
def Room.addBackward (room : Room) (paths : List (List ByteRange)) : Room :=
  (paths.foldl (Backward.addPath (room.states + 1)) { room := room.add 2 0 }).room

end CodeMarkup.Automaton
