import CodeMarkup.Text.Utf8

/-!
# The room that automata take

A pattern is decided by automata that read bytes. They are counted here and not built: an automaton
takes a fixed number of bytes for every state, and more for the branches of states that have
several. States are numbered in the order in which they come.
-/

namespace CodeMarkup.Automaton

/-- The states of an automaton so far and the bytes that they take. -/
structure Room where
  /-- The number of states, which is also the number of the next one. -/
  states : Nat := 0
  /-- The number of bytes. -/
  bytes : Nat := 0
  deriving DecidableEq, Repr

/-- The bytes that every state takes. -/
def stateBytes : Nat := 32

/-- The bytes of a branch to another state. -/
def branchBytes : Nat := 4

/-- The bytes of a link, which reads a range of bytes and leads to another state. -/
def linkBytes : Nat := 8

/-- The number of bytes that an automaton may take. -/
def byteLimit : Nat := 10485760

namespace Room

/-- The room after `count` states, which take `extra` bytes more than states without branches. -/
def add (room : Room) (count extra : Nat) : Room :=
  ⟨room.states + count, room.bytes + count * stateBytes + extra⟩

/-- Whether the states so far take no more than they may. -/
def fits (room : Room) : Bool := decide (room.bytes ≤ byteLimit)

end Room

end CodeMarkup.Automaton
