import CodeMarkup.Pattern.Automaton.Room

/-!
# Choices between texts

A choice between texts is one tree, in which texts with a common beginning share it. A text that
ends at a node comes before those that are added below the node later: the links of a node stand in
groups, and between two groups some text ends. Inside a group the order of the links is free,
because no two of them read the same byte.

* `Trie.ofTexts` makes the tree of a choice, and `Trie.room` counts the states it takes.
-/

namespace CodeMarkup.Automaton

/-- A tree of texts: the links of a node, in groups, and those of its last group. -/
inductive Trie where
  /-- A node. -/
  | node (groups : List (List (Nat × Trie))) (last : List (Nat × Trie))

namespace Trie

/-- A tree without texts. -/
def empty : Trie := node [] []

/-- Whether a node has no links. -/
def isLeaf : Trie → Bool
  | node groups last => last.isEmpty && groups.all List.isEmpty

/-- A node at which a text ends. If it has no links, one end is as good as several. -/
def close : Trie → Trie
  | node groups last =>
    if (node groups last).isLeaf && !groups.isEmpty then node groups last
    else node (groups ++ [last]) []

/-- Links with one more, sorted by their bytes, if there is none for its byte yet. -/
def withLink (byte : Nat) (next : Trie) : List (Nat × Trie) → List (Nat × Trie)
  | [] => [(byte, next)]
  | (other, tree) :: rest =>
    if byte < other then (byte, next) :: (other, tree) :: rest
    else if byte = other then (byte, next) :: rest
    else (other, tree) :: withLink byte next rest

/-- The node to which a link leads. -/
def child (byte : Nat) (links : List (Nat × Trie)) : Trie :=
  match links.find? fun link => link.1 == byte with
  | some link => link.2
  | none => empty

/-- A tree with one more text, as its bytes. -/
def insert : List Nat → Trie → Trie
  | [], tree => tree.close
  | byte :: rest, node groups last =>
    node groups (withLink byte (insert rest (child byte last)) last)

/-- The tree of a choice. -/
def ofTexts (texts : List (List Nat)) : Trie :=
  texts.foldl (fun tree text => insert text tree) empty

/-- An automaton with the state of a group of links; a group without links takes none. -/
def addGroup (links : List (Nat × Trie)) (room : Room) : Room :=
  match links.length with
  | 0 => room
  | 1 => room.add 1 0
  | count => room.add 1 (count * linkBytes)

/-- The number of branches of the state for a node: one for each group with links, and one for each
end of a text. -/
def branchCount (groups : List (List (Nat × Trie))) (last : List (Nat × Trie)) : Nat :=
  groups.length + ((groups ++ [last]).filter fun links => !links.isEmpty).length

mutual

/-- An automaton with the states of a node and of those below it. A leaf takes none. -/
def addNode (room : Room) : Trie → Room
  | node groups last =>
    if (node groups last).isLeaf then room
    else
      (addGroup last (addLinks (addGroups room groups) last)).add 1
        (branchCount groups last * branchBytes)

/-- An automaton with the states of groups of links. -/
def addGroups (room : Room) : List (List (Nat × Trie)) → Room
  | [] => room
  | links :: rest => addGroups (addGroup links (addLinks room links)) rest

/-- An automaton with the states below links. -/
def addLinks (room : Room) : List (Nat × Trie) → Room
  | [] => room
  | (_, tree) :: rest => addLinks (addNode room tree) rest

end

/-- The room of a choice: the state behind it and the states of its tree. -/
def room (tree : Trie) : Room := addNode (({} : Room).add 1 0) tree

end Trie

end CodeMarkup.Automaton
