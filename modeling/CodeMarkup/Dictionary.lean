/-!
# Dictionaries

A dictionary holds values under names, sorted by name. Names are compared character by character,
which is also the order of their UTF-8 bytes.
-/

namespace CodeMarkup

/-- Values under names, sorted by name. -/
abbrev Dictionary (α : Type) := List (String × α)

namespace Dictionary

variable {α : Type}

/-- The value under a name. -/
def get? (name : String) : Dictionary α → Option α
  | [] => none
  | (key, value) :: rest => if name = key then some value else get? name rest

/-- A dictionary with a value under a name, in the place of the one before if there was one. -/
def insert (name : String) (value : α) : Dictionary α → Dictionary α
  | [] => [(name, value)]
  | (key, old) :: rest =>
    if name < key then (name, value) :: (key, old) :: rest
    else if name = key then (name, value) :: rest
    else (key, old) :: insert name value rest

/-- The names of a dictionary, in order. -/
def keys (entries : Dictionary α) : List String := entries.map Prod.fst

end Dictionary

end CodeMarkup
