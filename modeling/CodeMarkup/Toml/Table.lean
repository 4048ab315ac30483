import CodeMarkup.Toml.Moment

/-!
# Tables of TOML

A document builds one tree of tables. A table can be defined only once, so each table remembers how
it came to be: headers define a table and make the tables on the way to it, dotted keys make tables
that further dotted keys may extend, and an inline table is complete where it stands.

* `Table.updateAt?` follows a path from a table and changes the table at its end.
* `Table.define?` puts a value under a dotted key.
* `Layout` is the state of a document between two lines.
* `Item.isSound` says whether the tables that stand for moments hold one.
-/

namespace CodeMarkup.Toml

/-- A key of a table. -/
abbrev Key := List Char

/-- How a table came to be. -/
inductive Origin where
  /-- A header defines it, or it is the whole document. -/
  | header
  /-- The path of a header leads through it. -/
  | path
  /-- A dotted key leads through it. -/
  | dotted
  /-- It was written inline. -/
  | inline
  /-- A dotted key leads through it, inside an inline table. -/
  | inlineDotted
  deriving DecidableEq, Repr

/-- What stands under a key. -/
inductive Item where
  /-- A string. -/
  | string (text : List Char)
  /-- An integer. -/
  | integer (n : Int)
  /-- A truth value. -/
  | boolean (b : Bool)
  /-- A number that is not an integer. -/
  | float
  /-- A date, a time or both. -/
  | moment
  /-- An array of values. -/
  | array (values : List Item)
  /-- A table. -/
  | table (origin : Origin) (entries : List (Key × Item))
  /-- An array of the tables that headers in double brackets define, the last one first. -/
  | tables (elements : List (List (Key × Item)))

/-- The entries of a table. -/
abbrev Table := List (Key × Item)

/-! ## Reserved tables -/

/-- The key by which a table stands for a moment. -/
def momentKey : Key := "$__toml_private_datetime".toList

/-- Whether an item is a string that is a moment. -/
def Item.isMomentText : Item → Bool
  | .string text => Moment.isMoment text
  | _ => false

mutual

/-- Whether no table in an item has to stand for a moment and does not. A table does if its first
key is the reserved one; it may hold anything behind a moment. -/
def Item.isSound : Item → Bool
  | .array values => Item.areSound values
  | .table _ entries => Item.isSoundTable entries
  | .tables elements => Item.areSoundTables elements
  | _ => true

/-- Whether all items of a list are sound. -/
def Item.areSound : List Item → Bool
  | [] => true
  | item :: rest => item.isSound && Item.areSound rest

/-- Whether a table is sound. -/
def Item.isSoundTable : List (Key × Item) → Bool
  | [] => true
  | (key, item) :: rest =>
    if key = momentKey then item.isMomentText else item.isSound && Item.areSoundEntries rest

/-- Whether all items of a table are sound. -/
def Item.areSoundEntries : List (Key × Item) → Bool
  | [] => true
  | (_, item) :: rest => item.isSound && Item.areSoundEntries rest

/-- Whether all tables of a list are sound. -/
def Item.areSoundTables : List (List (Key × Item)) → Bool
  | [] => true
  | entries :: rest => Item.isSoundTable entries && Item.areSoundTables rest

end

namespace Table

/-- What stands under a key. -/
def get? (key : Key) : Table → Option Item
  | [] => none
  | (k, item) :: rest => if k = key then some item else get? key rest

/-- A table with an item under a key, in the place of the one before if there was one. -/
def insert (key : Key) (item : Item) : Table → Table
  | [] => [(key, item)]
  | (k, old) :: rest =>
    if k = key then (key, item) :: rest else (k, old) :: insert key item rest

/-- A table without the item under a key. -/
def erase (key : Key) (entries : Table) : Table := entries.filter fun entry => entry.1 != key

/-! ## Paths -/

/-- What follows a path. -/
inductive Walk where
  /-- A header. -/
  | header
  /-- A dotted key. -/
  | dotted
  /-- A dotted key inside an inline table. -/
  | inline
  deriving DecidableEq, Repr

/-- The origin of the tables that a path makes. -/
def Walk.makes : Walk → Origin
  | header => .path
  | dotted => .dotted
  | inline => .inlineDotted

/-- Whether a path may lead through a table that is there already. -/
def Walk.enters : Walk → Origin → Bool
  | header, origin => origin == .header || origin == .path || origin == .dotted
  | dotted, origin => origin == .path || origin == .dotted
  | inline, origin => origin == .inlineDotted

/-- A table after a change to the table at the end of a path. Tables that are missing on the way are
made; through an array of tables the path leads into its last element. -/
def updateAt? (walk : Walk) (change : Origin → Table → Option Table) :
    List Key → Origin → Table → Option Table
  | [], origin, entries => change origin entries
  | key :: path, _, entries =>
    match get? key entries with
    | none => do
      let inner ← updateAt? walk change path walk.makes []
      pure (insert key (.table walk.makes inner) entries)
    | some (.table origin inner) =>
      if walk.enters origin then do
        let inner ← updateAt? walk change path origin inner
        pure (insert key (.table origin inner) entries)
      else none
    | some (.tables (last :: before)) =>
      if walk = .inline then none
      else do
        let inner ← updateAt? walk change path .header last
        pure (insert key (.tables (inner :: before)) entries)
    | some _ => none

/-- A table with an item under a key that was free. -/
def add? (key : Key) (item : Item) (entries : Table) : Option Table :=
  match get? key entries with
  | none => some (insert key item entries)
  | some _ => none

/-- A table with an item under a dotted key. The last table on the way has to be one that dotted
keys have made. -/
def define? (walk : Walk) (path : List Key) (key : Key) (item : Item) (origin : Origin)
    (entries : Table) : Option Table :=
  updateAt? walk
    (fun origin inner => if path.isEmpty || origin == walk.makes then add? key item inner else none)
    path origin entries

end Table

/-! ## Documents -/

/-- Where the table that is being filled belongs. -/
inductive Target where
  /-- It is the whole document. -/
  | root
  /-- It goes under a key of the table at the end of a path. -/
  | entry (path : List Key) (key : Key)
  /-- It goes to the end of the array under a key of the table at the end of a path. -/
  | element (path : List Key) (key : Key)

/-- The state of a document between two lines. -/
structure Layout where
  /-- The finished tables. -/
  root : Table := []
  /-- The table that is being filled. -/
  current : Table := []
  /-- Where it belongs. -/
  target : Target := .root

namespace Layout

/-- The document after the table that is being filled has been put where it belongs. -/
def close? (layout : Layout) : Option Table :=
  match layout.target with
  | .root => some layout.current
  | .entry path key =>
    Table.updateAt? .header (fun _ => Table.add? key (.table .header layout.current)) path .header
      layout.root
  | .element path key =>
    Table.updateAt? .header
      (fun _ entries =>
        match Table.get? key entries with
        | some (.tables elements) =>
          some (Table.insert key (.tables (layout.current :: elements)) entries)
        | none => some (Table.insert key (.tables [layout.current]) entries)
        | some _ => none)
      path .header layout.root

/-- The document after a dotted key and its value. -/
def define? (layout : Layout) (path : List Key) (key : Key) (item : Item) : Option Layout :=
  (Table.define? .dotted path key item .header layout.current).map fun current =>
    { layout with current := current }

/-- The table at the end of a path, where headers may lead. -/
def find? : List Key → Table → Option Table
  | [], entries => some entries
  | key :: path, entries =>
    match Table.get? key entries with
    | none => some []
    | some (.table _ inner) => find? path inner
    | some (.tables (last :: _)) => find? path last
    | some _ => none

/-- The document after a header. A table that other headers have led through is filled further;
any other table under the key must not be there. -/
def openTable? (layout : Layout) (path : List Key) (key : Key) : Option Layout := do
  let root ← layout.close?
  let parent ← find? path root
  match Table.get? key parent with
  | some (.table .path inner) => do
    let root ←
      Table.updateAt? .header (fun _ entries => some (Table.erase key entries)) path .header
      root
    pure ⟨root, inner, .entry path key⟩
  | some _ => none
  | none => do
    let root ← Table.updateAt? .header (fun _ entries => some entries) path .header root
    pure ⟨root, [], .entry path key⟩

/-- The document after a header in double brackets. Nothing but such headers may have defined what
stands under the key. -/
def openElement? (layout : Layout) (path : List Key) (key : Key) : Option Layout := do
  let root ← layout.close?
  let root ← Table.updateAt? .header
    (fun _ entries =>
      match Table.get? key entries with
      | none => some (Table.insert key (.tables []) entries)
      | some (.tables _) => some entries
      | some _ => none)
    path .header root
  pure ⟨root, [], .element path key⟩

end Layout

end CodeMarkup.Toml
