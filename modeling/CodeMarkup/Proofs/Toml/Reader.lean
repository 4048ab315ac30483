import CodeMarkup.Proofs.Toml.Quoted
import CodeMarkup.Toml.Reader

/-!
# Documents of simple lines are read back

A document of comments, empty lines and lines with one bare key and its value is read line by line.
Each line is a step that leaves the rest of the document as it is; a line with a key that is new
puts its value behind the entries before it.

* `IsWritten` — a text on one line is read as a value.
* `IsBareKey` — a key that stands without quotes.
* `readLines?_blank`, `readLines?_comment`, `readLines?_pair` — the steps.
* `readLines?_pairLines` — a document of keys and values is read as the table of them.
-/

namespace CodeMarkup.Toml

variable {fuel : Nat} {layout : Layout} {rest : List Char}

/-! ## Values -/

/-- A text is read as a value, up to the end of its line. -/
structure IsWritten (written : List Char) (item : Item) : Prop where
  /-- It is read as the value. -/
  read : ∀ fuel depth rest,
    readValue? (fuel + 1) depth (written ++ '\n' :: rest) = some (item, '\n' :: rest)
  /-- It does not begin with a blank. -/
  head : ∀ rest, skipSpaces (written ++ rest) = written ++ rest

theorem dropWhile_append_cons {p : Char → Bool} {text : List Char} {d : Char}
    (htext : ∀ c ∈ text, p c = true) (hd : p d = false) (rest : List Char) :
    (text ++ d :: rest).dropWhile p = d :: rest := by
  rw [List.dropWhile_append_of_pos htext]
  simp [hd]

theorem skipSpaces_of_head {text : List Char} (h : text.head?.any isSpace = false) :
    skipSpaces text = text := by
  cases text with
  | nil => rfl
  | cons c text =>
    have hc : isSpace c = false := by simpa using h
    simp [skipSpaces, hc]

/-- What begins with a mark is read as a string. -/
theorem readValue?_of_mark {mark : Char} (h : mark = '"' ∨ mark = '\'') (depth : Nat)
    (text : List Char) :
    readValue? (fuel + 1) depth (mark :: text) =
      (Quoted.read? (mark :: text)).map fun found => (.string found.1, found.2) := by
  rcases h with rfl | rfl <;> rfl

/-- A string begins with a mark. -/
theorem Quoted.write_eq_cons (text : List Char) :
    ∃ mark more, write text = mark :: more ∧ (mark = '"' ∨ mark = '\'') := by
  rw [write]
  cases style text with
  | basic | basicLines => exact ⟨'"', _, rfl, .inl rfl⟩
  | literal | literalLines => exact ⟨'\'', _, rfl, .inr rfl⟩

/-- A string is a value as it is written. -/
theorem isWritten_write (text : List Char) : IsWritten (Quoted.write text) (.string text) := by
  obtain ⟨mark, more, hwrite, hmark⟩ := Quoted.write_eq_cons text
  constructor
  · intro fuel depth rest
    have hread : Quoted.read? (Quoted.write text ++ '\n' :: rest) = some (text, '\n' :: rest) :=
      Quoted.read?_write text (by simp) (by simp)
    rw [hwrite, List.cons_append] at *
    rw [readValue?_of_mark hmark, hread, Option.map_some]
  · intro rest
    apply skipSpaces_of_head
    rw [hwrite]
    rcases hmark with rfl | rfl <;> rfl

theorem isWritten_boolean (b : Bool) :
    IsWritten (if b then "true" else "false").toList (.boolean b) := by
  cases b with
  | true => exact ⟨fun _ _ _ => rfl, fun _ => rfl⟩
  | false => exact ⟨fun _ _ _ => rfl, fun _ => rfl⟩

/-! ## Lines -/

/-- An empty line is passed over. -/
theorem readLines?_blank :
    readLines? (fuel + 1) layout ('\n' :: rest) = readLines? fuel layout rest := rfl

/-- A comment is passed over. -/
theorem readLines?_comment {comment : List Char} (h : ∀ c ∈ comment, isTextChar c = true) :
    readLines? (fuel + 1) layout ('#' :: (comment ++ '\n' :: rest)) =
      readLines? fuel layout rest := by
  have hdrop : (comment ++ '\n' :: rest).dropWhile isTextChar = '\n' :: rest :=
    dropWhile_append_cons h rfl rest
  have hskip : skipComment (skipSpaces ('#' :: (comment ++ '\n' :: rest))) = '\n' :: rest := hdrop
  have hfinish : finishLine? ('#' :: (comment ++ '\n' :: rest)) = some rest := by
    rw [finishLine?, hskip]
    rfl
  show (finishLine? ('#' :: (comment ++ '\n' :: rest))).bind (readLines? fuel layout) = _
  rw [hfinish, Option.bind_some]

/-- A key that stands without quotes. -/
structure IsBareKey (key : Key) : Prop where
  ne_nil : key ≠ []
  chars : ∀ c ∈ key, isBareKeyChar c = true

/-- A bare key begins with a character of its own. -/
theorem IsBareKey.eq_cons {key : Key} (h : IsBareKey key) :
    ∃ c more, key = c :: more ∧ isBareKeyChar c = true := by
  cases key with
  | nil => exact absurd rfl h.ne_nil
  | cons c more => exact ⟨c, more, rfl, h.chars c List.mem_cons_self⟩

theorem ne_of_isBareKeyChar {c d : Char} (h : isBareKeyChar c = true)
    (hd : isBareKeyChar d = false) : c ≠ d := by
  rintro rfl
  simp [h] at hd

theorem IsBareKey.skipSpaces_append {key : Key} (h : IsBareKey key) (rest : List Char) :
    skipSpaces (key ++ rest) = key ++ rest := by
  obtain ⟨c, more, rfl, hc⟩ := h.eq_cons
  have hspace := ne_of_isBareKeyChar hc (d := ' ') rfl
  have htab := ne_of_isBareKeyChar hc (d := '\t') rfl
  exact skipSpaces_of_head (by simp [isSpace, hspace, htab])

/-- A bare key ends where a character follows that it cannot hold. -/
theorem IsBareKey.readKey?_append {key : Key} (h : IsBareKey key) {d : Char}
    (hd : isBareKeyChar d = false) (rest : List Char) :
    readKey? (key ++ d :: rest) = some (key, d :: rest) := by
  have htake : (key ++ d :: rest).takeWhile isBareKeyChar = key := by
    rw [List.takeWhile_append_of_pos h.chars]
    simp [hd]
  have hdrop := dropWhile_append_cons h.chars hd rest
  obtain ⟨c, more, hkey, hc⟩ := h.eq_cons
  have hhead : (key ++ d :: rest).head?.any isBareKeyChar = true := by
    simp [hkey, hc]
  rw [readKey?, if_pos hhead, htake, hdrop]
  -- a quoted key would begin with a mark
  all_goals
    intro others heq
    simp only [hkey, List.cons_append, List.cons.injEq] at heq
    exact ne_of_isBareKeyChar hc rfl heq.1

/-- A bare key before its equals sign is a path of one key. -/
theorem IsBareKey.readPath?_append {key : Key} (h : IsBareKey key) (rest : List Char) :
    readPath? (key ++ ' ' :: '=' :: rest) = some ([], key, '=' :: rest) := by
  have hkeys (fuel : Nat) :
      readKeys? (fuel + 1) (key ++ ' ' :: '=' :: rest) = some ([key], '=' :: rest) := by
    rw [readKeys?, h.skipSpaces_append, h.readKey?_append rfl]
    rfl
  rw [readPath?, hkeys]
  rfl

/-- A line with a bare key and its value defines the key. -/
theorem readPair?_pairLine (layout : Layout) (rest : List Char) {key : Key}
    (hkey : IsBareKey key) {written : List Char} {item : Item} (hitem : IsWritten written item) :
    readPair? layout (pairLine key written ++ rest) =
      (layout.define? [] key item).map fun layout => (layout, rest) := by
  have hline : pairLine key written ++ rest =
      key ++ ' ' :: '=' :: ' ' :: (written ++ '\n' :: rest) := by
    simp [pairLine]
  have hskip : skipSpaces (' ' :: (written ++ '\n' :: rest)) = written ++ '\n' :: rest :=
    hitem.head _
  rw [readPair?, hline, hkey.readPath?_append]
  show ((readValue? _ 0 (skipSpaces (' ' :: (written ++ '\n' :: rest)))).bind fun found =>
    (finishLine? found.2).bind fun rest =>
      (layout.define? [] key found.1).bind fun layout => some (layout, rest)) = _
  rw [hskip, hitem.read]
  show ((layout.define? [] key item).bind fun layout => some (layout, rest)) = _
  rw [Option.map_eq_bind]
  rfl

/-- What begins like a bare key is a line with a key. -/
theorem readLines?_of_bareKeyChar {c : Char} (hc : isBareKeyChar c = true) {more : List Char}
    (hskip : skipSpaces (c :: more) = c :: more) :
    readLines? (fuel + 1) layout (c :: more) =
      (readPair? layout (c :: more)).bind fun found => readLines? fuel found.1 found.2 := by
  -- the other kinds of lines begin with characters that no bare key holds
  have hcomment := ne_of_isBareKeyChar hc (d := '#') rfl
  have hblank := ne_of_isBareKeyChar hc (d := '\n') rfl
  have hreturn := ne_of_isBareKeyChar hc (d := '\r') rfl
  have hheader := ne_of_isBareKeyChar hc (d := '[') rfl
  rw [readLines?, hskip]
  simp [hcomment, hblank, hreturn, hheader]

/-- A line with a bare key and its value defines the key. -/
theorem readLines?_pair {key : Key} (hkey : IsBareKey key) {written : List Char} {item : Item}
    (hitem : IsWritten written item) :
    readLines? (fuel + 1) layout (pairLine key written ++ rest) =
      (layout.define? [] key item).bind fun layout => readLines? fuel layout rest := by
  obtain ⟨c, more, hcons, hc⟩ := hkey.eq_cons
  have hline : pairLine key written ++ rest = key ++ (" = ".toList ++ written ++ '\n' :: rest) := by
    simp [pairLine]
  have hskip := hkey.skipSpaces_append (" = ".toList ++ written ++ '\n' :: rest)
  rw [hcons, List.cons_append] at hskip
  have hpair := readPair?_pairLine layout rest hkey hitem
  rw [hline, hcons, List.cons_append] at *
  rw [readLines?_of_bareKeyChar hc hskip, hpair, Option.bind_map]
  rfl

/-! ## Documents -/

theorem Table.get?_eq_none {key : Key} {entries : Table} (h : key ∉ entries.map Prod.fst) :
    get? key entries = none := by
  induction entries with
  | nil => rfl
  | cons entry entries ih =>
    simp only [List.map_cons, List.mem_cons, not_or] at h
    rw [get?, if_neg fun heq => h.1 heq.symm, ih h.2]

/-- A key that is new goes behind the entries before it. -/
theorem Table.insert_of_notMem {key : Key} {item : Item} {entries : Table}
    (h : key ∉ entries.map Prod.fst) : insert key item entries = entries ++ [(key, item)] := by
  induction entries with
  | nil => rfl
  | cons entry entries ih =>
    simp only [List.map_cons, List.mem_cons, not_or] at h
    rw [insert, if_neg fun heq => h.1 heq.symm, ih h.2, List.cons_append]

theorem Layout.define?_of_notMem {key : Key} {item : Item}
    (h : key ∉ layout.current.map Prod.fst) :
    layout.define? [] key item =
      some { layout with current := layout.current ++ [(key, item)] } := by
  have hadd : Table.add? key item layout.current = some (layout.current ++ [(key, item)]) := by
    rw [Table.add?, Table.get?_eq_none h, Table.insert_of_notMem h]
  show (Table.add? key item layout.current).map _ = _
  rw [hadd, Option.map_some]

/-- A key, its value as it is written, and the value. -/
structure Pair where
  /-- The key. -/
  key : Key
  /-- The value as it is written. -/
  written : List Char
  /-- The value. -/
  item : Item
  /-- The key stands without quotes. -/
  isBareKey : IsBareKey key
  /-- What is written is read as the value. -/
  isWritten : IsWritten written item

/-- The line of a pair. -/
def Pair.line (pair : Pair) : List Char := pairLine pair.key pair.written

/-- The entry that a pair makes in a table. -/
def Pair.entry (pair : Pair) : Key × Item := (pair.key, pair.item)

/-- **A document of keys and values is read as the table of them**, if no key comes twice: the
entries go behind those that were read before. -/
theorem readLines?_pairLines {pairs : List Pair} (hroot : layout.target = .root)
    (hkeys : (layout.current.map Prod.fst ++ pairs.map Pair.key).Nodup) :
    readLines? (fuel + pairs.length + 1) layout (pairs.flatMap Pair.line) =
      some (layout.current ++ pairs.map Pair.entry) := by
  induction pairs generalizing layout with
  | nil =>
    show layout.close? = _
    rw [Layout.close?, hroot, List.map_nil, List.append_nil]
  | cons pair pairs ih =>
    have hnew : pair.key ∉ layout.current.map Prod.fst := by
      intro hmem
      exact (List.nodup_append.1 hkeys).2.2 _ hmem _ (by simp) rfl
    let further : Layout := { layout with current := layout.current ++ [pair.entry] }
    have hdefine : layout.define? [] pair.key pair.item = some further :=
      Layout.define?_of_notMem hnew
    have hfurther : (further.current.map Prod.fst ++ pairs.map Pair.key).Nodup := by
      simpa [further, Pair.entry] using hkeys
    have hlater : readLines? (fuel + pairs.length + 1) further (pairs.flatMap Pair.line) =
        some (further.current ++ pairs.map Pair.entry) := ih hroot hfurther
    rw [List.flatMap_cons, Pair.line, List.length_cons, ← Nat.add_assoc,
      readLines?_pair pair.isBareKey pair.isWritten, hdefine, Option.bind_some, hlater,
      List.map_cons]
    simp [further]

end CodeMarkup.Toml
