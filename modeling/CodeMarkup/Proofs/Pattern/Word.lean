import CodeMarkup.Language.Basic
import CodeMarkup.Proofs.Pattern.Composed

/-!
# Words that stand alone

A word stands alone where it is written and no ASCII word character is joined to it.  A choice of
words between two edges matches exactly there, whichever of its words begin with others: the edge
behind a word decides between them.

* `StandsAlone` — a word stands alone at an offset of a source; `Cursor.Alone` says it of two places
  (`standsAlone_iff`).
* `Pattern.leads_wholeWord_iff` — where a choice of words leads.
* `Cursor.Alone.word_unique` — of words that an ASCII word character tells apart, one at most stands
  alone at a place.
-/

namespace CodeMarkup

/-- A word stands alone at an offset of a source: it is written there, and neither the character
before it nor the one behind it is an ASCII word character. -/
def StandsAlone (source word : List Char) (offset : Nat) : Prop :=
  ∃ before after, source = before ++ word ++ after ∧ utf8Length before = offset ∧
    before.getLast?.any isAsciiWord = false ∧ after.head?.any isAsciiWord = false

/-- A word stands alone between two places. -/
structure Cursor.Alone (place : Cursor) (word : List Char) (further : Cursor) : Prop where
  passes : place.Passes word further
  before : place.prev?.any isAsciiWord = false
  behind : further.peek?.any isAsciiWord = false

theorem standsAlone_iff {source word : List Char} {offset : Nat} :
    StandsAlone source word offset ↔
      ∃ place further, (Cursor.start source).Reaches place ∧ place.offset = offset ∧
        place.Alone word further := by
  constructor
  · rintro ⟨before, after, rfl, rfl, hbefore, hafter⟩
    let place : Cursor := ⟨utf8Length before, before.getLast?, word ++ after⟩
    let further : Cursor :=
      ⟨utf8Length before + utf8Length word, word.getLast?.or before.getLast?, after⟩
    have hplace : (Cursor.start (before ++ word ++ after)).Passes before place :=
      Cursor.passes_start_iff.2 ⟨List.append_assoc before word after, rfl, rfl⟩
    exact ⟨place, further, ⟨before, hplace⟩, rfl, ⟨rfl, rfl, rfl⟩, hbefore, hafter⟩
  · rintro ⟨place, further, ⟨before, hplace⟩, rfl, halone⟩
    obtain ⟨hsource, hoffset, hprev⟩ := Cursor.passes_start_iff.1 hplace
    refine ⟨before, further.rest, ?_, hoffset.symm, hprev ▸ halone.before, halone.behind⟩
    rw [hsource, halone.passes.rest_eq, List.append_assoc]

/-! ## One word at a place -/

/-- Whether an ASCII word character tells words apart of which one begins with the other: it follows
where the shorter one ends. -/
def ToldApart (words : List String) : Prop :=
  ∀ word ∈ words, ∀ longer ∈ words, word.toList <+: longer.toList →
    word = longer ∨ (longer.toList.drop word.toList.length).head?.any isAsciiWord = true

instance (words : List String) : Decidable (ToldApart words) :=
  inferInstanceAs (Decidable (∀ word ∈ words, ∀ longer ∈ words, word.toList <+: longer.toList →
    word = longer ∨ (longer.toList.drop word.toList.length).head?.any isAsciiWord = true))

namespace Cursor.Alone

variable {words : List String} {word longer : String} {place further beyond : Cursor}

/-- Of two words at a place the shorter one does not stand alone. -/
theorem eq_of_isPrefix (hwords : ToldApart words) (hword : word ∈ words) (hlonger : longer ∈ words)
    (h : place.Alone word.toList further) (h' : place.Passes longer.toList beyond)
    (hstarts : word.toList <+: longer.toList) : word = longer := by
  rcases hwords word hword longer hlonger hstarts with heq | hfollows
  · exact heq
  · obtain ⟨more, hmore⟩ := hstarts
    have hrest : further.rest = more ++ beyond.rest := by
      have hboth : word.toList ++ further.rest = word.toList ++ (more ++ beyond.rest) := by
        rw [← h.passes.rest_eq, h'.rest_eq, ← hmore, List.append_assoc]
      exact List.append_cancel_left hboth
    rw [← hmore, List.drop_left] at hfollows
    have hpeek : further.peek? = more.head? := by
      cases more with
      | nil => simp at hfollows
      | cons c more => rw [Cursor.peek?, hrest]; rfl
    have hbehind := h.behind
    rw [hpeek, hfollows] at hbehind
    cases hbehind

/-- **One word at most stands alone at a place**, of words that are told apart. -/
theorem word_unique (hwords : ToldApart words) (hword : word ∈ words) (hlonger : longer ∈ words)
    (h : place.Alone word.toList further) (h' : place.Alone longer.toList beyond) :
    word = longer := by
  have hstarts : word.toList <+: place.rest := ⟨further.rest, h.passes.rest_eq.symm⟩
  have hstarts' : longer.toList <+: place.rest := ⟨beyond.rest, h'.passes.rest_eq.symm⟩
  rcases List.prefix_or_prefix_of_prefix hstarts hstarts' with hle | hge
  · exact eq_of_isPrefix hwords hword hlonger h h'.passes hle
  · exact (eq_of_isPrefix hwords hlonger hword h' h.passes hge).symm

end Cursor.Alone

/-! ## The pattern of whole words -/

/-- Words as a choice between two edges takes them: each begins and ends with an ASCII word
character, and the choice keeps them apart. -/
structure IsWordList (words : List String) : Prop where
  /-- The words are the branches of their choice. -/
  branches_eq : Pattern.anyOf (words.map String.toList) =
    Pattern.ofBranches (((words.map String.toList).map .literal).flatMap Pattern.branches)
  /-- Every word begins with an ASCII word character. -/
  heads : ∀ word ∈ words, word.toList.head?.any isAsciiWord = true
  /-- Every word ends with an ASCII word character. -/
  lasts : ∀ word ∈ words, word.toList.getLast?.any isAsciiWord = true

namespace Pattern

variable {words : List String} {place further : Cursor}

theorem leads_asciiEdge_iff :
    asciiEdge.Leads place further ↔
      place = further ∧ place.prev?.any isAsciiWord ≠ place.peek?.any isAsciiWord := by
  simp [asciiEdge, Leads, Look.holds, WordEdge.holds]

theorem leads_anyOf_iff (h : IsWordList words) :
    (anyOf (words.map String.toList)).Leads place further ↔
      ∃ word ∈ words, place.Passes word.toList further := by
  rw [anyOf, leads_choice h.branches_eq, List.map_map]
  constructor
  · rintro ⟨part, hpart, hleads⟩
    obtain ⟨word, hmem, rfl⟩ := List.mem_map.1 hpart
    exact ⟨word, hmem, hleads⟩
  · rintro ⟨word, hmem, hpasses⟩
    exact ⟨literal word.toList, List.mem_map.2 ⟨word, hmem, rfl⟩, hpasses⟩

/-- The edges beside a word say that it stands alone. -/
theorem edges_iff {word : List Char} (hhead : word.head?.any isAsciiWord = true)
    (hlast : word.getLast?.any isAsciiWord = true) (h : place.Passes word further) :
    place.prev?.any isAsciiWord ≠ place.peek?.any isAsciiWord ∧
        further.prev?.any isAsciiWord ≠ further.peek?.any isAsciiWord ↔
      place.Alone word further := by
  have hpeek : place.peek?.any isAsciiWord = true := by
    rw [Cursor.peek?, h.rest_eq]
    cases word with
    | nil => simp at hhead
    | cons c word => exact hhead
  have hprev : further.prev?.any isAsciiWord = true := by
    rw [h.prev_eq]
    cases hend : word.getLast? with
    | none => simp [hend] at hlast
    | some c => simpa [hend] using hlast
  rw [hpeek, hprev]
  constructor
  · rintro ⟨hbefore, hbehind⟩
    exact ⟨h, by simpa using hbefore, by simpa using hbehind.symm⟩
  · intro halone
    rw [halone.before, halone.behind]
    decide

/-- **A choice of words between two edges leads over the words that stand alone.** -/
theorem leads_wholeWord_iff (h : IsWordList words) :
    (wholeWord words).Leads place further ↔ ∃ word ∈ words, place.Alone word.toList further := by
  rw [wholeWord, leads_sequence]
  constructor
  · rintro ⟨p, hopen, q, hword, r, hclose, rfl⟩
    obtain ⟨rfl, hbefore⟩ := leads_asciiEdge_iff.1 hopen
    obtain ⟨rfl, hbehind⟩ := leads_asciiEdge_iff.1 hclose
    obtain ⟨word, hmem, hpasses⟩ := (leads_anyOf_iff h).1 hword
    exact ⟨word, hmem, (edges_iff (h.heads word hmem) (h.lasts word hmem) hpasses).1
      ⟨hbefore, hbehind⟩⟩
  · rintro ⟨word, hmem, halone⟩
    obtain ⟨hbefore, hbehind⟩ :=
      (edges_iff (h.heads word hmem) (h.lasts word hmem) halone.passes).2 halone
    exact ⟨place, leads_asciiEdge_iff.2 ⟨rfl, hbefore⟩, further,
      (leads_anyOf_iff h).2 ⟨word, hmem, halone.passes⟩, further,
      leads_asciiEdge_iff.2 ⟨rfl, hbehind⟩, rfl⟩

end Pattern

end CodeMarkup
