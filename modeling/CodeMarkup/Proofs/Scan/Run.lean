import CodeMarkup.Proofs.Scan.Lookahead

/-!
# Runs of a scan

The scan as a loop: a state, the match it goes to next, and the state behind that match.  There is
no bound on the number of rounds here.

* `ScanState`, `ScanState.next?`, `ScanState.behind` — the state and its step.
* `ScanState.Visits` and `ScanState.Run` — the states that a scan passes, and what it emits from a
  state until it comes to its end.
* `ScanState.Inv` — the invariant: the place is a place of the source, and what is remembered is
  sound there.  So the next match is the one that new searches give (`ScanState.Inv.next?_isNext`),
  it is not empty and not behind the place, and the loop ends (`scan_run`).
-/

namespace CodeMarkup

/-! ## The next match of a grammar -/

/-- The match that comes next from a place on: of the first matches of all categories that are not
empty, the one with the smallest start and, of equal ones, that of the category declared first.  Or
that no category has a match any more. -/
def Grammar.IsNext (grammar : Grammar) (place : Cursor) : Option GrammarMatch → Prop
  | none => ∀ category ∈ grammar.categories, category.matcher.search? place = none
  | some found =>
    (∃ category, grammar.categories[found.category]? = some category ∧
      category.matcher.search? place = some (found.start, found.stop)) ∧
    ∀ (i : Nat) (category : Category) (start stop : Cursor),
      grammar.categories[i]? = some category →
      category.matcher.search? place = some (start, stop) →
        found.start.offset < start.offset ∨
          found.start.offset = start.offset ∧ found.category ≤ i

namespace Grammar.IsNext

variable {grammar : Grammar} {place : Cursor} {found : GrammarMatch}

/-- The next match is one of the category that it names. -/
theorem isFirst (h : grammar.IsNext place (some found)) :
    ∃ category, grammar.categories[found.category]? = some category ∧
      IsFirst category.matcher.tokenAt? place (some (found.start, found.stop)) := by
  obtain ⟨⟨category, hcategory, hsearch⟩, -⟩ := h
  exact ⟨category, hcategory, Matcher.search?_eq_iff.1 hsearch⟩

theorem start_reaches (h : grammar.IsNext place (some found)) : place.Reaches found.start :=
  let ⟨_, _, hfirst⟩ := h.isFirst
  hfirst.1

theorem match_lt (h : grammar.IsNext place (some found)) :
    found.start.offset < found.stop.offset :=
  let ⟨_, _, hfirst⟩ := h.isFirst
  (Matcher.tokenAt?_eq_some_iff.1 hfirst.2.1).2

theorem match_reaches (h : grammar.IsNext place (some found)) : found.start.Reaches found.stop :=
  let ⟨_, _, hfirst⟩ := h.isFirst
  Matcher.matchAt?_reaches (Matcher.tokenAt?_eq_some_iff.1 hfirst.2.1).1

theorem stop_reaches (h : grammar.IsNext place (some found)) : place.Reaches found.stop :=
  h.start_reaches.trans h.match_reaches

theorem unique {first second : Option GrammarMatch} (h₁ : grammar.IsNext place first)
    (h₂ : grammar.IsNext place second) : first = second := by
  match first, second with
  | none, none => rfl
  | none, some found =>
    obtain ⟨⟨category, hcategory, hsearch⟩, -⟩ := h₂
    simp [h₁ category (List.mem_of_getElem? hcategory)] at hsearch
  | some found, none =>
    obtain ⟨⟨category, hcategory, hsearch⟩, -⟩ := h₁
    simp [h₂ category (List.mem_of_getElem? hcategory)] at hsearch
  | some ⟨start, stop, i⟩, some ⟨start', stop', j⟩ =>
    obtain ⟨⟨category, hcategory, hsearch⟩, hleast⟩ := h₁
    obtain ⟨⟨category', hcategory', hsearch'⟩, hleast'⟩ := h₂
    have hle := hleast j category' start' stop' hcategory' hsearch'
    have hge := hleast' i category start stop hcategory hsearch
    dsimp only at hcategory hsearch hcategory' hsearch' hle hge
    obtain rfl : i = j := by omega
    rw [hcategory] at hcategory'
    cases hcategory'
    rw [hsearch] at hsearch'
    cases hsearch'
    rfl

end Grammar.IsNext

theorem Lookahead.getElem?_searchAll {grammar : Grammar} {place start stop : Cursor} {i : Nat} :
    (searchAll grammar place)[i]? = some (found start stop) ↔
      ∃ category, grammar.categories[i]? = some category ∧
        category.matcher.search? place = some (start, stop) := by
  simp only [searchAll, List.getElem?_map, Option.map_eq_some_iff, search_eq_found_iff]

/-- The earliest of new searches for all categories is the next match. -/
theorem Lookahead.IsEarliest.isNext {grammar : Grammar} {place : Cursor}
    {best? : Option GrammarMatch} (h : IsEarliest (searchAll grammar place) best?) :
    grammar.IsNext place best? := by
  cases best? with
  | none =>
    intro category hmem
    obtain ⟨i, hi⟩ := List.getElem?_of_mem hmem
    cases hsearch : category.matcher.search? place with
    | none => rfl
    | some found =>
      exact absurd (getElem?_searchAll.2 ⟨category, hi, hsearch⟩) (h i found.1 found.2)
  | some best =>
    refine ⟨getElem?_searchAll.1 h.1, fun i category start stop hcategory hsearch => ?_⟩
    exact h.2 i start stop (getElem?_searchAll.2 ⟨category, hcategory, hsearch⟩)

/-! ## States -/

/-- What a scan knows of each category, and the place that it has come to. -/
structure ScanState where
  /-- What is remembered of the categories. -/
  ahead : List Lookahead
  /-- The end of the last token, or the start of the source. -/
  place : Cursor

namespace ScanState

/-- The state of a scan that has not started. -/
def start (grammar : Grammar) (source : List Char) : ScanState :=
  ⟨grammar.categories.map fun _ => .unknown, .start source⟩

/-- What is known of the categories once the matches that the scan has passed are searched again. -/
def refreshed (grammar : Grammar) (state : ScanState) : List Lookahead :=
  List.zipWith (Lookahead.refresh state.place) grammar.categories state.ahead

/-- The match that the scan goes to next. -/
def next? (grammar : Grammar) (state : ScanState) : Option GrammarMatch :=
  Lookahead.earliest (state.refreshed grammar)

/-- The state behind the next match. -/
def behind (grammar : Grammar) (state : ScanState) (found : GrammarMatch) : ScanState :=
  ⟨state.refreshed grammar, found.stop⟩

/-- The states that a scan of a source passes. -/
inductive Visits (grammar : Grammar) (source : List Char) : ScanState → Prop
  /-- The scan starts in this state. -/
  | start : Visits grammar source (.start grammar source)
  /-- The scan goes on behind the next match. -/
  | step {state : ScanState} {found : GrammarMatch} (visited : Visits grammar source state)
      (h : state.next? grammar = some found) : Visits grammar source (state.behind grammar found)

end ScanState

/-- The segments from a place on, if there is no match any more. -/
def lastGap (place : Cursor) : List Segment :=
  gapBetween place.offset (place.offset + utf8Length place.rest)

/-- The segments from a place to the end of the next match. -/
def emitted (classifier : Classifier) (place : Cursor) (found : GrammarMatch) : List Segment :=
  gapBetween place.offset found.start.offset ++
    [.token found.start.offset found.stop.offset (classifier.classify found.text)]

/-- What a scan emits from a state until it ends, without a bound on its rounds. -/
inductive ScanState.Run (grammar : Grammar) (classifier : Classifier) :
    ScanState → List Segment → Prop
  /-- There is no match any more. -/
  | done {state : ScanState} (h : state.next? grammar = none) :
      Run grammar classifier state (lastGap state.place)
  /-- The scan emits the next match and goes on behind it. -/
  | step {state : ScanState} {found : GrammarMatch} {rest : List Segment}
      (h : state.next? grammar = some found)
      (later : Run grammar classifier (state.behind grammar found) rest) :
      Run grammar classifier state (emitted classifier state.place found ++ rest)

/-! ## The invariant -/

namespace ScanState

/-- What holds in every state of a scan. -/
structure Inv (grammar : Grammar) (source : List Char) (state : ScanState) : Prop where
  /-- The scan is at a place of the source. -/
  reached : (Cursor.start source).Reaches state.place
  /-- What it remembers is sound there. -/
  sound : Lookahead.AllSound grammar state.place state.ahead

variable {grammar : Grammar} {classifier : Classifier} {source : List Char} {state : ScanState}

theorem Inv.start (grammar : Grammar) (source : List Char) :
    Inv grammar source (.start grammar source) :=
  ⟨.refl _, Lookahead.allSound_unknown grammar _⟩

/-- A scan that remembers goes where one that searches again at every place goes. -/
theorem Inv.next?_isNext (h : Inv grammar source state) :
    grammar.IsNext state.place (state.next? grammar) := by
  have hearliest := Lookahead.earliest_isEarliest (Lookahead.searchAll grammar state.place)
  rw [next?, refreshed, h.sound.refresh_eq]
  exact hearliest.isNext

theorem Inv.isNext {found : GrammarMatch} (h : Inv grammar source state)
    (hnext : state.next? grammar = some found) : grammar.IsNext state.place (some found) :=
  hnext ▸ h.next?_isNext

/-- One step of the scan keeps the invariant. -/
theorem Inv.behind {found : GrammarMatch} (h : Inv grammar source state)
    (hnext : state.next? grammar = some found) :
    Inv grammar source (state.behind grammar found) := by
  have hstop := (h.isNext hnext).stop_reaches
  refine ⟨h.reached.trans hstop, ?_⟩
  rw [ScanState.behind, refreshed, h.sound.refresh_eq]
  exact (Lookahead.allSound_searchAll grammar state.place).later hstop

theorem Visits.inv (h : Visits grammar source state) : Inv grammar source state := by
  induction h with
  | start => exact .start grammar source
  | step _ hnext ih => exact ih.behind hnext

/-- One token for every character that is left is enough. -/
theorem scanWithin_run {fuel : Nat} (hinv : Inv grammar source state)
    (hfuel : state.place.rest.length < fuel) :
    Run grammar classifier state (scanWithin grammar classifier fuel state.ahead state.place) := by
  induction fuel generalizing state with
  | zero => omega
  | succ fuel ih =>
    rw [scanWithin]
    cases hnext : state.next? grammar with
    | none =>
      have hearliest := hnext
      simp only [next?, refreshed] at hearliest
      simp only [hearliest]
      exact .done hnext
    | some found =>
      have hearliest := hnext
      simp only [next?, refreshed] at hearliest
      simp only [hearliest]
      rw [List.append_cons]
      refine .step hnext (ih (hinv.behind hnext) ?_)
      have hmatch := (hinv.isNext hnext).match_lt
      have hstart := (hinv.isNext hnext).start_reaches.offset_le
      have hlength := (hinv.isNext hnext).stop_reaches.length_lt (by omega)
      simp only [ScanState.behind]
      omega

end ScanState

/-- The scan of a source comes to its end, with the segments of `scan`. -/
theorem scan_run (grammar : Grammar) (classifier : Classifier) (source : List Char) :
    ScanState.Run grammar classifier (.start grammar source) (scan grammar classifier source) :=
  ScanState.scanWithin_run (.start grammar source) (Nat.lt_succ_self _)

end CodeMarkup
