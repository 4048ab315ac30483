import CodeMarkup.Proofs.Scan.Run

/-!
# Scanning without remembered matches

The reference for the scan: at every place it searches for the next match of every category anew.
Remembering matches changes nothing.

* `FreshRun` — what the reference emits from a place on; it is determined (`FreshRun.unique`).
* `ScanState.Run.fresh` — every run of the scan is a run of the reference.
-/

namespace CodeMarkup

/-- What a scan emits from a place on that remembers nothing and searches for the first match of
every category that is not empty anew at every place. -/
inductive FreshRun (grammar : Grammar) (classifier : Classifier) : Cursor → List Segment → Prop
  /-- No category has a match any more. -/
  | done {place : Cursor} (h : grammar.IsNext place none) :
      FreshRun grammar classifier place (lastGap place)
  /-- The scan emits the next match and goes on behind it. -/
  | step {place : Cursor} {found : GrammarMatch} {rest : List Segment}
      (h : grammar.IsNext place (some found))
      (later : FreshRun grammar classifier found.stop rest) :
      FreshRun grammar classifier place (emitted classifier place found ++ rest)

variable {grammar : Grammar} {classifier : Classifier}

theorem FreshRun.unique {place : Cursor} {first second : List Segment}
    (h₁ : FreshRun grammar classifier place first)
    (h₂ : FreshRun grammar classifier place second) : first = second := by
  induction h₁ generalizing second with
  | done hnone =>
    cases h₂ with
    | done => rfl
    | step hsome => cases hnone.unique hsome
  | step hsome _ ih =>
    cases h₂ with
    | done hnone => cases hnone.unique hsome
    | step hsome' later' =>
      cases hsome.unique hsome'
      rw [ih later']

/-- The invariant carries the simulation: in every state the scan takes the match that the reference
takes at its place. -/
theorem ScanState.Run.fresh {source : List Char} {state : ScanState} {segments : List Segment}
    (h : state.Run grammar classifier segments) (hinv : state.Inv grammar source) :
    FreshRun grammar classifier state.place segments := by
  induction h with
  | done hnext => exact .done (hnext ▸ hinv.next?_isNext)
  | step hnext _ ih => exact .step (hinv.isNext hnext) (ih (hinv.behind hnext))

/-- What a state remembers of a category is sound at its place. -/
theorem ScanState.Inv.entry_isSound {source : List Char} {state : ScanState}
    (h : state.Inv grammar source) {i : Nat} {category : Category} {entry : Lookahead}
    (hcategory : grammar.categories[i]? = some category) (hentry : state.ahead[i]? = some entry) :
    entry.IsSound category.matcher state.place := by
  obtain ⟨hi, rfl⟩ := List.getElem?_eq_some_iff.1 hcategory
  obtain ⟨hi', rfl⟩ := List.getElem?_eq_some_iff.1 hentry
  exact h.sound.get hi hi'

/-- **Remembering matches changes nothing.**  The segments of a scan are exactly those of the
reference.  In every state that the scan passes there is an entry for every category; one with a
match at or after the place of the scan holds what a new search there finds, and where an entry says
that there is no match any more, a new search finds none. -/
theorem freshRun_iff_scan (grammar : Grammar) (classifier : Classifier) (source : List Char) :
    (∀ segments, FreshRun grammar classifier (.start source) segments ↔
      segments = scan grammar classifier source) ∧
    ∀ state, ScanState.Visits grammar source state →
      state.ahead.length = grammar.categories.length ∧
      ∀ (i : Nat) (category : Category), grammar.categories[i]? = some category →
        (∀ start stop, state.ahead[i]? = some (.found start stop) →
          state.place.offset ≤ start.offset →
          category.matcher.search? state.place = some (start, stop)) ∧
        (state.ahead[i]? = some .exhausted → category.matcher.search? state.place = none) := by
  have hscan := (scan_run grammar classifier source).fresh (.start grammar source)
  refine ⟨fun segments => ⟨fun h => h.unique hscan, ?_⟩, fun state hvisits => ?_⟩
  · rintro rfl
    exact hscan
  · have hinv := hvisits.inv
    refine ⟨hinv.sound.length_eq.symm, fun i category hcategory => ⟨?_, ?_⟩⟩
    · intro start stop hentry hle
      exact (hinv.entry_isSound hcategory hentry).search?_eq_some hle
    · intro hentry
      exact (hinv.entry_isSound hcategory hentry).search?_eq_none

/-- A match that was remembered from the start of the source is still the first behind the dot. -/
theorem freshRun_iff_scan_remembered :
    ∃ state, ScanState.Visits ⟨[⟨"xs", .span true (.single 'x')⟩, ⟨"dot", .set (.single '.')⟩]⟩
        ['é', '.', 'x'] state ∧
      state.ahead[0]? = some (.found ⟨3, some '.', ['x']⟩ ⟨4, some 'x', []⟩) ∧
      Matcher.search? (.span true (.single 'x')) state.place =
        some (⟨3, some '.', ['x']⟩, ⟨4, some 'x', []⟩) := by
  have hvisits : ScanState.Visits
      ⟨[⟨"xs", .span true (.single 'x')⟩, ⟨"dot", .set (.single '.')⟩]⟩ ['é', '.', 'x'] _ :=
    .step .start rfl
  refine ⟨_, hvisits, rfl, ?_⟩
  have hfresh := (freshRun_iff_scan _ {} ['é', '.', 'x']).2 _ hvisits
  exact (hfresh.2 0 _ rfl).1 _ _ rfl (by decide)

end CodeMarkup
