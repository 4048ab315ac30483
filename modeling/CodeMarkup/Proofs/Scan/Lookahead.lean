import Mathlib.Data.List.Forall2
import Mathlib.Data.List.Induction
import CodeMarkup.Grammar.Scan
import CodeMarkup.Proofs.Pattern.FirstMatch

/-!
# What remembered matches mean

A remembered match is a claim about the text from the place of the scan on.  It is made at some
place, the scan moves on, and the claim is only read again later.

* `Lookahead.IsSound` — the meaning of an entry at a place.  It survives every move of the scan
  (`Lookahead.IsSound.later`), and refreshing an entry that has it gives what a new search gives
  (`Lookahead.refresh_eq_search`).
* `Lookahead.IsEarliest` — the choice between the entries: the smallest start and, of equal ones,
  the smallest index (`Lookahead.earliest_isEarliest`).
-/

namespace CodeMarkup.Lookahead

/-! ## Sound entries -/

/-- What an entry for a matcher says where the scan has come to `place`.  A match that the scan has
passed says nothing. -/
def IsSound (m : Matcher) (place : Cursor) : Lookahead → Prop
  | unknown => True
  | found start stop => place.offset ≤ start.offset → IsFirst m.tokenAt? place (some (start, stop))
  | exhausted => IsFirst m.tokenAt? place none

/-- Moving on makes no entry wrong. -/
theorem IsSound.later {m : Matcher} {place q : Cursor} {entry : Lookahead}
    (h : entry.IsSound m place) (hq : place.Reaches q) : entry.IsSound m q := by
  cases entry with
  | unknown => trivial
  | found start stop =>
    intro hle
    have hfirst := h (Nat.le_trans hq.offset_le hle)
    exact hfirst.later hq (by rintro _ ⟨⟩; exact hle)
  | exhausted =>
    have hfirst : IsFirst m.tokenAt? place none := h
    exact hfirst.later hq (by simp)

theorem search_eq_found_iff {category : Category} {place start stop : Cursor} :
    search category place = found start stop ↔
      category.matcher.search? place = some (start, stop) := by
  unfold search
  split <;> simp_all

theorem search_eq_exhausted_iff {category : Category} {place : Cursor} :
    search category place = exhausted ↔ category.matcher.search? place = none := by
  unfold search
  split <;> simp_all

theorem search_isSound (category : Category) (place : Cursor) :
    (search category place).IsSound category.matcher place := by
  have hfirst := category.matcher.search?_isFirst place
  unfold search
  split
  · rename_i start stop h
    rw [h] at hfirst
    exact fun _ => hfirst
  · rename_i h
    rwa [h] at hfirst

/-- A sound match that the scan has not passed is what a new search finds. -/
theorem IsSound.search?_eq_some {category : Category} {place start stop : Cursor}
    (h : (found start stop).IsSound category.matcher place) (hle : place.offset ≤ start.offset) :
    category.matcher.search? place = some (start, stop) :=
  Matcher.search?_eq_iff.2 (h hle)

theorem IsSound.search?_eq_none {category : Category} {place : Cursor}
    (h : exhausted.IsSound category.matcher place) : category.matcher.search? place = none :=
  Matcher.search?_eq_iff.2 h

/-- Refreshing a sound entry gives what a new search gives, searched for or not. -/
theorem refresh_eq_search {category : Category} {place : Cursor} {entry : Lookahead}
    (h : entry.IsSound category.matcher place) :
    entry.refresh place category = search category place := by
  cases entry with
  | unknown => rfl
  | found start stop =>
    rw [refresh]
    split
    · rfl
    · rename_i hpassed
      exact (search_eq_found_iff.2 (h.search?_eq_some (Nat.not_lt.1 hpassed))).symm
  | exhausted => exact (search_eq_exhausted_iff.2 h.search?_eq_none).symm

/-! ## The entries of all categories -/

/-- The entries of the categories of a grammar are sound where the scan has come to `place`. -/
def AllSound (grammar : Grammar) (place : Cursor) (ahead : List Lookahead) : Prop :=
  List.Forall₂ (fun category entry => entry.IsSound category.matcher place) grammar.categories ahead

/-- What new searches at a place find for the categories of a grammar. -/
def searchAll (grammar : Grammar) (place : Cursor) : List Lookahead :=
  grammar.categories.map fun category => search category place

theorem allSound_unknown (grammar : Grammar) (place : Cursor) :
    AllSound grammar place (grammar.categories.map fun _ => unknown) :=
  List.forall₂_map_right_iff.2 (List.forall₂_same.2 fun _ _ => trivial)

theorem allSound_searchAll (grammar : Grammar) (place : Cursor) :
    AllSound grammar place (searchAll grammar place) :=
  List.forall₂_map_right_iff.2 (List.forall₂_same.2 fun category _ => search_isSound category place)

theorem AllSound.later {grammar : Grammar} {place q : Cursor} {ahead : List Lookahead}
    (h : AllSound grammar place ahead) (hq : place.Reaches q) : AllSound grammar q ahead :=
  h.imp fun _ _ hentry => hentry.later hq

/-- Refreshing sound entries gives what new searches give for all categories. -/
theorem AllSound.refresh_eq {grammar : Grammar} {place : Cursor} {ahead : List Lookahead}
    (h : AllSound grammar place ahead) :
    List.zipWith (refresh place) grammar.categories ahead = searchAll grammar place := by
  unfold AllSound at h
  unfold searchAll
  generalize grammar.categories = categories at h
  induction h with
  | nil => rfl
  | cons hentry _ ih => rw [List.zipWith_cons_cons, List.map_cons, refresh_eq_search hentry, ih]

/-! ## The earliest entry -/

/-- The match of an entry with the smallest start and, of equal ones, the smallest index; or that no
entry has a match. -/
def IsEarliest (ahead : List Lookahead) : Option GrammarMatch → Prop
  | none => ∀ (i : Nat) (start stop : Cursor), ahead[i]? ≠ some (found start stop)
  | some best =>
    ahead[best.category]? = some (found best.start best.stop) ∧
      ∀ (i : Nat) (start stop : Cursor), ahead[i]? = some (found start stop) →
        best.start.offset < start.offset ∨
          best.start.offset = start.offset ∧ best.category ≤ i

theorem earliest_append (ahead : List Lookahead) (entry : Lookahead) :
    earliest (ahead ++ [entry]) = better (earliest ahead) (entry, ahead.length) := by
  simp [earliest, List.zipIdx_append]

theorem getElem?_append_eq_some {ahead : List Lookahead} {entry seen : Lookahead} {i : Nat}
    (h : (ahead ++ [entry])[i]? = some seen) :
    ahead[i]? = some seen ∨ i = ahead.length ∧ entry = seen := by
  rcases Nat.lt_trichotomy i ahead.length with hlt | heq | hgt
  · exact .inl (by rwa [List.getElem?_append_left hlt] at h)
  · exact .inr ⟨heq, by simpa [heq] using h⟩
  · rw [List.getElem?_eq_none (by simp; omega)] at h
    cases h

/-- One more entry, behind the others. -/
theorem IsEarliest.better {ahead : List Lookahead} {best? : Option GrammarMatch}
    (h : IsEarliest ahead best?) (entry : Lookahead) :
    IsEarliest (ahead ++ [entry]) (better best? (entry, ahead.length)) := by
  cases best? with
  | none =>
    cases entry with
    | found start stop =>
      refine ⟨by simp, fun i s e hi => ?_⟩
      rcases getElem?_append_eq_some hi with hold | ⟨rfl, hnew⟩
      · exact absurd hold (h i s e)
      · cases hnew
        exact .inr ⟨rfl, Nat.le_refl _⟩
    | unknown | exhausted =>
      intro i s e hi
      rcases getElem?_append_eq_some hi with hold | ⟨-, hnew⟩
      · exact h i s e hold
      · cases hnew
  | some best =>
    have hbest := (List.getElem?_eq_some_iff.1 h.1).1
    have hkeep : (ahead ++ [entry])[best.category]? = some (found best.start best.stop) := by
      rw [List.getElem?_append_left hbest, h.1]
    cases entry with
    | found start stop =>
      simp only [Lookahead.better]
      split
      · refine ⟨by simp, fun i s e hi => ?_⟩
        rcases getElem?_append_eq_some hi with hold | ⟨rfl, hnew⟩
        · have := h.2 i s e hold
          exact .inl (by dsimp only; omega)
        · cases hnew
          exact .inr ⟨rfl, Nat.le_refl _⟩
      · refine ⟨hkeep, fun i s e hi => ?_⟩
        rcases getElem?_append_eq_some hi with hold | ⟨rfl, hnew⟩
        · exact h.2 i s e hold
        · cases hnew
          omega
    | unknown | exhausted =>
      refine ⟨hkeep, fun i s e hi => ?_⟩
      rcases getElem?_append_eq_some hi with hold | ⟨-, hnew⟩
      · exact h.2 i s e hold
      · cases hnew

theorem earliest_isEarliest (ahead : List Lookahead) : IsEarliest ahead (earliest ahead) := by
  induction ahead using List.reverseRecOn with
  | nil => exact fun i start stop h => by simp at h
  | append_singleton ahead entry ih =>
    rw [earliest_append]
    exact ih.better entry

end CodeMarkup.Lookahead
