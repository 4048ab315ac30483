import Mathlib.Order.Bounds.Basic
import CodeMarkup.Proofs.Scan.Preference

/-!
# The next token of a category

The scan asks a category for its next match that is not empty.  The search for it steps over empty
matches: behind each it goes on one character later, and that character may have one to four bytes.
Here the search is said in offsets, where a step by the wrong number of bytes would lead inside a
character.

* `Category.searchRound?` and `Category.SearchesTo` — the search round by round, without a bound on
  their number.  A round that has to cut the text inside a character comes to nothing.
* `Category.IsNextToken` — the first boundary at or after an offset at which there is a token, or
  that there is none.  It is determined (`Category.IsNextToken.unique`) and stays so as long as the
  offset is not behind it (`Category.IsNextToken.later`).
* `Category.searchesTo_searchAt?` — every search comes to an end and cuts at boundaries only.
* `Category.isNextToken_searchAt?` — no token is lost between two rounds.
-/

namespace CodeMarkup

/-! ## Cutting at an offset -/

/-- The text from an offset on.  There is none inside a character or behind the end. -/
def cutAt? : Nat → List Char → Option (List Char)
  | 0, text => some text
  | _ + 1, [] => none
  | offset + 1, c :: rest =>
    if c.utf8Size ≤ offset + 1 then cutAt? (offset + 1 - c.utf8Size) rest else none

/-- A text can be cut at its boundaries and nowhere else. -/
theorem cutAt?_eq_some_iff {offset : Nat} {text rest : List Char} :
    cutAt? offset text = some rest ↔
      ∃ before, text = before ++ rest ∧ utf8Length before = offset := by
  constructor
  · intro h
    fun_induction cutAt? offset text with
    | case1 text =>
      cases h
      exact ⟨[], rfl, rfl⟩
    | case2 => cases h
    | case3 offset c text hle ih =>
      obtain ⟨before, rfl, hbefore⟩ := ih h
      refine ⟨c :: before, rfl, ?_⟩
      rw [utf8Length_cons]
      omega
    | case4 => cases h
  · rintro ⟨before, rfl, rfl⟩
    induction before with
    | nil => simp [cutAt?]
    | cons c before ih =>
      obtain ⟨n, hn⟩ : ∃ n, utf8Length (c :: before) = n + 1 :=
        Nat.exists_eq_succ_of_ne_zero (by rw [Ne, utf8Length_eq_zero_iff]; simp)
      have hsize : c.utf8Size ≤ n + 1 ∧ n + 1 - c.utf8Size = utf8Length before := by
        rw [utf8Length_cons] at hn
        omega
      rw [hn, List.cons_append, cutAt?, if_pos hsize.1, hsize.2, ih]

theorem cutAt?_of_reaches {text : List Char} {place : Cursor}
    (h : (Cursor.start text).Reaches place) : cutAt? place.offset text = some place.rest := by
  obtain ⟨before, h⟩ := h
  obtain ⟨htext, hoffset, -⟩ := Cursor.passes_start_iff.1 h
  exact cutAt?_eq_some_iff.2 ⟨before, htext, hoffset.symm⟩

/-! ## The search, round by round -/

/-- What one round of a search comes to. -/
inductive SearchRound where
  /-- The search ends. -/
  | ends (result : Option (Nat × Nat))
  /-- It goes on at an offset. -/
  | goesOn (offset : Nat)

namespace Category

/-- One round of the search for a match that is not empty.  Behind an empty match it goes on one
character later, unless the text ends there.  Where the text cannot be cut it comes to nothing. -/
def searchRound? (category : Category) (text : List Char) (offset : Nat) : Option SearchRound :=
  match category.findAt? text offset with
  | none => some (.ends none)
  | some (start, stop) =>
    if start < stop then some (.ends (some (start, stop)))
    else
      match cutAt? start text with
      | none => none
      | some [] => some (.ends none)
      | some (c :: _) => some (.goesOn (start + c.utf8Size))

/-- What the rounds of a search come to, from an offset on. -/
inductive SearchesTo (category : Category) (text : List Char) : Nat → Option (Nat × Nat) → Prop
  /-- The search ends in this round. -/
  | ends {offset : Nat} {result : Option (Nat × Nat)}
      (h : category.searchRound? text offset = some (.ends result)) :
      SearchesTo category text offset result
  /-- The search goes on. -/
  | goesOn {offset further : Nat} {result : Option (Nat × Nat)}
      (h : category.searchRound? text offset = some (.goesOn further))
      (later : SearchesTo category text further result) : SearchesTo category text offset result

/-- The offsets of the next match of a category that is not empty, as the scan searches for it. -/
def searchAt? (category : Category) (text : List Char) (offset : Nat) : Option (Nat × Nat) := do
  let place ← Cursor.seek? text offset
  let found ← category.matcher.search? place
  pure (found.1.offset, found.2.offset)

variable {category : Category} {text : List Char} {place : Cursor} {offset : Nat}

theorem SearchesTo.unique {first second : Option (Nat × Nat)}
    (h₁ : category.SearchesTo text offset first) (h₂ : category.SearchesTo text offset second) :
    first = second := by
  induction h₁ generalizing second with
  | ends hends =>
    cases h₂ with
    | ends hends' =>
      cases hends.symm.trans hends'
      rfl
    | goesOn hgoesOn => cases hends.symm.trans hgoesOn
  | goesOn hgoesOn _ ih =>
    cases h₂ with
    | ends hends => cases hgoesOn.symm.trans hends
    | goesOn hgoesOn' later' =>
      cases hgoesOn.symm.trans hgoesOn'
      exact ih later'

theorem searchAt?_of_seek? (hseek : Cursor.seek? text offset = some place) :
    category.searchAt? text offset =
      (category.matcher.search? place).map fun found => (found.1.offset, found.2.offset) := by
  rw [searchAt?, hseek, Option.bind_eq_bind, Option.bind_some]
  cases category.matcher.search? place <;> rfl

theorem searchAt?_of_seek?_eq_none (hseek : Cursor.seek? text offset = none) :
    category.searchAt? text offset = none := by
  rw [searchAt?, hseek]
  rfl

/-- The rounds of a search pass the places of the text, so each of them can cut it. -/
theorem SearchesTo.of_searchRun {result : Option (Cursor × Cursor)}
    (h : category.matcher.SearchRun place result) (hplace : (Cursor.start text).Reaches place) :
    category.SearchesTo text place.offset
      (result.map fun found => (found.1.offset, found.2.offset)) := by
  induction h with
  | none h => exact .ends (by simp [searchRound?, findAt?_eq hplace, h])
  | found h hlt => exact .ends (by simp [searchRound?, findAt?_eq hplace, h, hlt])
  | atEnd h hempty hnext =>
    have hcut := cutAt?_of_reaches (hplace.trans (Matcher.find?_reaches h))
    rw [Matcher.next?_eq_none hnext] at hcut
    exact .ends (by simp [searchRound?, findAt?_eq hplace, h, hempty, hcut])
  | skip h hempty hnext _ ih =>
    have hstart := hplace.trans (Matcher.find?_reaches h)
    have hcut := cutAt?_of_reaches hstart
    obtain ⟨c, rest, hrest, rfl⟩ := Matcher.next?_eq_some hnext
    rw [hrest] at hcut
    refine .goesOn ?_ (ih (hstart.trans (.after hrest)))
    simp [searchRound?, findAt?_eq hplace, h, hempty, hcut, Cursor.after]

/-- The first round only looks at what is found. -/
theorem SearchesTo.of_findAt?_eq {first : Nat} {result : Option (Nat × Nat)}
    (hfind : category.findAt? text first = category.findAt? text offset)
    (h : category.SearchesTo text offset result) : category.SearchesTo text first result := by
  have hround : category.searchRound? text first = category.searchRound? text offset := by
    rw [searchRound?, hfind, searchRound?]
  cases h with
  | ends hends => exact .ends (hround.trans hends)
  | goesOn hgoesOn later => exact .goesOn (hround.trans hgoesOn) later

/-- Every search comes to an end. -/
theorem searchesTo_searchAt? (category : Category) (text : List Char) (offset : Nat) :
    category.SearchesTo text offset (category.searchAt? text offset) := by
  cases hseek : Cursor.seek? text offset with
  | none =>
    rw [searchAt?_of_seek?_eq_none hseek]
    exact .ends (by simp [searchRound?, findAt?, hseek])
  | some place =>
    have hplace := Cursor.seek?_reaches hseek
    rw [searchAt?_of_seek? hseek]
    refine .of_findAt?_eq ?_ (.of_searchRun (category.matcher.search?_run place) hplace)
    rw [findAt?_of_seek? hseek, findAt?_eq hplace]

/-! ## The first token -/

/-- The boundaries at or after an offset where a category has a token. -/
def tokenStarts (category : Category) (text : List Char) (offset : Nat) : Set Nat :=
  {start | IsBoundary text start ∧ offset ≤ start ∧ ∃ stop, category.HasToken text start stop}

/-- The first token at or after an offset, by the boundaries where it starts and ends; or that there
is none. -/
def IsNextToken (category : Category) (text : List Char) (offset : Nat) :
    Option (Nat × Nat) → Prop
  | none => category.tokenStarts text offset = ∅
  | some (start, stop) =>
    IsLeast (category.tokenStarts text offset) start ∧ category.HasToken text start stop

theorem tokenStarts_subset {later : Nat} (h : offset ≤ later) :
    category.tokenStarts text later ⊆ category.tokenStarts text offset :=
  fun _ ⟨hboundary, hle, htoken⟩ => ⟨hboundary, Nat.le_trans h hle, htoken⟩

theorem IsNextToken.unique {first second : Option (Nat × Nat)}
    (h₁ : category.IsNextToken text offset first) (h₂ : category.IsNextToken text offset second) :
    first = second := by
  match first, second with
  | none, none => rfl
  | none, some (start, stop) =>
    exact absurd h₁ (Set.Nonempty.ne_empty ⟨start, h₂.1.1⟩)
  | some (start, stop), none =>
    exact absurd h₂ (Set.Nonempty.ne_empty ⟨start, h₁.1.1⟩)
  | some (start, stop), some (start', stop') =>
    obtain ⟨hleast, htoken⟩ := h₁
    obtain ⟨hleast', htoken'⟩ := h₂
    obtain rfl : start = start' := hleast.unique hleast'
    exact htoken.1.symm.trans htoken'.1

/-- The first token is the first one from every offset on that is not behind its start. -/
theorem IsNextToken.later {later : Nat} {result : Option (Nat × Nat)}
    (h : category.IsNextToken text offset result) (hlater : offset ≤ later)
    (hle : ∀ token ∈ result, later ≤ token.1) : category.IsNextToken text later result := by
  have hsubset : category.tokenStarts text later ⊆ category.tokenStarts text offset :=
    tokenStarts_subset hlater
  match result with
  | none => exact Set.subset_empty_iff.1 (h ▸ hsubset)
  | some (start, stop) =>
    obtain ⟨⟨⟨hboundary, -, htoken⟩, hlower⟩, hstop⟩ := h
    exact ⟨⟨⟨hboundary, hle _ rfl, htoken⟩, lowerBounds_mono_set hsubset hlower⟩, hstop⟩

/-- The tokens at or after an offset are those from the place on that the offset finds. -/
theorem mem_tokenStarts_iff (hseek : Cursor.seek? text offset = some place) {start : Nat} :
    start ∈ category.tokenStarts text offset ↔
      ∃ q stop, place.Reaches q ∧ q.offset = start ∧ category.matcher.tokenAt? q = some stop := by
  constructor
  · rintro ⟨hboundary, hle, last, htoken⟩
    obtain ⟨q, hq, rfl⟩ := Cursor.isBoundary_iff.1 hboundary
    obtain ⟨place', hseek', hreaches⟩ := Cursor.seek?_of_le hq hle
    cases hseek.symm.trans hseek'
    obtain ⟨stop, hstop, -⟩ := (hasToken_iff hq).1 htoken
    exact ⟨q, stop, hreaches, rfl, hstop⟩
  · rintro ⟨q, stop, hq, rfl, htoken⟩
    have hreaches := (Cursor.seek?_reaches hseek).trans hq
    have hle := Nat.le_trans (Cursor.le_of_seek? hseek) hq.offset_le
    exact ⟨hreaches.isBoundary, hle, stop.offset, (hasToken_iff hreaches).2 ⟨stop, htoken, rfl⟩⟩

/-- There is no token behind the end of a text. -/
theorem tokenStarts_of_seek?_eq_none (hseek : Cursor.seek? text offset = none) :
    category.tokenStarts text offset = ∅ := by
  refine Set.eq_empty_of_forall_notMem fun start ⟨hboundary, hle, _⟩ => ?_
  obtain ⟨q, hq, rfl⟩ := Cursor.isBoundary_iff.1 hboundary
  obtain ⟨place, hplace, -⟩ := Cursor.seek?_of_le hq hle
  cases hseek.symm.trans hplace

/-- The first token from the place on that an offset finds is the next one. -/
theorem isNextToken_of_isFirst (hseek : Cursor.seek? text offset = some place)
    {result : Option (Cursor × Cursor)} (h : IsFirst category.matcher.tokenAt? place result) :
    category.IsNextToken text offset
      (result.map fun found => (found.1.offset, found.2.offset)) := by
  match result with
  | none =>
    refine Set.eq_empty_of_forall_notMem fun start hmem => ?_
    obtain ⟨q, stop, hq, -, htoken⟩ := (mem_tokenStarts_iff hseek).1 hmem
    simp [h q hq] at htoken
  | some (start, stop) =>
    obtain ⟨hstart, htoken, hbefore⟩ := h
    have hreaches := (Cursor.seek?_reaches hseek).trans hstart
    have hmem := (mem_tokenStarts_iff hseek).2 ⟨start, stop, hstart, rfl, htoken⟩
    refine ⟨⟨hmem, fun first hfirst => ?_⟩, (hasToken_iff hreaches).2 ⟨stop, htoken, rfl⟩⟩
    obtain ⟨q, stop', hq, rfl, htoken'⟩ := (mem_tokenStarts_iff hseek).1 hfirst
    refine Nat.not_lt.1 fun hlt => ?_
    simp [hbefore q hq hlt] at htoken'

/-- No token is lost between two rounds. -/
theorem isNextToken_searchAt? (category : Category) (text : List Char) (offset : Nat) :
    category.IsNextToken text offset (category.searchAt? text offset) := by
  cases hseek : Cursor.seek? text offset with
  | none =>
    rw [searchAt?_of_seek?_eq_none hseek]
    exact tokenStarts_of_seek?_eq_none hseek
  | some place =>
    rw [searchAt?_of_seek? hseek]
    exact isNextToken_of_isFirst hseek (category.matcher.search?_isFirst place)

theorem searchAt?_eq_iff {result : Option (Nat × Nat)} :
    category.searchAt? text offset = result ↔ category.IsNextToken text offset result := by
  constructor
  · rintro rfl
    exact isNextToken_searchAt? category text offset
  · exact (isNextToken_searchAt? category text offset).unique

/-- A search from further on finds the same token, as long as it does not start behind it. -/
theorem searchAt?_later {later : Nat} {result : Option (Nat × Nat)}
    (h : category.searchAt? text offset = result) (hlater : offset ≤ later)
    (hle : ∀ token ∈ result, later ≤ token.1) : category.searchAt? text later = result :=
  searchAt?_eq_iff.2 ((searchAt?_eq_iff.1 h).later hlater hle)

end Category

/-- **Stepping over empty matches ends and loses nothing.**  From every offset of every text, the
rounds of a search come to an end without cutting the text inside a character, and to one result
only.  It is the first boundary at or after the offset at which the category has a match that starts
there and is not empty, with the end of that match, or nothing if there is no such boundary.  A
search from an offset further on, but not behind the start of that match, finds the same one; and
where a search finds nothing, one from any later offset finds nothing either. -/
theorem searchesTo_iff_isNextToken (category : Category) (text : List Char) (offset : Nat) :
    (∀ result, category.SearchesTo text offset result ↔
        category.searchAt? text offset = result) ∧
      (∀ result, category.searchAt? text offset = result ↔
        category.IsNextToken text offset result) ∧
      ∀ later, offset ≤ later →
        (∀ start stop, category.searchAt? text offset = some (start, stop) → later ≤ start →
          category.searchAt? text later = some (start, stop)) ∧
        (category.searchAt? text offset = none → category.searchAt? text later = none) := by
  have hruns := category.searchesTo_searchAt? text offset
  refine ⟨fun result => ⟨fun h => hruns.unique h, ?_⟩, fun result => Category.searchAt?_eq_iff,
    fun later hlater => ⟨fun start stop h hle => ?_, fun h => ?_⟩⟩
  · rintro rfl
    exact hruns
  · exact Category.searchAt?_later h hlater (by rintro token ⟨⟩; exact hle)
  · exact Category.searchAt?_later h hlater (by simp)

/-- Between characters of two and of three bytes, two empty matches are stepped over before `xx` and
three behind it. -/
theorem searchesTo_iff_isNextToken_xs :
    ∃ category, category = Category.ofPattern "xs" (.many (.set (.single 'x'))) ∧
      category.searchAt? "é xx ✓".toList 0 = some (3, 5) ∧
      category.searchAt? "é xx ✓".toList 2 = some (3, 5) ∧
      category.searchAt? "é xx ✓".toList 5 = none ∧
      category.searchAt? "é xx ✓".toList 9 = none := by
  let category := Category.ofPattern "xs" (.many (.set (.single 'x')))
  have hfound : category.searchAt? "é xx ✓".toList 0 = some (3, 5) := by decide +kernel
  have hnone : category.searchAt? "é xx ✓".toList 5 = none := by decide +kernel
  have hlater := (searchesTo_iff_isNextToken category "é xx ✓".toList 0).2.2 2 (by decide)
  have hlater' := (searchesTo_iff_isNextToken category "é xx ✓".toList 5).2.2 9 (by decide)
  exact ⟨category, rfl, hfound, hlater.1 3 5 hfound (by decide), hnone, hlater'.2 hnone⟩

end CodeMarkup
