import CodeMarkup.Proofs.Pattern.Meaning

/-!
# First matches

What a search finds is said without the search: the first place from which there is something.

* `IsFirst` — the first place at or after a place with a hit.  It is determined
  (`IsFirst.unique`), and it stays the first from every place up to it (`IsFirst.later`).
* `Matcher.find?_isFirst` and `Matcher.search?_eq_iff` — the two searches find the first match and
  the first match that is not empty.
* `Matcher.SearchRun` — the search over empty matches without a bound on its steps; it always comes
  to an end (`Matcher.search?_run`).
-/

namespace CodeMarkup

/-! ## First hits -/

/-- The first place at or after `place` with a hit, and the hit; or that there is none. -/
def IsFirst (hit? : Cursor → Option Cursor) (place : Cursor) : Option (Cursor × Cursor) → Prop
  | none => ∀ q, place.Reaches q → hit? q = none
  | some (start, stop) =>
    place.Reaches start ∧ hit? start = some stop ∧
      ∀ q, place.Reaches q → q.offset < start.offset → hit? q = none

namespace IsFirst

variable {hit? : Cursor → Option Cursor} {place start stop : Cursor}
  {result : Option (Cursor × Cursor)}

theorem here (h : hit? place = some stop) : IsFirst hit? place (some (place, stop)) :=
  ⟨.refl place, h, fun _ hq hlt => absurd hq.offset_le (Nat.not_le.2 hlt)⟩

/-- If there is no hit before `start`, the first one from `start` on is the first one. -/
theorem of_reaches (hstart : place.Reaches start)
    (hnone : ∀ q, place.Reaches q → q.offset < start.offset → hit? q = none)
    (h : IsFirst hit? start result) : IsFirst hit? place result := by
  have hbefore : ∀ q, place.Reaches q → (start.Reaches q → hit? q = none) → hit? q = none := by
    intro q hq hafter
    rcases Nat.lt_or_ge q.offset start.offset with hlt | hle
    · exact hnone q hq hlt
    · exact hafter (hstart.of_le hq hle)
  match result with
  | none => exact fun q hq => hbefore q hq (h q)
  | some (s, e) =>
    obtain ⟨hs, hit, hfirst⟩ := h
    exact ⟨hstart.trans hs, hit, fun q hq hlt => hbefore q hq fun hsq => hfirst q hsq hlt⟩

theorem at_end (hrest : place.rest = []) (h : hit? place = none) : IsFirst hit? place none := by
  intro q hq
  rcases hq.eq_or_after with rfl | ⟨c, rest, hcons, -⟩
  · exact h
  · simp [hrest] at hcons

theorem further {c : Char} {rest : List Char} (hrest : place.rest = c :: rest)
    (hnone : hit? place = none) (h : IsFirst hit? (place.after c rest) result) :
    IsFirst hit? place result := by
  refine of_reaches (.after hrest) (fun q hq hlt => ?_) h
  rcases hq.eq_or_after with rfl | ⟨d, more, hcons, hq⟩
  · exact hnone
  · obtain ⟨rfl, rfl⟩ : c = d ∧ rest = more := by simpa [hrest] using hcons
    exact absurd hq.offset_le (Nat.not_le.2 hlt)

/-- There is one first hit at most. -/
theorem unique {first second : Option (Cursor × Cursor)} (h₁ : IsFirst hit? place first)
    (h₂ : IsFirst hit? place second) : first = second := by
  match first, second with
  | none, none => rfl
  | none, some (s, e) => exact absurd h₂.2.1 (by simp [h₁ s h₂.1])
  | some (s, e), none => exact absurd h₁.2.1 (by simp [h₂ s h₁.1])
  | some (s, e), some (s', e') =>
    obtain ⟨hs, hit, hfirst⟩ := h₁
    obtain ⟨hs', hit', hfirst'⟩ := h₂
    have hle : s.offset ≤ s'.offset := by
      refine Nat.not_lt.1 fun hlt => ?_
      simp [hfirst s' hs' hlt] at hit'
    have hge : s'.offset ≤ s.offset := by
      refine Nat.not_lt.1 fun hlt => ?_
      simp [hfirst' s hs hlt] at hit
    obtain rfl : s = s' := hs.eq_of_offset hs' (Nat.le_antisymm hle hge)
    simp_all

/-- A first hit is the first one from every place between. -/
theorem later {q : Cursor} (hq : place.Reaches q) (h : IsFirst hit? place result)
    (hle : ∀ found ∈ result, q.offset ≤ found.1.offset) : IsFirst hit? q result := by
  match result with
  | none => exact fun r hr => h r (hq.trans hr)
  | some (s, e) =>
    obtain ⟨hs, hit, hfirst⟩ := h
    exact ⟨hq.of_le hs (hle _ rfl), hit, fun r hr hlt => hfirst r (hq.trans hr) hlt⟩

end IsFirst

namespace Matcher

/-! ## The first match -/

theorem matchAt?_reaches {m : Matcher} {place stop : Cursor} (h : m.matchAt? place = some stop) :
    place.Reaches stop :=
  (matchAt?_leads h).reaches

theorem findFrom_isFirst (m : Matcher) (offset : Nat) (prev? : Option Char) (text : List Char) :
    IsFirst m.matchAt? ⟨offset, prev?, text⟩ (m.findFrom offset prev? text) := by
  induction text generalizing offset prev? with
  | nil =>
    rw [findFrom]
    cases h : m.matchAt? ⟨offset, prev?, []⟩ with
    | none => exact .at_end rfl h
    | some stop => exact .here h
  | cons c rest ih =>
    rw [findFrom]
    cases h : m.matchAt? ⟨offset, prev?, c :: rest⟩ with
    | none => exact .further rfl h (ih (offset + c.utf8Size) (some c))
    | some stop => exact .here h

theorem find?_isFirst (m : Matcher) (place : Cursor) : IsFirst m.matchAt? place (m.find? place) :=
  findFrom_isFirst m place.offset place.prev? place.rest

/-! ## The first match that is not empty -/

/-- The end of the preferred match that starts at a place, if that match is not empty. -/
def tokenAt? (m : Matcher) (place : Cursor) : Option Cursor :=
  (m.matchAt? place).filter fun stop => place.offset < stop.offset

theorem tokenAt?_eq_some_iff {m : Matcher} {place stop : Cursor} :
    m.tokenAt? place = some stop ↔ m.matchAt? place = some stop ∧ place.offset < stop.offset := by
  simp [tokenAt?, Option.filter_eq_some_iff]

theorem tokenAt?_eq_none {m : Matcher} {place : Cursor} (h : m.matchAt? place = none) :
    m.tokenAt? place = none := by
  simp [tokenAt?, h]

theorem tokenAt?_eq_none_of_empty {m : Matcher} {place stop : Cursor}
    (h : m.matchAt? place = some stop) (hempty : ¬ place.offset < stop.offset) :
    m.tokenAt? place = none := by
  rw [tokenAt?, h, Option.filter_some, if_neg (by simpa using hempty)]

/-- The search over empty matches, without a bound on its steps: what it comes to from a place. -/
inductive SearchRun (m : Matcher) : Cursor → Option (Cursor × Cursor) → Prop
  /-- There is no match any more. -/
  | none {place : Cursor} (h : m.find? place = none) : SearchRun m place none
  /-- The next match is not empty. -/
  | found {place start stop : Cursor} (h : m.find? place = some (start, stop))
      (hlt : start.offset < stop.offset) : SearchRun m place (some (start, stop))
  /-- The next match is empty and stands at the end of the text. -/
  | atEnd {place start stop : Cursor} (h : m.find? place = some (start, stop))
      (hempty : ¬ start.offset < stop.offset) (hnext : start.next? = none) : SearchRun m place none
  /-- The next match is empty, and the search goes on one character behind it. -/
  | skip {place start stop further : Cursor} {result : Option (Cursor × Cursor)}
      (h : m.find? place = some (start, stop)) (hempty : ¬ start.offset < stop.offset)
      (hnext : start.next? = some further) (later : SearchRun m further result) :
      SearchRun m place result

theorem next?_eq_none {place : Cursor} (h : place.next? = none) : place.rest = [] := by
  unfold Cursor.next? at h
  split at h
  · assumption
  · cases h

theorem next?_eq_some {place further : Cursor} (h : place.next? = some further) :
    ∃ c rest, place.rest = c :: rest ∧ further = place.after c rest := by
  unfold Cursor.next? at h
  split at h
  · cases h
  · cases h
    exact ⟨_, _, by assumption, rfl⟩

theorem find?_reaches {m : Matcher} {place start stop : Cursor}
    (h : m.find? place = some (start, stop)) : place.Reaches start := by
  have hfirst := find?_isFirst m place
  rw [h] at hfirst
  exact hfirst.1

/-- One character of room for every character of the text is enough. -/
theorem searchWithin_run (m : Matcher) {room : List Char} {place : Cursor}
    (hroom : place.rest.length ≤ room.length) : SearchRun m place (m.searchWithin room place) := by
  fun_induction searchWithin m room place with
  | case1 room place h => exact .none h
  | case2 room place start stop h hlt => exact .found h hlt
  | case3 place start stop h hempty further c room hnext ih =>
    refine .skip h hempty hnext (ih ?_)
    have hlength := (find?_reaches h).length_le
    obtain ⟨d, rest, hrest, rfl⟩ := next?_eq_some hnext
    simp only [hrest, List.length_cons, Cursor.after] at hlength hroom ⊢
    omega
  | case4 room place start stop h hempty hstuck =>
    -- The room can only be used up where the text is.
    refine .atEnd h hempty ?_
    cases hnext : start.next? with
    | none => rfl
    | some further =>
      have hlength := (find?_reaches h).length_le
      obtain ⟨d, rest, hrest, -⟩ := next?_eq_some hnext
      cases room with
      | nil => simp [hrest] at hlength hroom; simp [hroom] at hlength
      | cons c room => exact absurd rfl (hstuck further c room hnext)

/-- The search over empty matches comes to an end, with what `search?` finds. -/
theorem search?_run (m : Matcher) (place : Cursor) : SearchRun m place (m.search? place) :=
  searchWithin_run m (Nat.le_refl _)

theorem SearchRun.isFirst {m : Matcher} {place : Cursor} {result : Option (Cursor × Cursor)}
    (h : SearchRun m place result) : IsFirst m.tokenAt? place result := by
  induction h with
  | @none place h =>
    have hfirst := find?_isFirst m place
    rw [h] at hfirst
    exact fun q hq => tokenAt?_eq_none (hfirst q hq)
  | @found place start stop h hlt =>
    have hfirst := find?_isFirst m place
    rw [h] at hfirst
    obtain ⟨hstart, hmatch, hbefore⟩ := hfirst
    exact ⟨hstart, tokenAt?_eq_some_iff.2 ⟨hmatch, hlt⟩,
      fun q hq hlt => tokenAt?_eq_none (hbefore q hq hlt)⟩
  | @atEnd place start stop h hempty hnext =>
    have hfirst := find?_isFirst m place
    rw [h] at hfirst
    obtain ⟨hstart, hmatch, hbefore⟩ := hfirst
    refine .of_reaches hstart (fun q hq hlt => tokenAt?_eq_none (hbefore q hq hlt)) ?_
    exact .at_end (next?_eq_none hnext) (tokenAt?_eq_none_of_empty hmatch hempty)
  | @skip place start stop further result h hempty hnext _ ih =>
    have hfirst := find?_isFirst m place
    rw [h] at hfirst
    obtain ⟨hstart, hmatch, hbefore⟩ := hfirst
    obtain ⟨c, rest, hrest, rfl⟩ := next?_eq_some hnext
    refine .of_reaches hstart (fun q hq hlt => tokenAt?_eq_none (hbefore q hq hlt)) ?_
    exact .further hrest (tokenAt?_eq_none_of_empty hmatch hempty) ih

theorem search?_isFirst (m : Matcher) (place : Cursor) :
    IsFirst m.tokenAt? place (m.search? place) :=
  (search?_run m place).isFirst

/-- The search finds the first match that is not empty. -/
theorem search?_eq_iff {m : Matcher} {place : Cursor} {result : Option (Cursor × Cursor)} :
    m.search? place = result ↔ IsFirst m.tokenAt? place result := by
  constructor
  · rintro rfl
    exact search?_isFirst m place
  · exact (search?_isFirst m place).unique

end Matcher

end CodeMarkup
