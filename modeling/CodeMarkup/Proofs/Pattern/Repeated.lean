import Mathlib.Data.List.Basic
import CodeMarkup.Proofs.Pattern.Composed

/-!
# Characters in a row

A set that is repeated leads over characters of the set, as many as one likes.  The same holds of
anything that passes a text of some kind.

* `CharSet.mem_ofChars` and `CharSet.mem_noneOf` — the members of sets that are written as lists.
* `rounds_passes_iff` — rounds that each pass a text of some kind.
* `Pattern.leads_many_set_iff` and `Pattern.leads_many1_set_iff` — where a repeated set leads.
-/

namespace CodeMarkup

theorem CharSet.mem_unions {sets : List CharSet} {c : Char} :
    (unions sets).mem c = true ↔ ∃ s ∈ sets, s.mem c = true := by
  fun_induction unions sets with
  | case1 => simp [mem]
  | case2 s => simp
  | case3 s rest hne ih => simp [mem, ih]

theorem CharSet.mem_ofChars {chars : List Char} {c : Char} :
    (ofChars chars).mem c = true ↔ c ∈ chars := by
  simp [ofChars, mem_unions, mem_single_iff]

theorem CharSet.mem_noneOf {chars : List Char} {c : Char} :
    (noneOf chars).mem c = true ↔ c ∉ chars := by
  rw [← CharSet.mem_ofChars]
  simp [noneOf, mem]

theorem CharSet.steps_iff {s : CharSet} {p q : Cursor} :
    s.Steps p q ↔ ∃ c, s.mem c = true ∧ p.Passes [c] q := by
  constructor
  · rintro ⟨c, rest, hrest, hmem, rfl⟩
    exact ⟨c, hmem, .after hrest⟩
  · rintro ⟨c, hmem, hpasses⟩
    obtain ⟨rest, hrest, rfl⟩ := Cursor.passes_singleton_iff.1 hpasses
    exact ⟨c, rest, hrest, hmem, rfl⟩

/-- Rounds that each pass a text of some kind pass texts of this kind one after the other. -/
theorem rounds_passes_iff {R : Cursor → Cursor → Prop} {kind : List Char → Prop}
    (hR : ∀ p q, R p q ↔ ∃ unit, kind unit ∧ p.Passes unit q) {p q : Cursor} :
    (∃ n, Rounds R n p q) ↔
      ∃ units : List (List Char), (∀ unit ∈ units, kind unit) ∧ p.Passes units.flatten q := by
  constructor
  · rintro ⟨n, hrounds⟩
    induction n generalizing p with
    | zero => exact ⟨[], by simp, hrounds ▸ .refl p⟩
    | succ n ih =>
      obtain ⟨r, hround, hrest⟩ := hrounds
      obtain ⟨unit, hkind, hunit⟩ := (hR p r).1 hround
      obtain ⟨units, hkinds, hunits⟩ := ih hrest
      exact ⟨unit :: units, List.forall_mem_cons.2 ⟨hkind, hkinds⟩, hunit.trans hunits⟩
  · rintro ⟨units, hkinds, hpasses⟩
    induction units generalizing p with
    | nil => exact ⟨0, Cursor.passes_nil_iff.1 hpasses⟩
    | cons unit units ih =>
      obtain ⟨hkind, hkinds⟩ := List.forall_mem_cons.1 hkinds
      obtain ⟨r, hunit, hunits⟩ := Cursor.passes_append_iff.1 hpasses
      obtain ⟨n, hrounds⟩ := ih hkinds hunits
      exact ⟨n + 1, r, (hR p r).2 ⟨unit, hkind, hunit⟩, hrounds⟩

/-- So many characters of a set are passed in so many rounds. -/
theorem rounds_steps_iff {s : CharSet} {n : Nat} {p q : Cursor} :
    Rounds s.Steps n p q ↔
      ∃ text : List Char, text.length = n ∧ (∀ c ∈ text, s.mem c = true) ∧ p.Passes text q := by
  induction n generalizing p with
  | zero =>
    constructor
    · intro hround
      exact ⟨[], rfl, by simp, Cursor.passes_nil_iff.2 hround⟩
    · rintro ⟨text, hlength, -, hpasses⟩
      obtain rfl := List.length_eq_zero_iff.1 hlength
      exact Cursor.passes_nil_iff.1 hpasses
  | succ n ih =>
    constructor
    · rintro ⟨r, hround, hrest⟩
      obtain ⟨c, hmem, hc⟩ := CharSet.steps_iff.1 hround
      obtain ⟨text, rfl, htext, hpasses⟩ := ih.1 hrest
      exact ⟨c :: text, rfl, List.forall_mem_cons.2 ⟨hmem, htext⟩, hc.trans hpasses⟩
    · rintro ⟨text, hlength, htext, hpasses⟩
      obtain ⟨c, text, rfl⟩ := List.exists_cons_of_length_eq_add_one hlength
      obtain ⟨hmem, htext⟩ := List.forall_mem_cons.1 htext
      obtain ⟨r, hc, hrest⟩ := Cursor.passes_cons_iff.1 hpasses
      exact ⟨r, CharSet.steps_iff.2 ⟨c, hmem, hc⟩,
        ih.2 ⟨text, by simpa using hlength, htext, hrest⟩⟩

namespace Pattern

variable {place further : Cursor} {s : CharSet}

/-- What can match more than the empty text leads any number of times where so many rounds lead. -/
theorem leads_many_iff {body : Pattern} (h : body.onlyEmpty = false) :
    (many body).Leads place further ↔ ∃ n, Rounds body.Leads n place further := by
  rw [many, leads_repetition h]
  simp [RoundsWithin]

theorem leads_many_set_iff :
    (many (set s)).Leads place further ↔
      ∃ text, (∀ c ∈ text, s.mem c = true) ∧ place.Passes text further := by
  rw [leads_many_iff rfl]
  constructor
  · rintro ⟨n, hrounds⟩
    obtain ⟨text, -, htext, hpasses⟩ := rounds_steps_iff.1 hrounds
    exact ⟨text, htext, hpasses⟩
  · rintro ⟨text, htext, hpasses⟩
    exact ⟨text.length, rounds_steps_iff.2 ⟨text, rfl, htext, hpasses⟩⟩

theorem leads_manyLazy_set_iff :
    (manyLazy (set s)).Leads place further ↔
      ∃ text, (∀ c ∈ text, s.mem c = true) ∧ place.Passes text further := by
  rw [← leads_many_set_iff, manyLazy, many, leads_repetition rfl, leads_repetition rfl]

theorem leads_many1_set_iff :
    (many1 (set s)).Leads place further ↔
      ∃ text, text ≠ [] ∧ (∀ c ∈ text, s.mem c = true) ∧ place.Passes text further := by
  rw [many1, leads_repetition rfl]
  constructor
  · rintro ⟨n, hle, -, hrounds⟩
    obtain ⟨text, rfl, htext, hpasses⟩ := rounds_steps_iff.1 hrounds
    exact ⟨text, List.length_pos_iff.1 hle, htext, hpasses⟩
  · rintro ⟨text, hne, htext, hpasses⟩
    exact ⟨text.length, List.length_pos_iff.2 hne, by simp,
      rounds_steps_iff.2 ⟨text, rfl, htext, hpasses⟩⟩

end Pattern

end CodeMarkup
