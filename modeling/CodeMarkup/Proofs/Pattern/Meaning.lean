import Mathlib.Logic.Relation
import CodeMarkup.Pattern.Matcher
import CodeMarkup.Proofs.Text.Place

/-!
# What patterns and matchers mean

The meaning of a pattern is a relation between places: it leads from one place to another if it has
some way to match the characters between them.  Which of its ways is preferred, and which ways an
attempt gives up because of a mark, is not part of it.

* `Pattern.Leads` and `Matcher.Leads` — the two relations, by the constructors.
* `Matcher.Leads.reaches` — a matcher leads to places that lie further on in the same text.
* `Matcher.matchAt?_leads` — the engine finds nothing else.  It runs with continuations, so the
  induction is about whatever a way goes on with (`Matcher.GoesBy`).
-/

namespace CodeMarkup

open Relation

/-- One character of a set leads from one place to another. -/
def CharSet.Steps (s : CharSet) (p q : Cursor) : Prop :=
  ∃ c rest, p.rest = c :: rest ∧ s.mem c = true ∧ q = p.after c rest

/-- A relation between places, as often in a row as a number says. -/
def Rounds (R : Cursor → Cursor → Prop) : Nat → Cursor → Cursor → Prop
  | 0, p, q => p = q
  | n + 1, p, q => ∃ r, R p r ∧ Rounds R n r q

/-- A relation between places in a row, at least and at most as often as two numbers say.  If the
greatest number is below the least one, the least one is meant. -/
def RoundsWithin (R : Cursor → Cursor → Prop) (least : Nat) (most? : Option Nat)
    (p q : Cursor) : Prop :=
  ∃ n, least ≤ n ∧ (∀ most ∈ most?, n ≤ max least most) ∧ Rounds R n p q

/-- A pattern leads from one place to another: it has a way to match the text between them. -/
def Pattern.Leads : Pattern → Cursor → Cursor → Prop
  | empty, p, q => p = q
  | literal text, p, q => p.Passes text q
  | set s, p, q => s.Steps p q
  | look l, p, q => p = q ∧ l.holds p.prev? p.peek? = true
  | cat a b, p, q => ∃ r, a.Leads p r ∧ b.Leads r q
  | alt a b, p, q => a.Leads p q ∨ b.Leads p q
  | times least most? _ body, p, q => RoundsWithin body.Leads least most? p q
  | group _ body, p, q => body.Leads p q

/-- A matcher leads from one place to another: it has a way to match the text between them, where
marks do not count. -/
def Matcher.Leads : Matcher → Cursor → Cursor → Prop
  | empty, p, q => p = q
  | set s, p, q => s.Steps p q
  | look l, p, q => p = q ∧ l.holds p.prev? p.peek? = true
  | mark _, p, q => p = q
  | cat m n, p, q => ∃ r, m.Leads p r ∧ n.Leads r q
  | alt m n, p, q => m.Leads p q ∨ n.Leads p q
  | span _ s, p, q => ReflTransGen s.Steps p q
  | loop _ body, p, q => ReflTransGen body.Leads p q

/-! ## Places further on -/

theorem CharSet.Steps.reaches {s : CharSet} {p q : Cursor} (h : s.Steps p q) : p.Reaches q := by
  obtain ⟨c, rest, hrest, -, rfl⟩ := h
  exact .after hrest

/-- Steps that lead further on lead further on together. -/
theorem reaches_of_reflTransGen {R : Cursor → Cursor → Prop} (hR : ∀ p q, R p q → p.Reaches q)
    {p q : Cursor} (h : ReflTransGen R p q) : p.Reaches q := by
  induction h with
  | refl => exact .refl p
  | tail _ hstep ih => exact ih.trans (hR _ _ hstep)

theorem Matcher.Leads.reaches {m : Matcher} {p q : Cursor} (h : m.Leads p q) : p.Reaches q := by
  induction m generalizing p q with
  | empty | mark => exact h ▸ .refl p
  | set s => exact CharSet.Steps.reaches h
  | look l => exact h.1 ▸ .refl p
  | cat m n ihm ihn =>
    obtain ⟨r, hm, hn⟩ := h
    exact (ihm hm).trans (ihn hn)
  | alt m n ihm ihn => exact h.elim ihm ihn
  | span greedy s => exact reaches_of_reflTransGen (fun _ _ => CharSet.Steps.reaches) h
  | loop greedy body ih => exact reaches_of_reflTransGen (fun _ _ => ih) h

namespace Matcher

/-! ## What the engine finds -/

theorem Attempt.orElse_eq_found {first : Attempt} {second : Passed → Attempt} {stop : Cursor} :
    first.orElse second = .found stop ↔
      first = .found stop ∨ ∃ passed, first = .failed passed ∧ second passed = .found stop := by
  cases first <;> simp [Attempt.orElse]

/-- A way to match that succeeds has gone on from a place to which a relation leads. -/
def GoesBy (R : Cursor → Cursor → Prop) (way : Cursor → Passed → Continuation → Attempt) : Prop :=
  ∀ ⦃place passed next stop⦄, way place passed next = .found stop →
    ∃ place' passed', R place place' ∧ next place' passed' = .found stop

theorem spans_goesBy (s : CharSet) (greedy : Bool) :
    GoesBy (ReflTransGen s.Steps) fun place passed next =>
      spans s greedy next place.offset place.prev? place.rest passed := by
  rintro ⟨offset, prev?, text⟩ passed next stop h
  induction text generalizing offset prev? passed with
  | nil => exact ⟨_, _, .refl, h⟩
  | cons c rest ih =>
    have stay : ∀ {passed}, next ⟨offset, prev?, c :: rest⟩ passed = .found stop →
        ∃ place' passed', ReflTransGen s.Steps ⟨offset, prev?, c :: rest⟩ place' ∧
          next place' passed' = .found stop :=
      fun h => ⟨_, _, .refl, h⟩
    have move : s.mem c = true → ∀ {passed},
        spans s greedy next (offset + c.utf8Size) (some c) rest passed = .found stop →
        ∃ place' passed', ReflTransGen s.Steps ⟨offset, prev?, c :: rest⟩ place' ∧
          next place' passed' = .found stop := by
      intro hmem passed h
      obtain ⟨place', passed', hleads, hnext⟩ := ih _ _ h
      exact ⟨place', passed', .head ⟨c, rest, rfl, hmem, rfl⟩ hleads, hnext⟩
    simp only [spans] at h
    split at h
    · rename_i hmem
      split at h
      · rcases Attempt.orElse_eq_found.1 h with h | ⟨_, -, h⟩
        · exact move hmem h
        · exact stay h
      · rcases Attempt.orElse_eq_found.1 h with h | ⟨_, -, h⟩
        · exact stay h
        · exact move hmem h
    · exact stay h

theorem rounds_goesBy {R : Cursor → Cursor → Prop}
    {body : Cursor → Passed → Continuation → Attempt} (hbody : GoesBy R body) (greedy : Bool)
    (room : List Char) :
    GoesBy (ReflTransGen R) fun place passed next => rounds body greedy next room place passed := by
  intro place passed next stop h
  induction room generalizing place passed with
  | nil => exact ⟨_, _, .refl, h⟩
  | cons _ room ih =>
    have again : ∀ {passed}, body place passed (fun place' passed =>
          if place.offset < place'.offset then rounds body greedy next room place' passed
          else .failed passed) = .found stop →
        ∃ place' passed', ReflTransGen R place place' ∧ next place' passed' = .found stop := by
      intro passed h
      obtain ⟨place', passed', hround, hnext⟩ := hbody h
      split at hnext
      · obtain ⟨place'', passed'', hrounds, hnext⟩ := ih hnext
        exact ⟨place'', passed'', .head hround hrounds, hnext⟩
      · cases hnext
    simp only [rounds] at h
    split at h
    · rcases Attempt.orElse_eq_found.1 h with h | ⟨_, -, h⟩
      · exact again h
      · exact ⟨_, _, .refl, h⟩
    · rcases Attempt.orElse_eq_found.1 h with h | ⟨_, -, h⟩
      · exact ⟨_, _, .refl, h⟩
      · exact again h

/-- The ways of the engine are ways of the matcher. -/
theorem run_goesBy (m : Matcher) : GoesBy m.Leads m.run := by
  induction m with
  | empty => intro place passed next stop h; exact ⟨_, _, rfl, h⟩
  | set s =>
    intro place passed next stop h
    simp only [run] at h
    split at h
    · cases h
    · rename_i c rest hrest
      split at h
      · rename_i hmem
        exact ⟨_, _, ⟨c, rest, hrest, hmem, rfl⟩, h⟩
      · cases h
  | look l =>
    intro place passed next stop h
    simp only [run] at h
    split at h
    · rename_i hholds
      exact ⟨_, _, ⟨rfl, hholds⟩, h⟩
    · cases h
  | mark label =>
    intro place passed next stop h
    simp only [run] at h
    split at h
    · cases h
    · exact ⟨_, _, rfl, h⟩
  | cat m n ihm ihn =>
    intro place passed next stop h
    obtain ⟨place', passed', hm, h⟩ := ihm h
    obtain ⟨place'', passed'', hn, h⟩ := ihn h
    exact ⟨place'', passed'', ⟨place', hm, hn⟩, h⟩
  | alt m n ihm ihn =>
    intro place passed next stop h
    rcases Attempt.orElse_eq_found.1 h with h | ⟨_, -, h⟩
    · obtain ⟨place', passed', hm, h⟩ := ihm h
      exact ⟨place', passed', .inl hm, h⟩
    · obtain ⟨place', passed', hn, h⟩ := ihn h
      exact ⟨place', passed', .inr hn, h⟩
  | span greedy s => exact spans_goesBy s greedy
  | loop greedy body ih =>
    intro place passed next stop h
    exact rounds_goesBy ih greedy place.rest h

/-- A matcher leads from where a match starts to where it ends. -/
theorem matchAt?_leads {m : Matcher} {place stop : Cursor} (h : m.matchAt? place = some stop) :
    m.Leads place stop := by
  simp only [matchAt?] at h
  split at h
  · rename_i stop' hrun
    obtain ⟨place', passed', hleads, hstop⟩ := run_goesBy m hrun
    cases hstop
    cases h
    exact hleads
  · cases h

end Matcher

end CodeMarkup
