import CodeMarkup.Proofs.Pattern.Complete

/-!
# Empty matches

Whether a pattern matches the empty text at a place depends only on the two characters beside it.
The empty text as a whole is a fair sample of such places, but for one thing: no word starts or ends
in it.

* `Pattern.Leads.nullable` — a pattern that matches the empty text anywhere is nullable.
* `Pattern.leads_start_nil` — a pattern that matches the empty text at a place matches the empty
  text as a whole, unless it asks for the edge of a word and the place is one.
-/

namespace CodeMarkup

variable {place : Cursor}

/-! ## Rounds that go nowhere -/

/-- Rounds that lead further on lead back to where they started only if each stays there. -/
theorem roundsWithin_here_iff {R : Cursor → Cursor → Prop} (hR : ∀ p q, R p q → p.Reaches q)
    {least : Nat} {most? : Option Nat} :
    RoundsWithin R least most? place place ↔ least = 0 ∨ R place place := by
  have hreaches : ∀ n p q, Rounds R n p q → p.Reaches q := fun n p q h =>
    reaches_of_reflTransGen hR (reflTransGen_iff_rounds.2 ⟨n, h⟩)
  constructor
  · rintro ⟨n, hle, -, hrounds⟩
    cases n with
    | zero => exact .inl (Nat.le_zero.1 hle)
    | succ n =>
      obtain ⟨r, hround, hrest⟩ := hrounds
      obtain rfl : place = r := (hR _ _ hround).antisymm (hreaches _ _ _ hrest)
      exact .inr hround
  · rintro (rfl | hround)
    · exact ⟨0, Nat.le_refl 0, fun _ _ => Nat.zero_le _, rfl⟩
    · refine ⟨least, Nat.le_refl least, fun _ _ => Nat.le_max_left .., ?_⟩
      clear most?
      induction least with
      | zero => rfl
      | succ n ih => exact ⟨place, hround, ih⟩

/-! ## Matching the empty text at a place -/

namespace Pattern

theorem not_steps_here {s : CharSet} : ¬ s.Steps place place := by
  rintro ⟨c, rest, -, -, hafter⟩
  have hoffset : place.offset = place.offset + c.utf8Size := congrArg Cursor.offset hafter
  have := c.utf8Size_pos
  omega

theorem passes_here_iff {text : List Char} : place.Passes text place ↔ text = [] :=
  ⟨fun h => h.unique (.refl place), fun h => h ▸ .refl place⟩

theorem cat_leads_here_iff {p q : Pattern} :
    (cat p q).Leads place place ↔ p.Leads place place ∧ q.Leads place place := by
  constructor
  · rintro ⟨r, hp, hq⟩
    obtain rfl : place = r := hp.reaches.antisymm hq.reaches
    exact ⟨hp, hq⟩
  · rintro ⟨hp, hq⟩
    exact ⟨place, hp, hq⟩

theorem times_leads_here_iff {least : Nat} {most? : Option Nat} {greedy : Bool} {p : Pattern} :
    (times least most? greedy p).Leads place place ↔ least = 0 ∨ p.Leads place place :=
  roundsWithin_here_iff fun _ _ => Leads.reaches

/-- A pattern that matches the empty text at some place is nullable. -/
theorem Leads.nullable {p : Pattern} (h : p.Leads place place) : p.nullable = true := by
  induction p with
  | empty | look => rfl
  | literal text => simp [Pattern.nullable, passes_here_iff.1 h]
  | set s => exact absurd h not_steps_here
  | cat p q ihp ihq =>
    obtain ⟨hp, hq⟩ := cat_leads_here_iff.1 h
    simp [Pattern.nullable, ihp hp, ihq hq]
  | alt p q ihp ihq =>
    rcases h with hp | hq
    · simp [Pattern.nullable, ihp hp]
    · simp [Pattern.nullable, ihq hq]
  | times least most? greedy body ih =>
    rcases times_leads_here_iff.1 h with rfl | hbody
    · simp [Pattern.nullable]
    · simp [Pattern.nullable, ih hbody]
  | group index body ih => exact ih h

end Pattern

/-! ## Edges of words -/

/-- A word starts or ends at a place, where words are made of word characters, or of ASCII word
characters only. -/
def Cursor.AtWordEdge (place : Cursor) : Prop :=
  ∃ ascii, (Look.word ascii .either).holds place.prev? place.peek? = true

/-- Whether a condition holds at edges of words only. -/
def Look.asksEdge : Look → Bool
  | word _ .either | word _ .opens | word _ .closes => true
  | _ => false

/-- A condition that holds at a place holds in the empty text, unless it asks for an edge. -/
theorem Look.holds_none_of_holds {l : Look} {prev? next? : Option Char}
    (h : l.holds prev? next? = true) : l.holds none none = true ∨
      l.asksEdge = true ∧ ∃ ascii, (word ascii .either).holds prev? next? = true := by
  cases l with
  | word ascii edge =>
    cases edge with
    | either => exact .inr ⟨rfl, ascii, h⟩
    | opens | closes =>
      refine .inr ⟨rfl, ascii, ?_⟩
      simp only [holds, WordEdge.holds, Bool.and_eq_true, Bool.not_eq_true'] at h
      simp only [holds, WordEdge.holds, h.1, h.2]
      rfl
    | neither | noneBefore | noneAfter => exact .inl rfl
  | _ => exact .inl rfl

namespace Pattern

/-- Whether a pattern has a condition that holds at edges of words only. -/
def asksEdge : Pattern → Bool
  | look l => l.asksEdge
  | cat p q | alt p q => p.asksEdge || q.asksEdge
  | times _ _ _ body | group _ body => body.asksEdge
  | _ => false

/-- **A pattern that matches the empty text at a place matches the empty text as a whole**, unless
it asks for the edge of a word and the place is one. -/
theorem leads_start_nil {p : Pattern} (h : p.Leads place place) :
    p.Leads (.start []) (.start []) ∨ p.asksEdge = true ∧ place.AtWordEdge := by
  induction p with
  | empty => exact .inl rfl
  | literal text => exact .inl (passes_here_iff.2 (passes_here_iff.1 h))
  | set s => exact absurd h not_steps_here
  | look l =>
    rcases Look.holds_none_of_holds h.2 with hholds | hedge
    · exact .inl ⟨rfl, hholds⟩
    · exact .inr hedge
  | cat p q ihp ihq =>
    obtain ⟨hp, hq⟩ := cat_leads_here_iff.1 h
    rcases ihp hp with hp | ⟨hasks, hedge⟩
    · rcases ihq hq with hq | ⟨hasks, hedge⟩
      · exact .inl (cat_leads_here_iff.2 ⟨hp, hq⟩)
      · exact .inr ⟨by simp [asksEdge, hasks], hedge⟩
    · exact .inr ⟨by simp [asksEdge, hasks], hedge⟩
  | alt p q ihp ihq =>
    rcases h with hp | hq
    · exact (ihp hp).imp .inl fun ⟨hasks, hedge⟩ => ⟨by simp [asksEdge, hasks], hedge⟩
    · exact (ihq hq).imp .inr fun ⟨hasks, hedge⟩ => ⟨by simp [asksEdge, hasks], hedge⟩
  | times least most? greedy body ih =>
    rcases times_leads_here_iff.1 h with hleast | hbody
    · exact .inl (times_leads_here_iff.2 (.inl hleast))
    · exact (ih hbody).imp_left fun hbody => times_leads_here_iff.2 (.inr hbody)
  | group index body ih => exact ih h

end Pattern

end CodeMarkup
