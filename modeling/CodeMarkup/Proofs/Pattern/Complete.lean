import CodeMarkup.Proofs.Pattern.Goal

/-!
# An attempt overlooks no match

A way that an attempt gives up, at a mark passed before or at the end of a round that consumed
nothing, would come to no match that the attempt does not come to otherwise.  So an attempt fails
only where there is no way at all, and a search stops at the first place from which a pattern leads
anywhere.

* `Matcher.Thorough` — an attempt that fails has shown its goal to be beyond a bound, and what is
  behind every mark it has passed.
* `Matcher.run_thorough` — running a matcher is thorough if what follows is.  The induction is on
  the matcher, and on the bound where a way comes back to a mark or to the head of a loop.
* `Pattern.matchAt?_eq_none_iff` — an attempt fails if and only if the pattern leads nowhere.
-/

namespace CodeMarkup.Matcher

theorem Attempt.orElse_eq_failed {first : Attempt} {second : Passed → Attempt} {left : Passed} :
    first.orElse second = .failed left ↔
      ∃ passed, first = .failed passed ∧ second passed = .failed left := by
  cases first <;> simp [Attempt.orElse]

/-! ## What marks say -/

/-- The marks passed in a text are dead ends up to a bound: what `future` says of them is beyond
it.  The places of the text are those reached from `origin`. -/
def DeadEnds (future : Nat → Goal) (origin : Cursor) (bound : Nat) (passed : Passed) : Prop :=
  ∀ label place, origin.Reaches place → (place.offset, label) ∈ passed →
    Beyond (future label) bound place

/-- An attempt at a goal from a place overlooks nothing up to a bound: if it starts after dead ends
and fails, the goal is beyond the bound, and it leaves dead ends only. -/
def Thorough (future : Nat → Goal) (origin : Cursor) (G : Goal) (bound : Nat) (place : Cursor)
    (attempt : Passed → Attempt) : Prop :=
  ∀ ⦃passed left⦄, DeadEnds future origin bound passed → attempt passed = .failed left →
    DeadEnds future origin bound left ∧ Beyond G bound place

/-- A continuation is thorough up to a bound, at all places from one on. -/
def ThoroughFrom (future : Nat → Goal) (origin : Cursor) (G : Goal) (bound : Nat) (place : Cursor)
    (next : Continuation) : Prop :=
  ∀ less ≤ bound, ∀ ⦃further⦄, place.Reaches further →
    Thorough future origin G less further (next further)

variable {future : Nat → Goal} {origin : Cursor} {G H : Goal} {bound less : Nat} {place : Cursor}
  {passed : Passed} {next : Continuation}

theorem mem_insert_iff {point mark : Nat × Nat} :
    point ∈ passed.insert mark ↔ mark = point ∨ point ∈ passed := by
  rw [Std.TreeSet.mem_insert]
  simp [compareLex_eq_eq, compareOn, Prod.ext_iff]

theorem DeadEnds.mono (h : DeadEnds future origin bound passed) (hle : less ≤ bound) :
    DeadEnds future origin less passed :=
  fun label place hplace hmem => (h label place hplace hmem).mono hle

theorem deadEnds_empty : DeadEnds future origin bound ∅ := by
  intro label place hplace hmem
  simp at hmem

/-- There is one place of a text at an offset, so that one more mark is about one place. -/
theorem DeadEnds.insert {label : Nat} (h : DeadEnds future origin bound passed)
    (hplace : origin.Reaches place) (hlabel : Beyond (future label) bound place) :
    DeadEnds future origin bound (passed.insert (place.offset, label)) := by
  intro label' place' hplace' hmem
  rcases mem_insert_iff.1 hmem with heq | hmem
  · obtain ⟨hoffset, rfl⟩ := Prod.mk.inj heq
    have hsame : place = place' := hplace.eq_of_offset hplace' hoffset
    exact hsame ▸ hlabel
  · exact h label' place' hplace' hmem

theorem ThoroughFrom.mono (h : ThoroughFrom future origin G bound place next) (hle : less ≤ bound) :
    ThoroughFrom future origin G less place next :=
  fun least hleast => h least (Nat.le_trans hleast hle)

theorem ThoroughFrom.further {q : Cursor} (h : ThoroughFrom future origin G bound place next)
    (hq : place.Reaches q) : ThoroughFrom future origin G bound q next :=
  fun less hless _ hfurther => h less hless (hq.trans hfurther)

theorem ThoroughFrom.here (h : ThoroughFrom future origin G bound place next) :
    Thorough future origin G bound place (next place) :=
  h bound (Nat.le_refl bound) (.refl place)

/-! ## The parts of an attempt -/

/-- What fails without trying anything is thorough if there is nothing to try. -/
theorem Thorough.failed (h : Beyond G bound place) :
    Thorough future origin G bound place Attempt.failed := by
  intro passed left hpassed hleft
  cases hleft
  exact ⟨hpassed, h⟩

theorem Thorough.imp {attempt : Passed → Attempt} {further : Cursor}
    (h : Thorough future origin G bound further attempt)
    (himp : Beyond G bound further → Beyond H bound place) :
    Thorough future origin H bound place attempt := by
  intro passed left hpassed hleft
  obtain ⟨hends, hbeyond⟩ := h hpassed hleft
  exact ⟨hends, himp hbeyond⟩

/-- Of two thorough attempts the second is made after the dead ends of the first. -/
theorem Thorough.orElse {first second : Passed → Attempt}
    (hfirst : Thorough future origin G bound place first)
    (hsecond : Thorough future origin H bound place second) :
    Thorough future origin (G.or H) bound place fun passed => (first passed).orElse second := by
  intro passed left hpassed hleft
  obtain ⟨middle, hmiddle, hleft⟩ := Attempt.orElse_eq_failed.1 hleft
  obtain ⟨hends, hG⟩ := hfirst hpassed hmiddle
  obtain ⟨hends, hH⟩ := hsecond hends hleft
  exact ⟨hends, beyond_or_iff.2 ⟨hG, hH⟩⟩

/-- A mark passed before is a dead end.  A new one is a dead end up to each bound that what follows
has been shown to be beyond, since passing it costs one more. -/
theorem mark_thorough {label : Nat} (hlabel : future label = (mark label).before G)
    (hplace : origin.Reaches place) (hnext : ThoroughFrom future origin G bound place next) :
    Thorough future origin ((mark label).before G) bound place fun passed =>
      (mark label).run place passed next := by
  intro passed left hpassed hleft
  simp only [run] at hleft
  split at hleft
  · rename_i hcontains
    cases hleft
    exact ⟨hpassed, hlabel ▸ hpassed label place hplace (Std.TreeSet.contains_iff_mem.1 hcontains)⟩
  · have hbehind : ∀ less ≤ bound, Beyond ((mark label).before G) less place →
        DeadEnds future origin less left ∧ Beyond G less place := by
      intro less hle hbeyond
      have hends := (hpassed.mono hle).insert hplace (hlabel ▸ hbeyond)
      exact hnext less hle (.refl place) hends hleft
    have hbeyond : Beyond ((mark label).before G) bound place :=
      .of_later fun less hlt h => mark_beyond (hbehind less (Nat.le_of_lt hlt) h).2
    exact ⟨(hbehind bound (Nat.le_refl bound) hbeyond).1, hbeyond⟩

theorem set_thorough (s : CharSet) (hnext : ThoroughFrom future origin G bound place next) :
    Thorough future origin ((set s).before G) bound place fun passed =>
      (set s).run place passed next := by
  intro passed left hpassed hleft
  simp only [run] at hleft
  split at hleft
  · rename_i hrest
    cases hleft
    exact ⟨hpassed, set_beyond_nil hrest⟩
  · rename_i c rest hrest
    split at hleft
    · rename_i hmem
      obtain ⟨hends, hbeyond⟩ := (hnext.further (.after hrest)).here hpassed hleft
      exact ⟨hends, set_beyond_cons hrest fun _ => hbeyond⟩
    · rename_i hmem
      cases hleft
      exact ⟨hpassed, set_beyond_cons hrest fun h => absurd h hmem⟩

theorem look_thorough (l : Look) (hnext : ThoroughFrom future origin G bound place next) :
    Thorough future origin ((look l).before G) bound place fun passed =>
      (look l).run place passed next := by
  intro passed left hpassed hleft
  simp only [run] at hleft
  split at hleft
  · obtain ⟨hends, hbeyond⟩ := hnext.here hpassed hleft
    exact ⟨hends, look_beyond fun _ => hbeyond⟩
  · rename_i hholds
    cases hleft
    exact ⟨hpassed, look_beyond fun h => absurd h hholds⟩

theorem spans_thorough (greedy : Bool) (s : CharSet)
    (hnext : ThoroughFrom future origin G bound place next) :
    Thorough future origin ((span greedy s).before G) bound place
      (spans s greedy next place.offset place.prev? place.rest) := by
  obtain ⟨offset, prev?, text⟩ := place
  induction text generalizing offset prev? with
  | nil => exact hnext.here.imp (beyond_of_rest_nil rfl)
  | cons c rest ih =>
    have hmove : Thorough future origin ((set s).before ((span greedy s).before G)) bound
        ⟨offset, prev?, c :: rest⟩
        (spans s greedy next (offset + c.utf8Size) (some c) rest) :=
      (ih _ _ (hnext.further (.after rfl))).imp fun h => set_beyond_cons rfl fun _ => h
    by_cases hmem : s.mem c = true
    · cases greedy with
      | true =>
        have hrun : spans s true next offset prev? (c :: rest) = fun passed =>
            (spans s true next (offset + c.utf8Size) (some c) rest passed).orElse
              (next ⟨offset, prev?, c :: rest⟩) := by
          funext passed
          simp [spans, hmem]
        refine hrun ▸ (hmove.orElse hnext.here).imp fun h => ?_
        exact span_beyond (beyond_or_iff.1 h).2 (beyond_or_iff.1 h).1
      | false =>
        have hrun : spans s false next offset prev? (c :: rest) = fun passed =>
            (next ⟨offset, prev?, c :: rest⟩ passed).orElse
              (spans s false next (offset + c.utf8Size) (some c) rest) := by
          funext passed
          simp [spans, hmem]
        refine hrun ▸ (hnext.here.orElse hmove).imp fun h => ?_
        exact span_beyond (beyond_or_iff.1 h).1 (beyond_or_iff.1 h).2
    · have hrun : spans s greedy next offset prev? (c :: rest) =
          next ⟨offset, prev?, c :: rest⟩ := by
        funext passed
        simp [spans, hmem]
      refine hrun ▸ hnext.here.imp fun h => span_beyond h ?_
      exact set_beyond_cons rfl fun h => absurd h hmem

/-- Rounds of a thorough body, with room for as many as there are characters.  A round that consumes
nothing comes back to the head of the loop, which costs one more than starting from it. -/
theorem rounds_thorough {greedy : Bool} {body : Matcher}
    (hbody : ∀ {H less place next}, origin.Reaches place → body.Fits future H →
      ThoroughFrom future origin H less place next →
        Thorough future origin (body.before H) less place fun passed => body.run place passed next)
    (hfits : body.Fits future ((loop greedy body).before G)) (hplace : origin.Reaches place)
    (hnext : ThoroughFrom future origin G bound place next) {room : List Char}
    (hroom : place.rest.length ≤ room.length) :
    Thorough future origin ((loop greedy body).before G) bound place
      (rounds body.run greedy next room place) := by
  induction room generalizing place bound with
  | nil =>
    have hrest : place.rest = [] := List.length_eq_zero_iff.1 (by simpa using hroom)
    exact hnext.here.imp (beyond_of_rest_nil hrest)
  | cons c room ih =>
    -- what a round goes on with: the loop again, if the round has consumed something
    have hagain : ∀ less ≤ bound, Beyond ((loop greedy body).before G) less place →
        ThoroughFrom future origin ((loop greedy body).before G) less place fun further passed =>
          if place.offset < further.offset then rounds body.run greedy next room further passed
          else .failed passed := by
      intro less hless hbeyond least hleast further hfurther
      by_cases hlt : place.offset < further.offset
      · simp only [hlt, if_true]
        have hlength := hfurther.length_lt hlt
        simp only [List.length_cons] at hroom
        exact ih (hplace.trans hfurther)
          ((hnext.mono (Nat.le_trans hleast hless)).further hfurther) (by omega)
      · simp only [hlt, if_false]
        have hsame : place = further :=
          hfurther.eq_of_offset_eq (Nat.le_antisymm hfurther.offset_le (Nat.not_lt.1 hlt))
        exact .failed (hsame ▸ hbeyond.mono hleast)
    have hround : ∀ less ≤ bound, Beyond ((loop greedy body).before G) less place →
        Thorough future origin ((body.before ((loop greedy body).before G)).or G) less place
          (rounds body.run greedy next (c :: room) place) := by
      intro less hless hbeyond
      have hfirst := hbody hplace hfits (hagain less hless hbeyond)
      have hleave := (hnext.mono hless).here
      cases greedy with
      | true => exact hfirst.orElse hleave
      | false => exact (hleave.orElse hfirst).imp fun h => beyond_or_iff.2 (beyond_or_iff.1 h).symm
    intro passed left hpassed hleft
    have hbeyond : Beyond ((loop greedy body).before G) bound place := by
      refine .of_later fun less hlt hbeyond => ?_
      have hless := Nat.le_of_lt hlt
      obtain ⟨-, h⟩ := hround less hless hbeyond (hpassed.mono hless) hleft
      exact loop_beyond (beyond_or_iff.1 h).2 (beyond_or_iff.1 h).1
    exact ⟨(hround bound (Nat.le_refl bound) hbeyond hpassed hleft).1, hbeyond⟩

/-! ## Whole attempts -/

/-- **Running a matcher is thorough if what follows is.** -/
theorem run_thorough {m : Matcher} (hplace : origin.Reaches place) (hfits : m.Fits future G)
    (hnext : ThoroughFrom future origin G bound place next) :
    Thorough future origin (m.before G) bound place fun passed => m.run place passed next := by
  induction m generalizing G bound place next with
  | empty => exact empty_before.symm ▸ hnext.here
  | set s => exact set_thorough s hnext
  | look l => exact look_thorough l hnext
  | mark label => exact mark_thorough hfits hplace hnext
  | cat m n ihm ihn =>
    rw [cat_before]
    refine ihm hplace hfits.1 fun less hless further hfurther => ?_
    exact ihn (hplace.trans hfurther) hfits.2 ((hnext.mono hless).further hfurther)
  | alt m n ihm ihn =>
    rw [alt_before]
    exact (ihm hplace hfits.1 hnext).orElse (ihn hplace hfits.2 hnext)
  | span greedy s => exact spans_thorough greedy s hnext
  | loop greedy body ih => exact rounds_thorough ih hfits hplace hnext (Nat.le_refl _)

/-- An attempt fails only where there is no way. -/
theorem not_leads_of_matchAt?_eq_none {m : Matcher} {place : Cursor}
    (hfits : ∃ future, m.Fits future fun _ _ => True) (h : m.matchAt? place = none)
    (stop : Cursor) : ¬ m.Leads place stop := by
  obtain ⟨future, hfits⟩ := hfits
  intro hleads
  obtain ⟨cost, hway⟩ := leads_iff_way.1 hleads
  simp only [matchAt?] at h
  split at h
  · cases h
  · rename_i left hrun
    -- at the end of the matcher every way succeeds
    have hnext : ThoroughFrom future place (fun _ _ => True) (cost + 1) place
        fun stop _ => .found stop := by
      intro less _ further _ passed left _ hleft
      cases hleft
    obtain ⟨-, hbeyond⟩ := run_thorough (.refl place) hfits hnext deadEnds_empty hrun
    exact hbeyond cost (Nat.lt_succ_self cost) ⟨cost, 0, stop, rfl, hway, trivial⟩

end CodeMarkup.Matcher

namespace CodeMarkup.Pattern

/-- **An attempt fails if and only if the pattern leads nowhere.** -/
theorem matchAt?_eq_none_iff {p : Pattern} {place : Cursor} :
    (Matcher.ofPattern p).matchAt? place = none ↔ ∀ stop, ¬ p.Leads place stop := by
  constructor
  · rw [← Matcher.ofPattern_leads]
    exact Matcher.not_leads_of_matchAt?_eq_none (Matcher.ofPattern_fits p _)
  · intro h
    cases hmatch : (Matcher.ofPattern p).matchAt? place with
    | none => rfl
    | some stop => exact absurd (leads_of_matchAt? hmatch) (h stop)

end CodeMarkup.Pattern
