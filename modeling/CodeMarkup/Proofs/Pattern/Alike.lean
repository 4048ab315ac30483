import CodeMarkup.Proofs.Pattern.FirstMatch

/-!
# Matches in two texts

A matcher sees of the text before a place only the character in front of it, and of the text behind
its matches only the next character.  So what it does in one text it does in another one in which
the same characters stand, though more may follow, if it takes the first of these for the end of the
text.

* `Cursor.Alike` — places of two texts with the same text behind them, up to a tail.
* `Matcher.takesForEnd` — a matcher takes a character for the end of the text.
* `Matcher.run_alike` — such a matcher goes the same ways in both texts.  The induction is on the
  matcher, for continuations that go the same ways.
* `Matcher.tokenAt?_alike` — it has the same token in both.
-/

namespace CodeMarkup

/-- A place of one text and a place of another, `shift` bytes further on: the same text is behind
both, and `tail` follows in the second one.  It makes no difference for ASCII words what stands
before them. -/
structure Cursor.Alike (shift : Nat) (tail : List Char) (place other : Cursor) : Prop where
  offset_eq : other.offset = place.offset + shift
  rest_eq : other.rest = place.rest ++ tail
  prev_eq : other.prev?.any isAsciiWord = place.prev?.any isAsciiWord

namespace Cursor.Alike

variable {shift : Nat} {tail : List Char} {place other stop : Cursor}

theorem after (h : place.Alike shift tail other) (c : Char) (rest : List Char) :
    (place.after c rest).Alike shift tail (other.after c (rest ++ tail)) :=
  ⟨by simp only [Cursor.after, h.offset_eq]; omega, rfl, rfl⟩

/-- A text that is passed in one of them is passed in the other. -/
theorem passes {text : List Char} (h : place.Alike shift tail other)
    (hpasses : place.Passes text stop) :
    ∃ stop', other.Passes text stop' ∧ stop.Alike shift tail stop' := by
  have hrest : other.rest = text ++ (stop.rest ++ tail) := by
    rw [h.rest_eq, hpasses.rest_eq, List.append_assoc]
  obtain ⟨stop', hpasses', hrest'⟩ := exists_passes hrest
  refine ⟨stop', hpasses', ?_, hrest', ?_⟩
  · rw [hpasses'.offset_eq, hpasses.offset_eq, h.offset_eq]
    omega
  · rw [hpasses'.prev_eq, hpasses.prev_eq]
    cases text.getLast? with
    | none => exact h.prev_eq
    | some c => rfl

/-- Where the end of what is passed has a place like it, what leads there is the same text. -/
theorem passes_of_reaches {text : List Char} {stop' : Cursor} (h : place.Alike shift tail other)
    (hpasses : place.Passes text stop) (hreaches : other.Reaches stop')
    (hstop : stop.Alike shift tail stop') : other.Passes text stop' := by
  obtain ⟨further, hfurther, hlike⟩ := h.passes hpasses
  have hoffset : further.offset = stop'.offset := by rw [hlike.offset_eq, hstop.offset_eq]
  obtain rfl : further = stop' := Reaches.eq_of_offset ⟨text, hfurther⟩ hreaches hoffset
  exact hfurther

theorem peek?_any (h : place.Alike shift tail other)
    (htail : tail.head?.any isAsciiWord = false) :
    other.peek?.any isAsciiWord = place.peek?.any isAsciiWord := by
  rw [Cursor.peek?, Cursor.peek?, h.rest_eq]
  cases place.rest with
  | nil => exact htail
  | cons c rest => rfl

end Cursor.Alike

/-! ## Results that agree -/

section

variable {α β γ : Type} {R : β → γ → Prop}

theorem exists_of_rel_some {x : β} {second : Option γ} (h : Option.Rel R (some x) second) :
    ∃ y, second = some y ∧ R x y := by
  cases h with
  | some hxy => exact ⟨_, rfl, hxy⟩

theorem eq_none_of_rel_none {second : Option γ} (h : Option.Rel R none second) :
    second = none := by
  cases h with
  | none => rfl

/-- Two functions that agree on the members of a list find first results that agree. -/
theorem findSome?_rel {f : α → Option β} {g : α → Option γ} {xs : List α}
    (h : ∀ x ∈ xs, Option.Rel R (f x) (g x)) :
    Option.Rel R (xs.findSome? f) (xs.findSome? g) := by
  induction xs with
  | nil => exact .none
  | cons x xs ih =>
    obtain ⟨hx, hxs⟩ := List.forall_mem_cons.1 h
    rw [List.findSome?_cons, List.findSome?_cons]
    cases hfirst : f x with
    | none =>
      rw [hfirst] at hx
      rw [eq_none_of_rel_none hx]
      exact ih hxs
    | some y =>
      rw [hfirst] at hx
      obtain ⟨z, hz, hyz⟩ := exists_of_rel_some hx
      rw [hz]
      exact .some hyz

end

namespace Matcher

/-- Whether a matcher takes a character for the end of the text: it passes it nowhere and it has no
condition that sees it.  If there is no such character, its conditions still are on ASCII words. -/
def takesForEnd (next? : Option Char) : Matcher → Bool
  | empty => true
  | set s => next?.all (!s.mem ·)
  | look (.word true _) => next?.all (!isAsciiWord ·)
  | look _ => false
  | mark _ => false
  | cat m n => m.takesForEnd next? && n.takesForEnd next?
  | alt m n => m.takesForEnd next? && n.takesForEnd next?
  | span _ s => next?.all (!s.mem ·)
  | loop _ body => next?.isNone && body.takesForEnd next?

/-! ## Attempts in two texts -/

section

variable {shift : Nat} {tail : List Char} {place other : Cursor} {next next' : Continuation}

/-- Two attempts come to matches that end alike, or both fail.  Marks are not compared: a matcher
that takes a character for the end has none. -/
def Attempt.Alike (shift : Nat) (tail : List Char) : Attempt → Attempt → Prop
  | .found stop, .found stop' => stop.Alike shift tail stop'
  | .failed _, .failed _ => True
  | _, _ => False

/-- Two continuations make the same of places that are alike. -/
def ContinueAlike (shift : Nat) (tail : List Char) (next next' : Continuation) : Prop :=
  ∀ ⦃place other⦄, place.Alike shift tail other → ∀ passed passed',
    (next place passed).Alike shift tail (next' other passed')

theorem Attempt.Alike.orElse {first first' : Attempt} {second second' : Passed → Attempt}
    (hfirst : first.Alike shift tail first')
    (hsecond : ∀ passed passed', (second passed).Alike shift tail (second' passed')) :
    (first.orElse second).Alike shift tail (first'.orElse second') := by
  cases first with
  | found stop =>
    cases first' with
    | found stop' => exact hfirst
    | failed passed' => exact hfirst.elim
  | failed passed =>
    cases first' with
    | found stop' => exact hfirst.elim
    | failed passed' => exact hsecond passed passed'

theorem set_alike {s : CharSet} (hs : tail.head?.all (!s.mem ·) = true)
    (hplace : place.Alike shift tail other) (hnext : ContinueAlike shift tail next next')
    (passed passed' : Passed) :
    ((set s).run place passed next).Alike shift tail ((set s).run other passed' next') := by
  cases hrest : place.rest with
  | nil =>
    have hother : other.rest = tail := by rw [hplace.rest_eq, hrest, List.nil_append]
    cases tail with
    | nil =>
      simp only [run, hrest, hother]
      trivial
    | cons d more =>
      have hd : s.mem d = false := by simpa using hs
      simp only [run, hrest, hother, hd, Bool.false_eq_true, if_false]
      trivial
  | cons c rest =>
    have hother : other.rest = c :: (rest ++ tail) := by
      rw [hplace.rest_eq, hrest, List.cons_append]
    simp only [run, hrest, hother]
    by_cases hc : s.mem c = true
    · simp only [hc, if_true]
      exact hnext (hplace.after c rest) passed passed'
    · simp only [hc]
      trivial

theorem look_alike {l : Look} (hl : (look l).takesForEnd tail.head? = true)
    (hplace : place.Alike shift tail other) (hnext : ContinueAlike shift tail next next')
    (passed passed' : Passed) :
    ((look l).run place passed next).Alike shift tail ((look l).run other passed' next') := by
  have hholds : l.holds other.prev? other.peek? = l.holds place.prev? place.peek? := by
    match l with
    | .word true edge =>
      have htail : tail.head?.any isAsciiWord = false := by
        cases hhead : tail.head? with
        | none => rfl
        | some c => simpa [takesForEnd, hhead] using hl
      simp only [Look.holds, if_true, hplace.prev_eq, hplace.peek?_any htail]
  simp only [run, hholds]
  split
  · exact hnext hplace passed passed'
  · trivial

theorem spans_alike {greedy : Bool} {s : CharSet} (hs : tail.head?.all (!s.mem ·) = true)
    (hnext : ContinueAlike shift tail next next') (hplace : place.Alike shift tail other)
    (passed passed' : Passed) :
    (spans s greedy next place.offset place.prev? place.rest passed).Alike shift tail
      (spans s greedy next' other.offset other.prev? other.rest passed') := by
  obtain ⟨offset, prev?, text⟩ := place
  induction text generalizing offset prev? other passed passed' with
  | nil =>
    have hstay : spans s greedy next' other.offset other.prev? other.rest passed' =
        next' other passed' := by
      have hother : other.rest = tail := hplace.rest_eq
      obtain ⟨offset', prev?', text'⟩ := other
      obtain rfl : text' = tail := hother
      cases text' with
      | nil => rfl
      | cons d more =>
        have hd : s.mem d = false := by simpa using hs
        simp [spans, hd]
    rw [hstay]
    exact hnext hplace passed passed'
  | cons c rest ih =>
    obtain ⟨offset', prev?', text'⟩ := other
    obtain rfl : text' = c :: (rest ++ tail) := hplace.rest_eq
    have hmove := fun passed passed' => ih passed passed' _ _ (hplace.after c rest)
    by_cases hc : s.mem c = true
    · cases greedy with
      | true =>
        simp only [spans, hc, if_true]
        exact (hmove passed passed').orElse (hnext hplace)
      | false =>
        simp only [spans, hc, if_true, Bool.false_eq_true, if_false]
        exact (hnext hplace passed passed').orElse hmove
    · simp only [spans, hc]
      exact hnext hplace passed passed'

/-- With nothing behind them, two places leave room for the same rounds. -/
theorem rounds_alike {greedy : Bool} {body : Matcher}
    (hbody : ∀ {place other next next'}, place.Alike shift [] other →
      ContinueAlike shift [] next next' → ∀ passed passed',
        (body.run place passed next).Alike shift [] (body.run other passed' next'))
    (hnext : ContinueAlike shift [] next next') (room : List Char) :
    ContinueAlike shift [] (rounds body.run greedy next room)
      (rounds body.run greedy next' room) := by
  induction room with
  | nil => exact hnext
  | cons c room ih =>
    intro place other hplace passed passed'
    have hagain : ContinueAlike shift []
        (fun further passed => if place.offset < further.offset then
          rounds body.run greedy next room further passed else .failed passed)
        (fun further passed => if other.offset < further.offset then
          rounds body.run greedy next' room further passed else .failed passed) := by
      intro further beyond hfurther passed passed'
      have hiff : other.offset < beyond.offset ↔ place.offset < further.offset := by
        rw [hplace.offset_eq, hfurther.offset_eq]
        omega
      simp only [hiff]
      split
      · exact ih hfurther passed passed'
      · trivial
    cases greedy with
    | true => exact (hbody hplace hagain passed passed').orElse (hnext hplace)
    | false => exact (hnext hplace passed passed').orElse (hbody hplace hagain)

/-- **A matcher that takes the first character of a tail for the end of the text goes the same ways
with the tail and without it.** -/
theorem run_alike {m : Matcher} (hm : m.takesForEnd tail.head? = true)
    (hplace : place.Alike shift tail other) (hnext : ContinueAlike shift tail next next')
    (passed passed' : Passed) :
    (m.run place passed next).Alike shift tail (m.run other passed' next') := by
  induction m generalizing place other next next' passed passed' with
  | empty => exact hnext hplace passed passed'
  | set s => exact set_alike hm hplace hnext passed passed'
  | look l => exact look_alike hm hplace hnext passed passed'
  | mark label => simp [takesForEnd] at hm
  | cat m n ihm ihn =>
    simp only [takesForEnd, Bool.and_eq_true] at hm
    refine ihm hm.1 hplace (fun middle middle' hmiddle => ?_) passed passed'
    exact ihn hm.2 hmiddle hnext
  | alt m n ihm ihn =>
    simp only [takesForEnd, Bool.and_eq_true] at hm
    exact (ihm hm.1 hplace hnext passed passed').orElse (ihn hm.2 hplace hnext)
  | span greedy s => exact spans_alike hm hnext hplace passed passed'
  | loop greedy body ih =>
    simp only [takesForEnd, Bool.and_eq_true, Option.isNone_iff_eq_none,
      List.head?_eq_none_iff] at hm
    obtain ⟨rfl, hbody⟩ := hm
    have hrest : other.rest = place.rest := by simpa using hplace.rest_eq
    simp only [run, hrest]
    exact rounds_alike (fun hplace hnext => ih hbody hplace hnext) hnext place.rest hplace
      passed passed'

end

/-! ## Matches in two texts -/

variable {m : Matcher} {shift : Nat} {tail : List Char} {place other : Cursor}

theorem matchAt?_alike (hm : m.takesForEnd tail.head? = true)
    (hplace : place.Alike shift tail other) :
    Option.Rel (Cursor.Alike shift tail) (m.matchAt? place) (m.matchAt? other) := by
  have hfound : ContinueAlike shift tail (fun stop _ => .found stop) fun stop _ => .found stop :=
    fun _ _ hstop _ _ => hstop
  have hrun := run_alike hm hplace hfound ∅ ∅
  rw [matchAt?, matchAt?]
  cases hfirst : m.run place ∅ fun stop _ => .found stop with
  | found stop =>
    cases hsecond : m.run other ∅ fun stop _ => .found stop with
    | found stop' =>
      rw [hfirst, hsecond] at hrun
      exact .some hrun
    | failed passed =>
      rw [hfirst, hsecond] at hrun
      exact hrun.elim
  | failed passed =>
    cases hsecond : m.run other ∅ fun stop _ => .found stop with
    | found stop' =>
      rw [hfirst, hsecond] at hrun
      exact hrun.elim
    | failed passed' => exact .none

/-- **A matcher that takes the first character of a tail for the end of the text has the same token
with the tail and without it.** -/
theorem tokenAt?_alike (hplace : place.Alike shift tail other)
    (hm : m.takesForEnd tail.head? = true) :
    Option.Rel (Cursor.Alike shift tail) (m.tokenAt? place) (m.tokenAt? other) := by
  have hmatch := matchAt?_alike hm hplace
  rw [tokenAt?, tokenAt?]
  generalize m.matchAt? place = first, m.matchAt? other = second at hmatch ⊢
  cases hmatch with
  | none => exact .none
  | @some stop stop' hstop =>
    have hlt : other.offset < stop'.offset ↔ place.offset < stop.offset := by
      rw [hplace.offset_eq, hstop.offset_eq]
      omega
    by_cases h : place.offset < stop.offset
    · simp only [Option.filter_some, h, hlt.2 h, decide_true, if_true]
      exact .some hstop
    · simp only [Option.filter_some, h, mt hlt.1 h, decide_false, Bool.false_eq_true, if_false]
      exact .none

end Matcher

end CodeMarkup
