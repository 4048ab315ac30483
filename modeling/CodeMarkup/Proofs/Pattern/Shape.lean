import CodeMarkup.Proofs.Pattern.Extent

/-!
# Tokens by their texts

The tokens of many patterns can be told from the source alone: a text is one if it looks like it and
what follows the text fits.  An opening text with a run of characters behind it is over where the
run is; an opening text with a closing one is over at the first place where it is closed.

* `Pattern.HasShape` — the tokens of a pattern are the texts of a shape.
* `RunAfter`, `NameAfter` and `Enclosed` — three shapes, each of which leaves one token at a place.
* `Matcher.endsBy_runAfter`, `Matcher.endsBy_nameAfter` and `Matcher.endsBy_enclosed` — the matchers
  that find them.
-/

namespace CodeMarkup

variable {place stop : Cursor}

/-- The tokens of a pattern are the texts of a shape.  A shape sees the text and what follows it in
the source. -/
def Pattern.HasShape (p : Pattern) (shape : List Char → List Char → Prop) : Prop :=
  ∀ place stop, (Matcher.ofPattern p).tokenAt? place = some stop ↔
    ∃ text, place.Passes text stop ∧ shape text stop.rest

/-- The tokens of a pattern have a shape if its matches end by it and the shape leaves one text, by
which the pattern leads, and not the empty one. -/
theorem Pattern.hasShape_of_endsBy {p : Pattern} {shape : List Char → List Char → Prop}
    (hends : (Matcher.ofPattern p).EndsBy fun place stop =>
      ∃ text, place.Passes text stop ∧ shape text stop.rest)
    (hleads : ∀ {place stop text}, place.Passes text stop → shape text stop.rest →
      p.Leads place stop)
    (hunique : ∀ {text behind other beyond}, text ++ behind = other ++ beyond →
      shape text behind → shape other beyond → text = other)
    (hne : ∀ {text behind}, shape text behind → text ≠ []) : p.HasShape shape := by
  intro place stop
  refine tokenAt?_eq_some_iff_of_unique hends ?_ ?_ ?_
  · rintro place stop ⟨text, hpasses, hshape⟩
    exact hleads hpasses hshape
  · rintro place stop beyond ⟨text, hpasses, hshape⟩ ⟨other, hpasses', hshape'⟩
    have heq := hpasses.rest_eq.symm.trans hpasses'.rest_eq
    obtain rfl : text = other := hunique heq hshape hshape'
    exact hpasses.stop_unique hpasses'
  · rintro place stop ⟨text, hpasses, hshape⟩
    exact hpasses.offset_lt (hne hshape)

/-- Where a pattern has no token, no text of its shape stands. -/
theorem Pattern.HasShape.not_shape {p : Pattern} {shape : List Char → List Char → Prop}
    (h : p.HasShape shape) (hnone : (Matcher.ofPattern p).tokenAt? place = none)
    {text behind : List Char} (hrest : place.rest = text ++ behind) : ¬ shape text behind := by
  intro hshape
  obtain ⟨stop, hpasses, rfl⟩ := Cursor.exists_passes hrest
  simp [(h place stop).2 ⟨text, hpasses, hshape⟩] at hnone

/-! ## Three shapes -/

section

variable {opener close text behind other beyond : List Char} {s first : CharSet}

/-- An opening text, and behind it characters of a set as far as they go. -/
def RunAfter (opener : List Char) (s : CharSet) (text behind : List Char) : Prop :=
  ∃ run, text = opener ++ run ∧ s.Runs run behind

/-- An opening text, a first character of one set, and characters of another as far as they go. -/
def NameAfter (opener : List Char) (first s : CharSet) (text behind : List Char) : Prop :=
  ∃ c, first.mem c = true ∧ RunAfter (opener ++ [c]) s text behind

/-- An opening text and what follows it up to the first closing text. -/
def Enclosed (opener close text behind : List Char) : Prop :=
  ∃ inner, text = opener ++ (inner ++ close) ∧ FirstClose close (inner ++ close ++ behind) inner

theorem RunAfter.unique (heq : text ++ behind = other ++ beyond)
    (h : RunAfter opener s text behind) (h' : RunAfter opener s other beyond) : text = other := by
  obtain ⟨run, rfl, hrun⟩ := h
  obtain ⟨run', rfl, hrun'⟩ := h'
  rw [List.append_assoc, List.append_assoc] at heq
  rw [hrun.unique (List.append_cancel_left heq) hrun']

theorem NameAfter.unique (heq : text ++ behind = other ++ beyond)
    (h : NameAfter opener first s text behind) (h' : NameAfter opener first s other beyond) :
    text = other := by
  obtain ⟨c, -, hrun⟩ := h
  obtain ⟨d, -, hrun'⟩ := h'
  have hchar : c = d := by
    obtain ⟨run, rfl, -⟩ := hrun
    obtain ⟨run', rfl, -⟩ := hrun'
    simp only [List.append_assoc] at heq
    exact (List.cons.inj (List.append_cancel_left heq)).1
  subst hchar
  exact hrun.unique heq hrun'

theorem Enclosed.unique (heq : text ++ behind = other ++ beyond)
    (h : Enclosed opener close text behind) (h' : Enclosed opener close other beyond) :
    text = other := by
  obtain ⟨inner, rfl, hclose⟩ := h
  obtain ⟨inner', rfl, hclose'⟩ := h'
  have hrest : inner ++ close ++ behind = inner' ++ close ++ beyond := by simpa using heq
  rw [hrest] at hclose
  rw [hclose.unique hclose']

theorem RunAfter.ne_nil (hopener : opener ≠ []) (h : RunAfter opener s text behind) :
    text ≠ [] := by
  obtain ⟨run, rfl, -⟩ := h
  simp [hopener]

theorem NameAfter.ne_nil (h : NameAfter opener first s text behind) : text ≠ [] := by
  obtain ⟨c, -, hrun⟩ := h
  exact hrun.ne_nil (by simp)

theorem Enclosed.ne_nil (hopener : opener ≠ []) (h : Enclosed opener close text behind) :
    text ≠ [] := by
  obtain ⟨inner, rfl, -⟩ := h
  simp [hopener]

theorem NameAfter.append (h : NameAfter opener first s text behind) {more : List Char}
    (hmore : more.head?.any s.mem = false) : NameAfter opener first s text (behind ++ more) := by
  obtain ⟨c, hc, run, htext, hrun⟩ := h
  exact ⟨c, hc, run, htext, hrun.append hmore⟩

theorem Enclosed.append (h : Enclosed opener close text behind) (more : List Char) :
    Enclosed opener close text (behind ++ more) := by
  obtain ⟨inner, htext, hfirst⟩ := h
  refine ⟨inner, htext, ?_⟩
  rw [← List.append_assoc]
  exact hfirst.append more

/-- Where an opening text stands, characters of a set run behind it. -/
theorem RunAfter.exists_of (s : CharSet) {rest : List Char} (h : opener <+: rest) :
    ∃ text behind, rest = text ++ behind ∧ RunAfter opener s text behind := by
  obtain ⟨more, rfl⟩ := h
  obtain ⟨run, behind, rfl, hruns⟩ := CharSet.Runs.exists_of s more
  exact ⟨opener ++ run, behind, by simp, run, rfl, hruns⟩

/-- Where an opening text stands and a closing one follows, something is enclosed. -/
theorem Enclosed.exists_of (opener : List Char) {rest : List Char} (h : close <:+: rest) :
    ∃ text behind, opener ++ rest = text ++ behind ∧ Enclosed opener close text behind := by
  obtain ⟨inner, hfirst⟩ := FirstClose.exists_of_infix h
  obtain ⟨behind, rfl⟩ := id hfirst.closes
  exact ⟨opener ++ (inner ++ close), behind, by simp, inner, rfl, hfirst⟩

/-! ## Where patterns of these shapes lead -/

theorem RunAfter.leads (h : RunAfter opener s text stop.rest) (hpasses : place.Passes text stop) :
    (Pattern.sequence [.literal opener, .many (.set s)]).Leads place stop := by
  obtain ⟨run, rfl, hrun⟩ := h
  obtain ⟨middle, hopener, hbehind⟩ := Cursor.passes_append_iff.1 hpasses
  rw [Pattern.leads_sequence]
  exact ⟨middle, hopener, stop, Pattern.leads_many_set_iff.2 ⟨run, hrun.mem, hbehind⟩, rfl⟩

theorem NameAfter.leads (h : NameAfter opener first s text stop.rest)
    (hpasses : place.Passes text stop) :
    (Pattern.sequence [.literal opener, .set first, .many (.set s)]).Leads place stop := by
  obtain ⟨c, hc, run, rfl, hrun⟩ := h
  obtain ⟨middle, hbefore, hbehind⟩ := Cursor.passes_append_iff.1 hpasses
  obtain ⟨p, hopener, hchar⟩ := Cursor.passes_append_iff.1 hbefore
  rw [Pattern.leads_sequence]
  exact ⟨p, hopener, middle, CharSet.steps_iff.2 ⟨c, hc, hchar⟩, stop,
    Pattern.leads_many_set_iff.2 ⟨run, hrun.mem, hbehind⟩, rfl⟩

theorem NameAfter.leads_many1 (h : NameAfter opener s s text stop.rest)
    (hpasses : place.Passes text stop) :
    (Pattern.sequence [.literal opener, .many1 (.set s)]).Leads place stop := by
  obtain ⟨c, hc, run, rfl, hrun⟩ := h
  rw [List.append_assoc] at hpasses
  obtain ⟨middle, hopener, hname⟩ := Cursor.passes_append_iff.1 hpasses
  rw [Pattern.leads_sequence]
  have hmem : ∀ d ∈ [c] ++ run, s.mem d = true := List.forall_mem_cons.2 ⟨hc, hrun.mem⟩
  exact ⟨middle, hopener, stop,
    Pattern.leads_many1_set_iff.2 ⟨[c] ++ run, by simp, hmem, hname⟩, rfl⟩

/-- A lazy span of any characters leads over what is enclosed. -/
theorem Enclosed.leads (hall : ∀ c, s.mem c = true) (h : Enclosed opener close text stop.rest)
    (hpasses : place.Passes text stop) :
    (Pattern.sequence [.literal opener, .manyLazy (.set s), .literal close]).Leads place stop := by
  obtain ⟨inner, rfl, -⟩ := h
  obtain ⟨p, hopener, hbehind⟩ := Cursor.passes_append_iff.1 hpasses
  obtain ⟨q, hinner, hclose⟩ := Cursor.passes_append_iff.1 hbehind
  rw [Pattern.leads_sequence]
  exact ⟨p, hopener, q, Pattern.leads_manyLazy_set_iff.2 ⟨inner, fun c _ => hall c, hinner⟩, stop,
    hclose, rfl⟩

/-- Characters other than the closing one, at least one of them, lead over what is enclosed. -/
theorem Pattern.leads_enclosed_iff {c : Char} :
    (sequence [literal opener, many1 (set (.noneOf [c])), literal [c]]).Leads place stop ↔
      ∃ text, place.Passes text stop ∧ Enclosed opener [c] text stop.rest ∧
        text ≠ opener ++ [c] := by
  rw [leads_sequence]
  constructor
  · rintro ⟨p, hopener, q, hmany, r, hclose, rfl⟩
    obtain ⟨inner, hne, hmem, hinner⟩ := leads_many1_set_iff.1 hmany
    refine ⟨opener ++ (inner ++ [c]), hopener.trans (hinner.trans hclose), ⟨inner, rfl, ?_⟩, ?_⟩
    · refine FirstClose.singleton_iff.2 ⟨List.prefix_append _ _, fun hin => ?_⟩
      simpa [CharSet.mem_noneOf] using hmem c hin
    · simpa using hne
  · rintro ⟨text, hpasses, ⟨inner, rfl, hfirst⟩, hne⟩
    obtain ⟨p, hopener, hbehind⟩ := Cursor.passes_append_iff.1 hpasses
    obtain ⟨q, hinner, hclose⟩ := Cursor.passes_append_iff.1 hbehind
    obtain ⟨-, hnot⟩ := FirstClose.singleton_iff.1 hfirst
    refine ⟨p, hopener, q, leads_many1_set_iff.2 ⟨inner, by simpa using hne, ?_, hinner⟩, stop,
      hclose, rfl⟩
    intro d hd
    rw [CharSet.mem_noneOf, List.mem_singleton]
    rintro rfl
    exact hnot hd

end

/-! ## The matchers that find them -/

namespace Matcher

theorem EndsBy.imp {m : Matcher} {R S : Cursor → Cursor → Prop} (h : m.EndsBy R)
    (himp : ∀ {place stop}, R place stop → S place stop) : m.EndsBy S :=
  fun _ _ _ hrun => himp (h hrun)

theorem endsBy_runAfter (opener : List Char) (s : CharSet) :
    (cat (ofText opener) (span true s)).EndsBy fun place stop =>
      ∃ text, place.Passes text stop ∧ RunAfter opener s text stop.rest := by
  refine ((endsBy_span s).cat (ofText opener)).imp ?_
  rintro place stop ⟨middle, hopener, run, hrun, hruns⟩
  rw [ofText_leads] at hopener
  exact ⟨opener ++ run, hopener.trans hrun, run, rfl, hruns⟩

theorem endsBy_nameAfter (opener : List Char) (first s : CharSet) :
    (cat (ofText opener) (cat (set first) (span true s))).EndsBy fun place stop =>
      ∃ text, place.Passes text stop ∧ NameAfter opener first s text stop.rest := by
  refine (((endsBy_span s).cat (set first)).cat (ofText opener)).imp ?_
  rintro place stop ⟨p, hopener, q, hchar, run, hrun, hruns⟩
  rw [ofText_leads] at hopener
  obtain ⟨c, hc, hpasses⟩ := CharSet.steps_iff.1 hchar
  exact ⟨opener ++ [c] ++ run, (hopener.trans hpasses).trans hrun, c, hc, run, rfl, hruns⟩

theorem endsBy_enclosed (opener close : List Char) (s : CharSet) :
    (cat (ofText opener) (cat (span false s) (ofText close))).EndsBy fun place stop =>
      ∃ text, place.Passes text stop ∧ Enclosed opener close text stop.rest := by
  refine ((endsBy_span_ofText s close).cat (ofText opener)).imp ?_
  rintro place stop ⟨middle, hopener, inner, hclose, hinner⟩
  rw [ofText_leads] at hopener
  rw [hinner.rest_eq] at hclose
  exact ⟨opener ++ (inner ++ close), hopener.trans hinner, inner, rfl, hclose⟩

end Matcher

end CodeMarkup
