import CodeMarkup.Language.Basic
import CodeMarkup.Proofs.Pattern.Complete
import CodeMarkup.Proofs.Pattern.FirstMatch
import CodeMarkup.Proofs.Pattern.Repeated

/-!
# Where preferred matches end

Where a pattern leads is not always one place: a greedy span of characters could stop at any of
them, and a lazy one could go on.  Which end is preferred shows when nothing can fail any more
behind the part in question, that is, at the end of the pattern.

* `Matcher.EndsBy` — how a match ends if whatever follows succeeds; it is built up from the parts.
* `CharSet.Runs` — a greedy span at the end runs as far as its characters go.
* `FirstClose` — a lazy span before a closing text ends at the first one.
* `Pattern.tokenAt?_eq_some_iff_of_unique` — a pattern whose matches end by a relation that leaves
  one place has its tokens exactly there.
-/

namespace CodeMarkup

variable {place further stop beyond : Cursor}

/-! ## Runs of characters -/

/-- A text goes as far as characters of a set go: it is made of them, and none follows. -/
structure CharSet.Runs (s : CharSet) (text behind : List Char) : Prop where
  /-- Every character belongs to the set. -/
  mem : ∀ c ∈ text, s.mem c = true
  /-- The one behind them does not. -/
  ends : behind.head?.any s.mem = false

namespace CharSet.Runs

variable {s : CharSet} {text behind : List Char}

/-- Where there is no character of the set, a run is over. -/
theorem nil (h : behind.head?.any s.mem = false) : s.Runs [] behind := ⟨by simp, h⟩

theorem cons {c : Char} (h : s.Runs text behind) (hmem : s.mem c = true) :
    s.Runs (c :: text) behind :=
  ⟨List.forall_mem_cons.2 ⟨hmem, h.mem⟩, h.ends⟩

theorem takeWhile_eq (h : s.Runs text behind) : (text ++ behind).takeWhile s.mem = text := by
  have hbehind : behind.takeWhile s.mem = [] := by
    have hends := h.ends
    cases behind with
    | nil => rfl
    | cons c rest =>
      have hc : s.mem c = false := by simpa using hends
      simp [hc]
  rw [List.takeWhile_append_of_pos h.mem, hbehind, List.append_nil]

/-- More text behind a run does not change it, if it begins with no character of the set. -/
theorem append (h : s.Runs text behind) {more : List Char} (hmore : more.head?.any s.mem = false) :
    s.Runs text (behind ++ more) := by
  refine ⟨h.mem, ?_⟩
  have hends := h.ends
  cases behind with
  | nil => exact hmore
  | cons c rest => exact hends

/-- In front of every text stands a run. -/
theorem exists_of (s : CharSet) (text : List Char) :
    ∃ run behind, text = run ++ behind ∧ s.Runs run behind := by
  induction text with
  | nil => exact ⟨[], [], rfl, .nil rfl⟩
  | cons c text ih =>
    by_cases hmem : s.mem c = true
    · obtain ⟨run, behind, rfl, hruns⟩ := ih
      exact ⟨c :: run, behind, rfl, hruns.cons hmem⟩
    · exact ⟨[], c :: text, rfl, .nil (by simpa using hmem)⟩

/-- A run is determined. -/
theorem unique {other beyond : List Char} (heq : text ++ behind = other ++ beyond)
    (h : s.Runs text behind) (h' : s.Runs other beyond) : text = other := by
  rw [← h.takeWhile_eq, heq, h'.takeWhile_eq]

end CharSet.Runs

/-! ## The first closing text -/

/-- Of the places in a text where a closing text stands, the one behind `inner` is the first. -/
structure FirstClose (close text inner : List Char) : Prop where
  closes : inner ++ close <+: text
  first : ∀ before, before ++ close <+: text → inner <+: before

namespace FirstClose

variable {close text inner : List Char}

theorem nil (h : close <+: text) : FirstClose close text [] :=
  ⟨h, fun _ _ => List.nil_prefix⟩

theorem cons {c : Char} (hnot : ¬ close <+: c :: text) (h : FirstClose close text inner) :
    FirstClose close (c :: text) (c :: inner) where
  closes := List.cons_prefix_cons.2 ⟨rfl, h.closes⟩
  first := by
    intro before hbefore
    cases before with
    | nil => exact absurd hbefore hnot
    | cons d before =>
      obtain ⟨rfl, hrest⟩ := List.cons_prefix_cons.1 hbefore
      exact List.cons_prefix_cons.2 ⟨rfl, h.first before hrest⟩

/-- There is one first closing text at most. -/
theorem unique {other : List Char} (h : FirstClose close text inner)
    (h' : FirstClose close text other) : inner = other := by
  have hle := (h.first other h'.closes).length_le
  exact (h.first other h'.closes).eq_of_length_le (h'.first inner h.closes).length_le

/-- More text behind the first closing text does not change it. -/
theorem append (h : FirstClose close text inner) (more : List Char) :
    FirstClose close (text ++ more) inner where
  closes := h.closes.trans (List.prefix_append text more)
  first := by
    intro before hbefore
    rcases List.prefix_or_prefix_of_prefix hbefore (List.prefix_append text more) with hle | hge
    · exact h.first before hle
    · -- another closing text that is not in the text comes later
      have hlength := (h.closes.trans hge).length_le
      simp only [List.length_append, Nat.add_le_add_iff_right] at hlength
      have hinner : inner <+: text ++ more :=
        ((List.prefix_append inner close).trans h.closes).trans (List.prefix_append text more)
      exact List.prefix_of_prefix_length_le hinner
        ((List.prefix_append before close).trans hbefore) hlength

/-- A closing text that stands somewhere in a text stands somewhere first. -/
theorem exists_of_infix (h : close <:+: text) : ∃ inner, FirstClose close text inner := by
  induction text with
  | nil =>
    obtain rfl : close = [] := List.infix_nil.1 h
    exact ⟨[], .nil (List.prefix_refl [])⟩
  | cons c text ih =>
    by_cases hhere : close <+: c :: text
    · exact ⟨[], .nil hhere⟩
    · rcases List.infix_cons_iff.1 h with hprefix | hrest
      · exact absurd hprefix hhere
      · obtain ⟨inner, hinner⟩ := ih hrest
        exact ⟨c :: inner, hinner.cons hhere⟩

/-- The first closing character is the one with none before it. -/
theorem singleton_iff {c : Char} :
    FirstClose [c] text inner ↔ inner ++ [c] <+: text ∧ c ∉ inner := by
  constructor
  · intro h
    refine ⟨h.closes, fun hmem => ?_⟩
    obtain ⟨before, after, rfl, -⟩ := List.eq_append_cons_of_mem hmem
    have hbefore : before ++ [c] <+: text :=
      List.IsPrefix.trans ⟨after ++ [c], by simp⟩ h.closes
    have hlength := (h.first before hbefore).length_le
    simp only [List.length_append, List.length_cons] at hlength
    omega
  · rintro ⟨hcloses, hnot⟩
    refine ⟨hcloses, fun before hbefore => ?_⟩
    have hinner : inner <+: text := List.IsPrefix.trans (List.prefix_append inner [c]) hcloses
    rcases List.prefix_or_prefix_of_prefix hbefore hinner with hle | hge
    · exact absurd (hle.subset (by simp)) hnot
    · rcases List.prefix_concat_iff.1 hge with heq | hle
      · exact absurd (heq ▸ by simp) hnot
      · exact hle

end FirstClose

/-! ## How matches end -/

namespace Matcher

/-- If whatever follows succeeds, a match of a matcher ends where a relation says. -/
def EndsBy (m : Matcher) (R : Cursor → Cursor → Prop) : Prop :=
  ∀ ⦃place passed stop⦄, m.run place passed (fun stop _ => .found stop) = .found stop →
    R place stop

variable {m n : Matcher} {R S : Cursor → Cursor → Prop}

theorem EndsBy.of_matchAt? (h : m.EndsBy R) (hmatch : m.matchAt? place = some stop) :
    R place stop := by
  simp only [matchAt?] at hmatch
  split at hmatch
  · rename_i stop' hrun
    obtain rfl : stop' = stop := Option.some.inj hmatch
    exact h hrun
  · cases hmatch

/-- Every match ends where its matcher leads. -/
theorem endsBy_leads (m : Matcher) : m.EndsBy m.Leads := by
  intro place passed stop hrun
  obtain ⟨place', passed', hleads, hstop⟩ := run_goesBy m hrun
  cases hstop
  exact hleads

/-- The end of two matchers in a row is decided by the second one. -/
theorem EndsBy.cat (m : Matcher) (h : n.EndsBy R) :
    (cat m n).EndsBy fun p q => ∃ r, m.Leads p r ∧ R r q := by
  intro place passed stop hrun
  obtain ⟨place', passed', hleads, hrest⟩ := run_goesBy m hrun
  exact ⟨place', hleads, h hrest⟩

theorem EndsBy.alt (hm : m.EndsBy R) (hn : n.EndsBy S) :
    (alt m n).EndsBy fun p q => R p q ∨ S p q := by
  intro place passed stop hrun
  rcases Attempt.orElse_eq_found.1 hrun with hfirst | ⟨passed', -, hsecond⟩
  · exact .inl (hm hfirst)
  · exact .inr (hn hsecond)

/-- A greedy span never fails by itself, and it runs as far as its characters go. -/
theorem spans_greedy (s : CharSet) (passed : Passed) (place : Cursor) :
    ∃ text stop, place.Passes text stop ∧ s.Runs text stop.rest ∧
      spans s true (fun stop _ => .found stop) place.offset place.prev? place.rest passed =
        .found stop := by
  obtain ⟨offset, prev?, text⟩ := place
  induction text generalizing offset prev? with
  | nil => exact ⟨[], _, .refl _, .nil rfl, rfl⟩
  | cons c rest ih =>
    by_cases hmem : s.mem c = true
    · obtain ⟨text, stop, hpasses, hruns, hfound⟩ := ih (offset + c.utf8Size) (some c)
      refine ⟨c :: text, stop, (Cursor.Passes.after rfl).trans hpasses, hruns.cons hmem, ?_⟩
      simp only [spans, hmem, if_true]
      rw [show spans s true (fun stop _ => .found stop) (offset + c.utf8Size) (some c) rest passed =
        .found stop from hfound]
      rfl
    · refine ⟨[], _, .refl _, .nil (by simpa using hmem), ?_⟩
      simp [spans, hmem]

theorem endsBy_span (s : CharSet) :
    (span true s).EndsBy fun p q => ∃ text, p.Passes text q ∧ s.Runs text q.rest := by
  intro place passed stop hrun
  obtain ⟨text, stop', hpasses, hruns, hfound⟩ := spans_greedy s passed place
  rw [run, hfound] at hrun
  cases hrun
  exact ⟨text, hpasses, hruns⟩

theorem run_single (c : Char) (place : Cursor) (passed : Passed) (next : Continuation) :
    (∃ further, place.Passes [c] further ∧
      (set (.single c)).run place passed next = next further passed) ∨
    ¬ [c] <+: place.rest ∧ (set (.single c)).run place passed next = .failed passed := by
  cases hrest : place.rest with
  | nil => exact .inr ⟨by simp, by simp [run, hrest]⟩
  | cons d rest =>
    by_cases hmem : (CharSet.single c).mem d = true
    · obtain rfl := CharSet.mem_single_iff.1 hmem
      exact .inl ⟨place.after d rest, .after hrest, by simp [run, hrest, hmem]⟩
    · refine .inr ⟨?_, by simp [run, hrest, hmem]⟩
      intro hprefix
      obtain ⟨rfl, -⟩ := List.cons_prefix_cons.1 hprefix
      exact hmem (CharSet.mem_single_iff.2 rfl)

/-- A text is matched where it stands, and where it does not no mark is passed. -/
theorem run_ofText (word : List Char) (place : Cursor) (passed : Passed) (next : Continuation) :
    (∃ further, place.Passes word further ∧
      (ofText word).run place passed next = next further passed) ∨
    ¬ word <+: place.rest ∧ (ofText word).run place passed next = .failed passed := by
  fun_induction ofText word generalizing place with
  | case1 => exact .inl ⟨place, .refl place, rfl⟩
  | case2 c => exact run_single c place passed next
  | case3 c word hne ih =>
    have hcat : (cat (set (.single c)) (ofText word)).run place passed next =
        (set (.single c)).run place passed
          (fun middle passed => (ofText word).run middle passed next) := rfl
    rw [hcat]
    rcases run_single c place passed fun middle passed => (ofText word).run middle passed next with
      ⟨middle, hc, hrun⟩ | ⟨hnot, hrun⟩
    · rcases ih middle with ⟨further, hword, hrest⟩ | ⟨hnot, hrest⟩
      · exact .inl ⟨further, hc.trans hword, hrun.trans hrest⟩
      · refine .inr ⟨?_, hrun.trans hrest⟩
        rw [hc.rest_eq]
        intro hprefix
        exact hnot (List.cons_prefix_cons.1 hprefix).2
    · refine .inr ⟨?_, hrun⟩
      rintro ⟨more, hmore⟩
      exact hnot ⟨word ++ more, hmore⟩

/-- A lazy span before a closing text stops at the first one. -/
theorem spans_lazy_ofText {s : CharSet} {close : List Char} {passed : Passed} {place stop : Cursor}
    (h : spans s false (fun place passed =>
      (ofText close).run place passed fun stop _ => .found stop)
      place.offset place.prev? place.rest passed = .found stop) :
    ∃ inner, FirstClose close place.rest inner ∧ place.Passes (inner ++ close) stop := by
  -- where the closing text stands at a place, nothing is passed before it
  have hhere : ∀ {place passed}, (ofText close).run place passed (fun stop _ => .found stop) =
      .found stop → FirstClose close place.rest [] ∧ place.Passes close stop := by
    intro place passed hrun
    rcases run_ofText close place passed fun stop _ => .found stop with
      ⟨further, hpasses, hfound⟩ | ⟨-, hfailed⟩
    · obtain rfl : further = stop := by simpa [hfound] using hrun
      exact ⟨.nil ⟨further.rest, hpasses.rest_eq.symm⟩, hpasses⟩
    · simp [hfailed] at hrun
  obtain ⟨offset, prev?, text⟩ := place
  induction text generalizing offset prev? passed with
  | nil => exact ⟨[], hhere h⟩
  | cons c rest ih =>
    by_cases hmem : s.mem c = true
    · simp only [spans, hmem, if_true, Bool.false_eq_true, if_false] at h
      rcases Attempt.orElse_eq_found.1 h with hfound | ⟨passed', hfailed, hlater⟩
      · exact ⟨[], hhere hfound⟩
      · obtain ⟨inner, hfirst, hpasses⟩ := ih (offset + c.utf8Size) (some c) hlater
        refine ⟨c :: inner, hfirst.cons ?_, (Cursor.Passes.after rfl).trans hpasses⟩
        rcases run_ofText close ⟨offset, prev?, c :: rest⟩ passed fun stop _ => .found stop with
          ⟨further, -, hfound⟩ | ⟨hnot, -⟩
        · simp [hfound] at hfailed
        · exact hnot
    · simp only [spans, hmem, Bool.false_eq_true, if_false] at h
      exact ⟨[], hhere h⟩

theorem endsBy_span_ofText (s : CharSet) (close : List Char) :
    (Matcher.cat (span false s) (ofText close)).EndsBy fun p q =>
      ∃ inner, FirstClose close p.rest inner ∧ p.Passes (inner ++ close) q :=
  fun _ _ _ hrun => spans_lazy_ofText hrun

end Matcher

/-! ## Tokens -/

theorem Pattern.leads_of_tokenAt? {p : Pattern}
    (h : (Matcher.ofPattern p).tokenAt? place = some stop) : p.Leads place stop :=
  leads_of_matchAt? (Matcher.tokenAt?_eq_some_iff.1 h).1

/-- **A pattern has its tokens where its matches end**, if its matches end by a relation that leaves
one place, by which the pattern leads, and which consumes something. -/
theorem Pattern.tokenAt?_eq_some_iff_of_unique {p : Pattern} {R : Cursor → Cursor → Prop}
    (hends : (Matcher.ofPattern p).EndsBy R)
    (hleads : ∀ {place stop}, R place stop → p.Leads place stop)
    (hunique : ∀ {place stop beyond}, R place stop → R place beyond → stop = beyond)
    (hlt : ∀ {place stop}, R place stop → place.offset < stop.offset) :
    (Matcher.ofPattern p).tokenAt? place = some stop ↔ R place stop := by
  rw [Matcher.tokenAt?_eq_some_iff]
  constructor
  · rintro ⟨hmatch, -⟩
    exact hends.of_matchAt? hmatch
  · intro hstop
    cases hmatch : (Matcher.ofPattern p).matchAt? place with
    | none => exact absurd (hleads hstop) (Pattern.matchAt?_eq_none_iff.1 hmatch stop)
    | some found =>
      obtain rfl : found = stop := hunique (hends.of_matchAt? hmatch) hstop
      exact ⟨rfl, hlt hstop⟩

theorem Pattern.endsBy_leads (p : Pattern) : (Matcher.ofPattern p).EndsBy p.Leads := by
  rw [← Matcher.ofPattern_leads]
  exact Matcher.endsBy_leads _

/-- A pattern that leads from a place to one place at most, and further on, has its tokens where it
leads. -/
theorem Pattern.tokenAt?_eq_some_iff_of_leads {p : Pattern} {R : Cursor → Cursor → Prop}
    (hleads : ∀ {place stop}, p.Leads place stop ↔ R place stop)
    (hunique : ∀ {place stop beyond}, R place stop → R place beyond → stop = beyond)
    (hlt : ∀ {place stop}, R place stop → place.offset < stop.offset) :
    (Matcher.ofPattern p).tokenAt? place = some stop ↔ R place stop := by
  refine tokenAt?_eq_some_iff_of_unique ?_ hleads.2 hunique hlt
  intro place passed stop hrun
  exact hleads.1 (endsBy_leads p hrun)

end CodeMarkup
