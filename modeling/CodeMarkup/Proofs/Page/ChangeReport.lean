import CodeMarkup.Proofs.Page.ActiveLink

/-!
# What a tracker reports

A tracker reports changes only.  The reports of a whole run still tell everything: whoever has heard
them knows of each section whether it intersects the band now.

* `PageLayout.Changes` — a section whose state a look has to report.
* `ReportedAs` — entries that tell each change once, from the top of the page on.
* `Tracker.entries_reportedAs` — what one look reports.
* `Tracker.watch` — what a run reports; `LastTold` is the last word on a section.
* `watch_tells_changes` — each look reports what has changed, and the last word on each section is
  its state now.
-/

namespace CodeMarkup

/-! ## Changes between two looks -/

namespace PageLayout

variable {band : Band} {layout before : PageLayout} {index : Nat}

/-- Whether the section at an index intersects the band, if there is one. -/
def state? (band : Band) (layout : PageLayout) (index : Nat) : Option Bool :=
  (layout.flags band)[index]?

/-- What there is to report of the section at an index. -/
def entryAt? (band : Band) (layout : PageLayout) (index : Nat) : Option SectionEntry :=
  layout.sections[index]?.map fun bounds =>
    ⟨bounds.id?, band.isIntersecting bounds layout.height⟩

/-- The section at an index has another state than the one at that index before, or the number of
sections is another one. -/
def Changes (band : Band) (layout before : PageLayout) (index : Nat) : Prop :=
  index < layout.sections.length ∧
    (layout.sections.length ≠ before.sections.length ∨
      layout.state? band index ≠ before.state? band index)

theorem length_flags (band : Band) (layout : PageLayout) :
    (layout.flags band).length = layout.sections.length := by
  rw [flags, List.length_map]

theorem state?_eq_map (band : Band) (layout : PageLayout) (index : Nat) :
    layout.state? band index = (layout.entryAt? band index).map SectionEntry.intersecting := by
  simp [state?, flags, entryAt?, Function.comp_def]

theorem lt_of_entryAt? {entry : SectionEntry} (h : layout.entryAt? band index = some entry) :
    index < layout.sections.length := by
  obtain ⟨bounds, hbounds, -⟩ := Option.map_eq_some_iff.1 h
  exact (List.getElem?_eq_some_iff.1 hbounds).1

/-- If nothing changes, the section at an index keeps its state. -/
theorem state?_eq_of_not_changes (h : ¬ layout.Changes band before index) :
    index < layout.sections.length → layout.sections.length = before.sections.length ∧
      layout.state? band index = before.state? band index := by
  intro hlt
  by_contra hne
  exact h ⟨hlt, not_and_or.1 hne⟩

end PageLayout

/-- Entries that report the changes between two looks: from the top of the page on, one for each
section that has changed.  In `reports` each of them comes with the index of its section. -/
structure ReportedAs (band : Band) (layout before : PageLayout) (entries : List SectionEntry)
    (reports : List (Nat × SectionEntry)) : Prop where
  entries_eq : entries = reports.map Prod.snd
  ascending : reports.Pairwise fun report later => report.1 < later.1
  mem_iff : ∀ index entry, (index, entry) ∈ reports ↔
    layout.Changes band before index ∧ layout.entryAt? band index = some entry

/-- A look at a page that has stayed as it was reports nothing. -/
theorem ReportedAs.eq_nil {band : Band} {layout : PageLayout} {entries : List SectionEntry}
    {reports : List (Nat × SectionEntry)} (h : ReportedAs band layout layout entries reports) :
    entries = [] := by
  have hnone : reports = [] := by
    rw [List.eq_nil_iff_forall_not_mem]
    rintro ⟨index, entry⟩ hmem
    obtain ⟨⟨-, hchange⟩, -⟩ := (h.mem_iff index entry).1 hmem
    simp at hchange
  rw [h.entries_eq, hnone]
  rfl

/-! ## One look -/

namespace Tracker

variable {tracker : Tracker} {before layout : PageLayout} {index : Nat} {entry : SectionEntry}
  {flag : Bool}

/-- Whether a look reports a section that is compared. -/
def isReported (tracker : Tracker) (layout : PageLayout) (pair : SectionEntry × Bool) : Bool :=
  tracker.intersecting.length != layout.sections.length || pair.1.intersecting != pair.2

theorem entries_snd (tracker : Tracker) (layout : PageLayout) :
    (tracker.entries layout.sections layout.height).2 =
      ((tracker.compared layout).filter (tracker.isReported layout)).map Prod.fst := rfl

theorem compared_eq_some_iff :
    (tracker.compared layout)[index]? = some (entry, flag) ↔
      layout.entryAt? tracker.band index = some entry ∧
        (tracker.known layout)[index]? = some flag := by
  rw [compared, List.getElem?_zip_eq_some, List.getElem?_map]
  rfl

/-- The sections that a look reports are those that have changed. -/
theorem isReported_iff (hremembers : tracker.Remembers before)
    (hpair : (tracker.compared layout)[index]? = some (entry, flag)) :
    tracker.isReported layout (entry, flag) = true ↔
      layout.Changes tracker.band before index := by
  obtain ⟨hentry, hflag⟩ := compared_eq_some_iff.1 hpair
  have hlt := PageLayout.lt_of_entryAt? hentry
  have hlength : tracker.intersecting.length = before.sections.length := by
    rw [hremembers, PageLayout.length_flags]
  have hnow : layout.state? tracker.band index = some entry.intersecting := by
    rw [PageLayout.state?_eq_map, hentry, Option.map_some]
  rw [PageLayout.Changes, and_iff_right hlt]
  by_cases hsame : layout.sections.length = before.sections.length
  · -- the tracker knows the state of each section at the look before
    have hbefore : before.state? tracker.band index = some flag := by
      rw [known, if_neg (by simp [hlength, hsame]), hremembers] at hflag
      exact hflag
    simp [isReported, hlength, hsame, hnow, hbefore]
  · simp [isReported, hlength, hsame, Ne.symm hsame]

/-- **One look reports what has changed.** -/
theorem entries_reportedAs (hremembers : tracker.Remembers before) (layout : PageLayout) :
    ∃ reports, ReportedAs tracker.band layout before
      (tracker.entries layout.sections layout.height).2 reports := by
  -- each section that is compared, with its index
  let numbered := (tracker.compared layout).zipIdx
  let reported := numbered.filter fun numbered => tracker.isReported layout numbered.1
  refine ⟨reported.map fun numbered => (numbered.2, numbered.1.1), ?_, ?_, ?_⟩
  · have hfst : reported.map Prod.fst =
        (tracker.compared layout).filter (tracker.isReported layout) := by
      conv_rhs => rw [← List.zipIdx_map_fst 0 (tracker.compared layout), List.filter_map]
      rfl
    rw [entries_snd, ← hfst, List.map_map, List.map_map]
    rfl
  · have hnumbered : numbered.Pairwise fun pair later => pair.2 < later.2 := by
      rw [← List.pairwise_map (f := Prod.snd), List.zipIdx_map_snd]
      exact List.pairwise_lt_range' 1
    rw [List.pairwise_map]
    exact hnumbered.filter _
  · intro index entry
    have hmem : (index, entry) ∈ reported.map (fun numbered => (numbered.2, numbered.1.1)) ↔
        ∃ flag, (tracker.compared layout)[index]? = some (entry, flag) ∧
          tracker.isReported layout (entry, flag) = true := by
      simp [reported, numbered, List.mem_zipIdx_iff_getElem?]
    rw [hmem]
    constructor
    · rintro ⟨flag, hpair, hreported⟩
      exact ⟨(isReported_iff hremembers hpair).1 hreported, (compared_eq_some_iff.1 hpair).1⟩
    · rintro ⟨hchanges, hentry⟩
      have hlt : index < (tracker.known layout).length := by
        rw [length_known]
        exact hchanges.1
      have hpair := compared_eq_some_iff.2 ⟨hentry, List.getElem?_eq_getElem hlt⟩
      exact ⟨_, hpair, (isReported_iff hremembers hpair).2 hchanges⟩

/-! ## Whole runs -/

/-- What a tracker reports at each of several looks. -/
def watch (tracker : Tracker) : List PageLayout → List (List SectionEntry)
  | [] => []
  | layout :: layouts =>
    (tracker.entries layout.sections layout.height).2 ::
      (tracker.entries layout.sections layout.height).1.watch layouts

theorem length_watch (tracker : Tracker) (layouts : List PageLayout) :
    (tracker.watch layouts).length = layouts.length := by
  induction layouts generalizing tracker with
  | nil => rfl
  | cons layout layouts ih => rw [watch, List.length_cons, List.length_cons, ih]

/-- Each look of a run reports what has changed since the look before. -/
theorem watch_reportedAs {layouts : List PageLayout} (hremembers : tracker.Remembers before)
    {look : Nat} {previous : PageLayout} (hprevious : (before :: layouts)[look]? = some previous)
    (hlayout : layouts[look]? = some layout) :
    ∃ entries reports, (tracker.watch layouts)[look]? = some entries ∧
      ReportedAs tracker.band layout previous entries reports := by
  induction layouts generalizing tracker before look with
  | nil => simp at hlayout
  | cons first layouts ih =>
    cases look with
    | zero =>
      obtain rfl : before = previous := by simpa using hprevious
      obtain rfl : first = layout := by simpa using hlayout
      obtain ⟨reports, hreports⟩ := entries_reportedAs hremembers first
      exact ⟨_, reports, rfl, hreports⟩
    | succ look =>
      have hnext : (tracker.entries first.sections first.height).1.Remembers first := by
        rw [entries_fst]
        rfl
      have hband : (tracker.entries first.sections first.height).1.band = tracker.band := rfl
      rw [← hband]
      exact ih hnext hprevious hlayout

end Tracker

section

variable {band : Band} {layouts : List PageLayout} {layout : PageLayout} {look index : Nat}
  {entry : SectionEntry}

/-- Each look of a run by a new tracker reports what has changed. -/
theorem LooksAt.reportedAs (band : Band) {before : PageLayout}
    (h : LooksAt layouts look before layout) :
    ∃ entries reports, (Tracker.watch { band := band } layouts)[look]? = some entries ∧
      ReportedAs band layout before entries reports := by
  have hremembers : Tracker.Remembers { band := band } {} := rfl
  exact Tracker.watch_reportedAs hremembers h.1 h.2

/-- A look reports the section at an index with an entry. -/
def Told (band : Band) (layouts : List PageLayout) (look index : Nat) (entry : SectionEntry) :
    Prop :=
  ∃ before layout entries reports, LooksAt layouts look before layout ∧
    (Tracker.watch { band := band } layouts)[look]? = some entries ∧
    ReportedAs band layout before entries reports ∧ (index, entry) ∈ reports

/-- A look finds another number of sections than the look before it. -/
def Recounts (layouts : List PageLayout) (look : Nat) : Prop :=
  ∃ before layout, LooksAt layouts look before layout ∧
    layout.sections.length ≠ before.sections.length

/-- The last entry for the section at an index: no later look reports that section or finds another
number of sections. -/
structure LastTold (band : Band) (layouts : List PageLayout) (look index : Nat)
    (entry : SectionEntry) : Prop where
  told : Told band layouts look index entry
  latest : ∀ later entry', Told band layouts later index entry' → later ≤ look
  counted : ∀ later, Recounts layouts later → later ≤ look

/-- What a look tells, said of the two layouts. -/
theorem told_iff :
    Told band layouts look index entry ↔
      ∃ before layout, LooksAt layouts look before layout ∧
        layout.Changes band before index ∧ layout.entryAt? band index = some entry := by
  constructor
  · rintro ⟨before, layout, entries, reports, hlook, -, hreports, hmem⟩
    exact ⟨before, layout, hlook, (hreports.mem_iff index entry).1 hmem⟩
  · rintro ⟨before, layout, hlook, hchanges⟩
    obtain ⟨entries, reports, hentries, hreports⟩ := hlook.reportedAs band
    exact ⟨before, layout, entries, reports, hlook, hentries, hreports,
      (hreports.mem_iff index entry).2 hchanges⟩

/-- What one more look tells. -/
theorem told_concat :
    Told band (layouts ++ [layout]) look index entry ↔
      Told band layouts look index entry ∨
        look = layouts.length ∧ layout.Changes band (lastLayout layouts) index ∧
          layout.entryAt? band index = some entry := by
  rw [told_iff, told_iff]
  exact exists_looksAt_concat

theorem recounts_concat :
    Recounts (layouts ++ [layout]) look ↔
      Recounts layouts look ∨
        look = layouts.length ∧ layout.sections.length ≠ (lastLayout layouts).sections.length :=
  exists_looksAt_concat

theorem Told.lt (h : Told band layouts look index entry) : look < layouts.length := by
  obtain ⟨before, layout, hlook, -⟩ := told_iff.1 h
  exact hlook.lt

theorem Recounts.lt (h : Recounts layouts look) : look < layouts.length := by
  obtain ⟨before, layout, hlook, -⟩ := h
  exact hlook.lt

/-- A look that reports a section has the last word on it. -/
theorem lastTold_concat (hchanges : layout.Changes band (lastLayout layouts) index)
    (hentry : layout.entryAt? band index = some entry) :
    LastTold band (layouts ++ [layout]) layouts.length index entry where
  told := told_concat.2 (.inr ⟨rfl, hchanges, hentry⟩)
  latest := by
    intro later entry' htold
    have := htold.lt
    simp at this
    omega
  counted := by
    intro later hcount
    have := hcount.lt
    simp at this
    omega

/-- A look that has nothing to report of a section leaves the last word as it was. -/
theorem LastTold.concat (h : LastTold band layouts look index entry)
    (hsame : ¬ layout.Changes band (lastLayout layouts) index)
    (hcount : layout.sections.length = (lastLayout layouts).sections.length) :
    LastTold band (layouts ++ [layout]) look index entry where
  told := told_concat.2 (.inl h.told)
  latest := by
    intro later entry' htold
    rcases told_concat.1 htold with hbefore | ⟨-, hchanges, -⟩
    · exact h.latest later entry' hbefore
    · exact absurd hchanges hsame
  counted := by
    intro later hlater
    rcases recounts_concat.1 hlater with hbefore | ⟨-, hother⟩
    · exact h.counted later hbefore
    · exact absurd hcount hother

/-- **The last word on a section is its state now.** -/
theorem exists_lastTold (band : Band) (layouts : List PageLayout) {index : Nat} {value : Bool}
    (hvalue : (lastLayout layouts).state? band index = some value) :
    ∃ look entry, LastTold band layouts look index entry ∧ entry.intersecting = value := by
  induction layouts using List.reverseRecOn with
  | nil => simp [lastLayout, PageLayout.state?, PageLayout.flags] at hvalue
  | append_singleton layouts layout ih =>
    rw [lastLayout_concat, PageLayout.state?_eq_map, Option.map_eq_some_iff] at hvalue
    obtain ⟨entry, hentry, rfl⟩ := hvalue
    by_cases hchanges : layout.Changes band (lastLayout layouts) index
    · exact ⟨layouts.length, entry, lastTold_concat hchanges hentry, rfl⟩
    · obtain ⟨hcount, hstate⟩ :=
        PageLayout.state?_eq_of_not_changes hchanges (PageLayout.lt_of_entryAt? hentry)
      have hbefore : (lastLayout layouts).state? band index = some entry.intersecting := by
        rw [← hstate, PageLayout.state?_eq_map, hentry, Option.map_some]
      obtain ⟨look, told, htold, hvalue⟩ := ih hbefore
      exact ⟨look, told, htold.concat hchanges hcount, hvalue⟩

/-- **A tracker reports the changes, all of them and nothing else.**  Each look of a run reports, in
order and once each, the sections at the indices whose state differs from that at the look before,
and all sections if their number differs; each entry has the anchor and the state of its section at
that look.  So at any time the last entry for the section at an index, which is as late as the last
change of their number, tells its state now.  A look at a page that has stayed as it was reports
nothing. -/
theorem watch_tells_changes (band : Band) (layouts : List PageLayout) :
    let told := Tracker.watch { band := band } layouts
    told.length = layouts.length ∧
      (∀ look before layout, LooksAt layouts look before layout →
        ∃ entries reports, told[look]? = some entries ∧
          ReportedAs band layout before entries reports) ∧
      (∀ index value, (lastLayout layouts).state? band index = some value →
        ∃ look entry, LastTold band layouts look index entry ∧ entry.intersecting = value) ∧
      ∀ look layout, LooksAt layouts look layout layout → told[look]? = some [] := by
  intro told
  refine ⟨Tracker.length_watch _ layouts, fun look before layout hlook => hlook.reportedAs band,
    fun index value hvalue => exists_lastTold band layouts hvalue, ?_⟩
  intro look layout hlook
  obtain ⟨entries, reports, hentries, hreports⟩ := hlook.reportedAs band
  rw [← hreports.eq_nil]
  exact hentries

end

end CodeMarkup
