import CodeMarkup.Proofs.Page.ChangeReport

/-!
# A section that enters the band

A tracker compares what stands at an index with what stood there before.  So it sees a section enter
the band, unless the section takes the place of another one that was in the band already, on a page
with as many sections as before.  Then nothing is reported.

* `PageLayout.Presents` — a section with an anchor is in the band.
* `PageLayout.TakesPlace` — a section stands where another one was in the band.
* `arrival_told_iff` — an arrival is reported exactly if the section takes no such place.
* `arrival_untold` — a page on which the only section is exchanged for another one.
-/

namespace CodeMarkup

namespace PageLayout

variable {band : Band} {layout before : PageLayout} {index : Nat} {id : String}

/-- The section with an anchor intersects the band. -/
def Presents (band : Band) (layout : PageLayout) (id : String) : Prop :=
  ∃ bounds ∈ layout.sections,
    bounds.id? = some id ∧ band.isIntersecting bounds layout.height = true

/-- No two sections of a page have the same anchor. -/
def DistinctIds (layout : PageLayout) : Prop :=
  (layout.sections.filterMap SectionBounds.id?).Nodup

/-- The section with an anchor stands at the index of another section that intersected the band
before, and there are as many sections as before. -/
def TakesPlace (band : Band) (layout before : PageLayout) (id : String) : Prop :=
  layout.sections.length = before.sections.length ∧
    ∃ (index : Nat) (bounds other : SectionBounds),
      layout.sections[index]? = some bounds ∧ bounds.id? = some id ∧
      before.sections[index]? = some other ∧ other.id? ≠ some id ∧
      band.isIntersecting other before.height = true

/-- An anchor tells the index of a section. -/
theorem DistinctIds.index_eq (h : layout.DistinctIds) {index' : Nat}
    {bounds bounds' : SectionBounds} (hbounds : layout.sections[index]? = some bounds)
    (hbounds' : layout.sections[index']? = some bounds') (hid : bounds.id? = some id)
    (hid' : bounds'.id? = some id) : index = index' := by
  obtain ⟨hlt, rfl⟩ := List.getElem?_eq_some_iff.1 hbounds
  obtain ⟨hlt', rfl⟩ := List.getElem?_eq_some_iff.1 hbounds'
  have hpairwise := List.pairwise_iff_getElem.1 (List.pairwise_filterMap.1 h)
  rcases Nat.lt_trichotomy index index' with hless | heq | hgreater
  · exact absurd rfl (hpairwise index index' hlt hlt' hless id hid id hid')
  · exact heq
  · exact absurd rfl (hpairwise index' index hlt' hlt hgreater id hid' id hid)

theorem entryAt?_eq_some_iff {entry : SectionEntry} :
    layout.entryAt? band index = some entry ↔
      ∃ bounds, layout.sections[index]? = some bounds ∧ bounds.id? = entry.id? ∧
        band.isIntersecting bounds layout.height = entry.intersecting := by
  obtain ⟨id?, intersecting⟩ := entry
  simp [entryAt?]

/-- Of a section in the band there is something to report exactly if it enters. -/
theorem changes_iff_enters (h : layout.Intersects band index) :
    layout.Changes band before index ↔ layout.Enters band before index := by
  have hlt : index < layout.sections.length := by
    obtain ⟨bounds, hbounds, -⟩ := h
    exact (List.getElem?_eq_some_iff.1 hbounds).1
  have hnow : layout.state? band index = some true := intersects_iff.1 h
  rw [Changes, Enters, and_iff_right hlt, and_iff_right h, intersects_iff, hnow]
  exact or_congr_right (not_congr eq_comm)

/-- What there is to report of the section with an anchor, if it is in the band: that it enters. -/
theorem DistinctIds.told_iff (h : layout.DistinctIds) {bounds : SectionBounds}
    (hbounds : layout.sections[index]? = some bounds) (hid : bounds.id? = some id)
    (hnow : band.isIntersecting bounds layout.height = true) :
    (∃ other, layout.Changes band before other ∧
        layout.entryAt? band other = some ⟨some id, true⟩) ↔
      layout.Enters band before index := by
  rw [← changes_iff_enters ⟨bounds, hbounds, hnow⟩]
  constructor
  · rintro ⟨other, hchanges, hentry⟩
    obtain ⟨bounds', hbounds', hid', -⟩ := entryAt?_eq_some_iff.1 hentry
    rw [h.index_eq hbounds hbounds' hid hid']
    exact hchanges
  · intro hchanges
    exact ⟨index, hchanges, entryAt?_eq_some_iff.2 ⟨bounds, hbounds, hid, hnow⟩⟩

/-- A section that was not in the band enters, unless it takes the place of one that was. -/
theorem DistinctIds.enters_iff (h : layout.DistinctIds) (hbefore : ¬ before.Presents band id)
    {bounds : SectionBounds} (hbounds : layout.sections[index]? = some bounds)
    (hid : bounds.id? = some id) (hnow : band.isIntersecting bounds layout.height = true) :
    layout.Enters band before index ↔ ¬ layout.TakesPlace band before id := by
  rw [Enters, and_iff_right ⟨bounds, hbounds, hnow⟩, ← not_and_or, not_iff_not]
  constructor
  · rintro ⟨hcount, other, hother, hintersects⟩
    refine ⟨hcount, index, bounds, other, hbounds, hid, hother, fun hsame => ?_, hintersects⟩
    exact hbefore ⟨other, List.mem_of_getElem? hother, hsame, hintersects⟩
  · rintro ⟨hcount, index', bounds', other, hbounds', hid', hother, -, hintersects⟩
    obtain rfl := h.index_eq hbounds hbounds' hid hid'
    exact ⟨hcount, other, hother, hintersects⟩

/-- Where the anchors stand as they stood before, no section takes the place of another one. -/
theorem not_takesPlace_of_ids_eq
    (h : layout.sections.map SectionBounds.id? = before.sections.map SectionBounds.id?) :
    ¬ layout.TakesPlace band before id := by
  rintro ⟨-, index, bounds, other, hbounds, hid, hother, hne, -⟩
  have hsame := congrArg (fun ids => ids[index]?) h
  simp only [List.getElem?_map, hbounds, hother, Option.map_some, hid] at hsame
  exact hne (Option.some.inj hsame).symm

end PageLayout

/-- Of the entries of a look one is that of a section, if it reports the section. -/
theorem ReportedAs.mem_entries_iff {band : Band} {layout before : PageLayout}
    {entries : List SectionEntry} {reports : List (Nat × SectionEntry)} {entry : SectionEntry}
    (h : ReportedAs band layout before entries reports) :
    entry ∈ entries ↔
      ∃ index, layout.Changes band before index ∧ layout.entryAt? band index = some entry := by
  simp only [h.entries_eq, List.mem_map, Prod.exists, exists_eq_right, h.mem_iff]

/-- **A section that enters the band is reported, unless it takes the place of another one.**  In
any run, a section with an anchor of its own is in the band at a look; at the look before it was not
in the band, or there was no such section, or there was no look.  Then the look reports it, except
if there are as many sections as before and at its index another one stood that was in the band.  So
it is always reported as long as the anchors of the page stay as they are. -/
theorem arrival_told_iff {band : Band} {layouts : List PageLayout} {look : Nat}
    {before layout : PageLayout} {id : String} (hlook : LooksAt layouts look before layout)
    (hids : layout.DistinctIds) (hnow : layout.Presents band id)
    (hbefore : ¬ before.Presents band id) :
    ∃ entries, (Tracker.watch { band := band } layouts)[look]? = some entries ∧
      (⟨some id, true⟩ ∈ entries ↔ ¬ layout.TakesPlace band before id) ∧
      (layout.sections.map SectionBounds.id? = before.sections.map SectionBounds.id? →
        ⟨some id, true⟩ ∈ entries) := by
  obtain ⟨entries, reports, hentries, hreports⟩ := hlook.reportedAs band
  obtain ⟨bounds, hmem, hid, hintersects⟩ := hnow
  obtain ⟨index, hbounds⟩ := List.mem_iff_getElem?.1 hmem
  have htold : ⟨some id, true⟩ ∈ entries ↔ ¬ layout.TakesPlace band before id := by
    rw [hreports.mem_entries_iff, hids.told_iff hbounds hid hintersects,
      hids.enters_iff hbefore hbounds hid hintersects]
  exact ⟨entries, hentries, htold,
    fun hsame => htold.2 (PageLayout.not_takesPlace_of_ids_eq hsame)⟩

/-- The page has been scrolled: the first of two sections leaves the band and the second one
enters. -/
theorem arrival_told_scrolled :
    let first : PageLayout := ⟨[⟨some "a", 0, 600⟩, ⟨some "b", 600, 1200⟩], 1000⟩
    let second : PageLayout := ⟨[⟨some "a", -500, 100⟩, ⟨some "b", 100, 700⟩], 1000⟩
    LooksAt [first, second] 1 first second ∧ second.DistinctIds ∧ second.Presents {} "b" ∧
      ¬ first.Presents {} "b" ∧
      ∃ entries, (Tracker.watch {} [first, second])[1]? = some entries ∧
        ⟨some "b", true⟩ ∈ entries := by
  intro first second
  have hlook : LooksAt [first, second] 1 first second := ⟨rfl, rfl⟩
  have hids : second.DistinctIds := by
    show ["a", "b"].Nodup
    decide
  have hnow : second.Presents {} "b" :=
    ⟨⟨some "b", 100, 700⟩, by simp [second], rfl, by decide +kernel⟩
  have hbefore : ¬ first.Presents {} "b" := by
    have hout : Band.isIntersecting {} ⟨some "b", 600, 1200⟩ 1000 = false := by decide +kernel
    simp [PageLayout.Presents, first, hout]
  have hanchors : second.sections.map SectionBounds.id? = first.sections.map SectionBounds.id? := by
    simp [first, second]
  obtain ⟨entries, hentries, -, htold⟩ := arrival_told_iff hlook hids hnow hbefore
  exact ⟨hlook, hids, hnow, hbefore, entries, hentries, htold hanchors⟩

/-- **A section that is exchanged for another one goes unreported.**  Both are in the band, and the
second one was not on the page before. -/
theorem arrival_untold :
    let first : PageLayout := ⟨[⟨some "a", 0, 450⟩], 1000⟩
    let second : PageLayout := ⟨[⟨some "b", 0, 450⟩], 1000⟩
    LooksAt [first, second] 1 first second ∧ first.DistinctIds ∧ second.DistinctIds ∧
      second.Presents {} "b" ∧ ¬ first.Presents {} "b" ∧
      (Tracker.watch {} [first, second])[1]? = some [] := by
  intro first second
  have hids : first.DistinctIds := List.nodup_cons.2 (by simp)
  have hids' : second.DistinctIds := List.nodup_cons.2 (by simp)
  refine ⟨⟨rfl, rfl⟩, hids, hids', ?_, ?_, by decide +kernel⟩
  · exact ⟨⟨some "b", 0, 450⟩, by simp [second], rfl, by decide +kernel⟩
  · simp [PageLayout.Presents, first]

end CodeMarkup
