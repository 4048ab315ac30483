import Mathlib.Data.List.Induction
import Mathlib.Data.Nat.Find
import CodeMarkup.Page.Sidebar

/-!
# The active link

A tracker reports what has changed since it looked last, and the sidebar follows the reports one by
one.  Over a whole run this comes to a rule without reports: of the last look at which a section
entered the band, the section furthest down that entered is the one whose links are active.

* `PageLayout.Enters` — a section enters the band between two looks at a page.
* `Sidebar.pointing` — the sidebar whose active links are those to one section, or none.
* `Tracker.update_of_last_entry` and `Tracker.update_of_no_entry` — what one look changes.
* `navigate_active` — which links are active after any run.
-/

namespace CodeMarkup

/-! ## Sections that enter -/

/-- What a tracker looks at: the sections of a page and the height of the window. -/
structure PageLayout where
  /-- The sections, from the top of the page on. -/
  sections : List SectionBounds := []
  /-- The height of the window. -/
  height : Float := 0

namespace PageLayout

/-- The section at an index intersects the band. -/
def Intersects (band : Band) (layout : PageLayout) (index : Nat) : Prop :=
  ∃ bounds, layout.sections[index]? = some bounds ∧
    band.isIntersecting bounds layout.height = true

/-- The section at an index enters the band: it intersects it and did not do so before.  If the
number of sections is another one than before, every section that intersects the band enters it. -/
def Enters (band : Band) (layout before : PageLayout) (index : Nat) : Prop :=
  layout.Intersects band index ∧
    (layout.sections.length ≠ before.sections.length ∨ ¬ before.Intersects band index)

/-- Whether each section intersects the band. -/
def flags (band : Band) (layout : PageLayout) : List Bool :=
  layout.sections.map fun bounds => band.isIntersecting bounds layout.height

theorem intersects_iff {band : Band} {layout : PageLayout} {index : Nat} :
    layout.Intersects band index ↔ (layout.flags band)[index]? = some true := by
  rw [flags, List.getElem?_map, Option.map_eq_some_iff]
  rfl

end PageLayout

/-! ## Links to one section -/

namespace Sidebar

/-- Where the links lead, in order. -/
def hrefs (sidebar : Sidebar) : List String := sidebar.links.map NavLink.href

/-- The sidebar in which exactly the links to a section are active; without a section none is. -/
def pointing (hrefs : List String) (id? : Option String) : Sidebar :=
  ⟨hrefs.map fun href => ⟨href, id?.any fun id => href == "#" ++ id⟩⟩

variable {hrefs : List String} {id? : Option String}

theorem hrefs_pointing : (pointing hrefs id?).hrefs = hrefs := by
  simp [Sidebar.hrefs, pointing, Function.comp_def]

theorem activate_eq (sidebar : Sidebar) (id? : Option String) :
    sidebar.activate id? = pointing sidebar.hrefs id? := by
  simp [activate, pointing, Sidebar.hrefs, Function.comp_def]

theorem active_iff_of_mem {link : NavLink} (h : link ∈ (pointing hrefs id?).links) :
    link.active = true ↔ ∃ id, id? = some id ∧ link.href = "#" ++ id := by
  obtain ⟨href, -, rfl⟩ := List.mem_map.1 h
  rw [Option.any_eq_true]
  simp only [beq_iff_eq]

/-- Of reports, the last one of a section in the band decides. -/
theorem observe_eq (hrefs : List String) (id? : Option String) (entries : List SectionEntry) :
    (pointing hrefs id?).observe entries =
      pointing hrefs (((entries.filter SectionEntry.intersecting).getLast?.map
        SectionEntry.id?).getD id?) := by
  have hfold : ∀ (reports : List SectionEntry) (id? : Option String),
      reports.foldl (fun sidebar entry => sidebar.activate entry.id?) (pointing hrefs id?) =
        pointing hrefs ((reports.getLast?.map SectionEntry.id?).getD id?) := by
    intro reports
    induction reports with
    | nil =>
      intro id?
      rfl
    | cons entry reports ih =>
      intro id?
      rw [List.foldl_cons, activate_eq, hrefs_pointing, ih, List.getLast?_cons]
      cases reports.getLast? <;> rfl
  exact hfold _ id?

end Sidebar

/-! ## One look -/

/-- The last of the elements with a property, by its index. -/
theorem getLast?_filter_eq_some {α : Type} {p : α → Bool} {xs : List α} {i : Nat} {x : α}
    (hi : xs[i]? = some x) (hx : p x = true)
    (hlater : ∀ j y, i < j → xs[j]? = some y → p y = false) :
    (xs.filter p).getLast? = some x := by
  obtain ⟨hlt, hget⟩ := List.getElem?_eq_some_iff.1 hi
  have hrest : (xs.drop (i + 1)).filter p = [] := by
    rw [List.filter_eq_nil_iff]
    intro y hy
    obtain ⟨j, hj⟩ := List.mem_iff_getElem?.1 hy
    rw [List.getElem?_drop] at hj
    rw [hlater (i + 1 + j) y (by omega) hj]
    exact Bool.false_ne_true
  have hsplit : xs = xs.take i ++ x :: xs.drop (i + 1) := by
    rw [← hget, ← List.drop_eq_getElem_cons hlt, List.take_append_drop]
  rw [hsplit, List.filter_append, List.filter_cons_of_pos hx, hrest, List.getLast?_append]
  rfl

namespace Tracker

variable {tracker : Tracker} {before layout : PageLayout} {hrefs : List String}
  {id? : Option String}

/-- A tracker remembers a look: which of the sections intersected the band. -/
def Remembers (tracker : Tracker) (before : PageLayout) : Prop :=
  tracker.intersecting = before.flags tracker.band

/-- What a tracker takes the state of each section before to have been. -/
def known (tracker : Tracker) (layout : PageLayout) : List Bool :=
  if tracker.intersecting.length != layout.sections.length then layout.sections.map fun _ => false
  else tracker.intersecting

/-- The sections of a page as they are now, each with what is known of its state before. -/
def compared (tracker : Tracker) (layout : PageLayout) : List (SectionEntry × Bool) :=
  (layout.sections.map fun bounds =>
    SectionEntry.mk bounds.id? (tracker.band.isIntersecting bounds layout.height)).zip
      (tracker.known layout)

/-- Whether a section is in the band and was not there before. -/
def isArrival (pair : SectionEntry × Bool) : Bool := pair.1.intersecting && !pair.2

/-- A tracker that has looked remembers what it has seen. -/
theorem entries_fst (tracker : Tracker) (layout : PageLayout) :
    (tracker.entries layout.sections layout.height).1 =
      ⟨tracker.band, layout.flags tracker.band⟩ := by
  simp [entries, PageLayout.flags, Function.comp_def]

theorem update_remembers (tracker : Tracker) (sidebar : Sidebar) (layout : PageLayout) :
    (tracker.update sidebar layout.sections layout.height).1 =
      ⟨tracker.band, layout.flags tracker.band⟩ :=
  entries_fst tracker layout

theorem length_known : (tracker.known layout).length = layout.sections.length := by
  by_cases hlength : tracker.intersecting.length = layout.sections.length
  · simp [known, hlength]
  · simp [known, hlength]

/-- After another number of sections nothing is known. -/
theorem eq_false_of_mem_known (hlength : tracker.intersecting.length ≠ layout.sections.length)
    {flag : Bool} (h : flag ∈ tracker.known layout) : flag = false := by
  rw [known, if_pos (by simpa using hlength)] at h
  exact (List.mem_map.1 h).choose_spec.2.symm

/-- Of the reports of sections in the band nothing is left but arrivals. -/
theorem filter_entries_eq (tracker : Tracker) (layout : PageLayout) :
    (tracker.entries layout.sections layout.height).2.filter SectionEntry.intersecting =
      ((tracker.compared layout).filter isArrival).map Prod.fst := by
  show (((tracker.compared layout).filter _).map Prod.fst).filter SectionEntry.intersecting = _
  rw [List.filter_map, List.filter_filter]
  congr 1
  apply List.filter_congr
  intro pair hpair
  by_cases hlength : tracker.intersecting.length = layout.sections.length
  · -- an unchanged number: a section in the band is reported if it was not there before
    cases hnow : pair.1.intersecting <;> cases hbefore : pair.2 <;>
      simp [isArrival, hlength, hnow, hbefore]
  · -- another number: every section is reported, and none counts as having been there
    have hflag := eq_false_of_mem_known hlength (List.of_mem_zip hpair).2
    simp [isArrival, hlength, hflag]

/-- Every section is compared. -/
theorem exists_compared (tracker : Tracker) {index : Nat} {bounds : SectionBounds}
    (hbounds : layout.sections[index]? = some bounds) :
    ∃ pair, (tracker.compared layout)[index]? = some pair ∧ pair.1.id? = bounds.id? := by
  have hlt : index < (tracker.known layout).length := by
    rw [length_known]
    exact (List.getElem?_eq_some_iff.1 hbounds).1
  refine ⟨(⟨bounds.id?, tracker.band.isIntersecting bounds layout.height⟩,
    (tracker.known layout)[index]), ?_, rfl⟩
  rw [compared, List.getElem?_zip_eq_some, List.getElem?_map, hbounds]
  exact ⟨rfl, List.getElem?_eq_getElem hlt⟩

/-- The sections that arrive are those that enter. -/
theorem isArrival_iff (hremembers : tracker.Remembers before) {index : Nat}
    {pair : SectionEntry × Bool} (hpair : (tracker.compared layout)[index]? = some pair) :
    isArrival pair = true ↔ layout.Enters tracker.band before index := by
  have hlength : tracker.intersecting.length = before.sections.length := by
    rw [hremembers, PageLayout.flags, List.length_map]
  rw [compared, List.getElem?_zip_eq_some, List.getElem?_map, Option.map_eq_some_iff] at hpair
  obtain ⟨⟨bounds, hbounds, hnow⟩, hflag⟩ := hpair
  have hintersects : layout.Intersects tracker.band index ↔ pair.1.intersecting = true := by
    rw [PageLayout.intersects_iff, PageLayout.flags, List.getElem?_map, hbounds, ← hnow]
    simp
  rw [PageLayout.Enters, hintersects, isArrival, Bool.and_eq_true, Bool.not_eq_true', ← hlength]
  apply and_congr_right
  intro hpresent
  by_cases hsame : tracker.intersecting.length = layout.sections.length
  · rw [known, if_neg (by simpa using hsame), hremembers] at hflag
    rw [PageLayout.intersects_iff, hflag]
    simp [hsame]
  · have hnone := eq_false_of_mem_known hsame (List.mem_of_getElem? hflag)
    exact iff_of_true hnone (.inl (Ne.symm hsame))

/-- If no section enters, a look changes nothing, whichever sections leave. -/
theorem update_of_no_entry (hremembers : tracker.Remembers before) (sidebar : Sidebar)
    (h : ∀ index, ¬ layout.Enters tracker.band before index) :
    (tracker.update sidebar layout.sections layout.height).2 = sidebar := by
  have hnone : (tracker.compared layout).filter isArrival = [] := by
    rw [List.filter_eq_nil_iff]
    intro pair hpair harrival
    obtain ⟨index, hindex⟩ := List.mem_iff_getElem?.1 hpair
    exact h index ((isArrival_iff hremembers hindex).1 harrival)
  show sidebar.observe (tracker.entries layout.sections layout.height).2 = sidebar
  rw [Sidebar.observe, filter_entries_eq, hnone]
  rfl

/-- Of the sections that enter, the one furthest down gets the active links. -/
theorem update_of_last_entry (hremembers : tracker.Remembers before) {index : Nat}
    {bounds : SectionBounds} (hbounds : layout.sections[index]? = some bounds)
    (henters : layout.Enters tracker.band before index)
    (hlast : ∀ other, layout.Enters tracker.band before other → other ≤ index) :
    (tracker.update (.pointing hrefs id?) layout.sections layout.height).2 =
      .pointing hrefs bounds.id? := by
  obtain ⟨pair, hpair, hid⟩ := exists_compared tracker hbounds
  have hfound : ((tracker.compared layout).filter isArrival).getLast? = some pair := by
    apply getLast?_filter_eq_some hpair ((isArrival_iff hremembers hpair).2 henters)
    intro other later hlt hlater
    by_contra harrival
    have := hlast other ((isArrival_iff hremembers hlater).1 (by simpa using harrival))
    omega
  show Sidebar.observe _ (tracker.entries layout.sections layout.height).2 = _
  rw [Sidebar.observe_eq, filter_entries_eq, List.getLast?_map, hfound, ← hid]
  rfl

end Tracker

/-! ## Whole runs -/

/-- A tracker with a band and a sidebar with links, after looks at a page. -/
def navigate (band : Band) (hrefs : List String) (layouts : List PageLayout) : Tracker × Sidebar :=
  layouts.foldl (fun state layout => state.1.update state.2 layout.sections layout.height)
    ({ band := band }, .ofHrefs hrefs)

/-- The section at an index enters the band at a look.  Before the first look there are no
sections. -/
def EntersAt (band : Band) (layouts : List PageLayout) (look index : Nat) : Prop :=
  ∃ before layout, ({} :: layouts)[look]? = some before ∧ layouts[look]? = some layout ∧
    layout.Enters band before index

/-- The last look at which a section enters the band, and the greatest index of one that does. -/
structure LastEntry (band : Band) (layouts : List PageLayout) (look index : Nat) : Prop where
  enters : EntersAt band layouts look index
  latest : ∀ other index', EntersAt band layouts other index' → other ≤ look
  greatest : ∀ other, EntersAt band layouts look other → other ≤ index

/-- The anchor of a section at a look, if it has one. -/
def sectionId? (layouts : List PageLayout) (look index : Nat) : Option String := do
  let layout ← layouts[look]?
  let bounds ← layout.sections[index]?
  bounds.id?

section

variable {band : Band} {hrefs : List String} {layouts : List PageLayout} {layout : PageLayout}

/-- The page at the last look; before the first one there are no sections. -/
def lastLayout (layouts : List PageLayout) : PageLayout := layouts.getLast?.getD {}

theorem lastLayout_concat (layouts : List PageLayout) (layout : PageLayout) :
    lastLayout (layouts ++ [layout]) = layout := by
  rw [lastLayout, List.getLast?_concat, Option.getD_some]

theorem navigate_concat (band : Band) (hrefs : List String) (layouts : List PageLayout)
    (layout : PageLayout) :
    navigate band hrefs (layouts ++ [layout]) =
      (navigate band hrefs layouts).1.update (navigate band hrefs layouts).2 layout.sections
        layout.height := by
  simp [navigate]

/-- A tracker remembers the last look. -/
theorem navigate_tracker (band : Band) (hrefs : List String) (layouts : List PageLayout) :
    (navigate band hrefs layouts).1 = ⟨band, (lastLayout layouts).flags band⟩ := by
  induction layouts using List.reverseRecOn with
  | nil => rfl
  | append_singleton layouts layout ih =>
    rw [navigate_concat, Tracker.update_remembers, ih, lastLayout_concat]

theorem getElem?_length_eq_lastLayout (layouts : List PageLayout) :
    (({} : PageLayout) :: layouts)[layouts.length]? = some (lastLayout layouts) := by
  rw [lastLayout, ← List.getLast?_cons, List.getLast?_eq_getElem?]
  rfl

/-- A look of a run, with what was looked at before it.  Before the first look there are no
sections. -/
def LooksAt (layouts : List PageLayout) (look : Nat) (before layout : PageLayout) : Prop :=
  (({} : PageLayout) :: layouts)[look]? = some before ∧ layouts[look]? = some layout

theorem LooksAt.lt {look : Nat} {before layout : PageLayout}
    (h : LooksAt layouts look before layout) : look < layouts.length :=
  (List.getElem?_eq_some_iff.1 h.2).1

/-- The looks of a run that goes on for one more look. -/
theorem looksAt_concat {look : Nat} {before now : PageLayout} :
    LooksAt (layouts ++ [layout]) look before now ↔
      LooksAt layouts look before now ∨
        look = layouts.length ∧ before = lastLayout layouts ∧ now = layout := by
  have hlength : (({} : PageLayout) :: layouts).length = layouts.length + 1 := rfl
  unfold LooksAt
  rw [← List.cons_append]
  rcases Nat.lt_trichotomy look layouts.length with hlt | rfl | hgt
  · rw [List.getElem?_append_left (by omega), List.getElem?_append_left hlt]
    simp [Nat.ne_of_lt hlt]
  · rw [List.getElem?_append_left (by omega), getElem?_length_eq_lastLayout]
    simp [eq_comm]
  · have hnone : (layouts ++ [layout])[look]? = none := by
      rw [List.getElem?_eq_none_iff, List.length_append, List.length_singleton]
      omega
    have hnone' : layouts[look]? = none := List.getElem?_eq_none_iff.2 (Nat.le_of_lt hgt)
    simp [hnone, hnone', Nat.ne_of_gt hgt]

/-- What can be said of a look of a run, or else of one more look. -/
theorem exists_looksAt_concat {look : Nat} {P : PageLayout → PageLayout → Prop} :
    (∃ before now, LooksAt (layouts ++ [layout]) look before now ∧ P before now) ↔
      (∃ before now, LooksAt layouts look before now ∧ P before now) ∨
        look = layouts.length ∧ P (lastLayout layouts) layout := by
  simp only [looksAt_concat]
  constructor
  · rintro ⟨before, now, hlook | ⟨hlook, rfl, rfl⟩, h⟩
    · exact .inl ⟨before, now, hlook, h⟩
    · exact .inr ⟨hlook, h⟩
  · rintro (⟨before, now, hlook, h⟩ | ⟨hlook, h⟩)
    · exact ⟨before, now, .inl hlook, h⟩
    · exact ⟨_, _, .inr ⟨hlook, rfl, rfl⟩, h⟩

theorem entersAt_iff {look index : Nat} :
    EntersAt band layouts look index ↔
      ∃ before layout, LooksAt layouts look before layout ∧ layout.Enters band before index := by
  simp only [EntersAt, LooksAt, and_assoc]

/-- The entries of a run that goes on for one more look. -/
theorem entersAt_concat {look index : Nat} :
    EntersAt band (layouts ++ [layout]) look index ↔
      EntersAt band layouts look index ∨
        look = layouts.length ∧ layout.Enters band (lastLayout layouts) index := by
  rw [entersAt_iff, entersAt_iff]
  exact exists_looksAt_concat

/-- Either no section enters, or one of those that do is furthest down. -/
theorem exists_last_entry (band : Band) (layout before : PageLayout) :
    (∀ index, ¬ layout.Enters band before index) ∨
      ∃ index, layout.Enters band before index ∧
        ∀ other, layout.Enters band before other → other ≤ index := by
  classical
  by_cases h : ∃ index, layout.Enters band before index
  · obtain ⟨index, hindex⟩ := h
    have hbound : ∀ other, layout.Enters band before other → other ≤ layout.sections.length := by
      rintro other ⟨⟨bounds, hbounds, -⟩, -⟩
      exact Nat.le_of_lt (List.getElem?_eq_some_iff.1 hbounds).1
    refine .inr ⟨Nat.findGreatest (layout.Enters band before) layout.sections.length, ?_, ?_⟩
    · exact Nat.findGreatest_spec (hbound index hindex) hindex
    · intro other hother
      exact Nat.le_findGreatest (hbound other hother) hother
  · exact .inl (not_exists.1 h)

theorem navigate_remembers (band : Band) (hrefs : List String) (layouts : List PageLayout) :
    (navigate band hrefs layouts).1.Remembers (lastLayout layouts) := by
  rw [navigate_tracker]
  rfl

/-- A look at which no section enters changes nothing. -/
theorem navigate_concat_of_no_entry
    (h : ∀ index, ¬ layout.Enters band (lastLayout layouts) index) :
    (navigate band hrefs (layouts ++ [layout])).2 = (navigate band hrefs layouts).2 := by
  rw [navigate_concat]
  apply Tracker.update_of_no_entry (navigate_remembers band hrefs layouts)
  rw [navigate_tracker]
  exact h

theorem EntersAt.lt {look index : Nat} (h : EntersAt band layouts look index) :
    look < layouts.length := by
  obtain ⟨before, layout, hlook, -⟩ := entersAt_iff.1 h
  exact hlook.lt

theorem LastEntry.unique {look index look' index' : Nat} (h : LastEntry band layouts look index)
    (h' : LastEntry band layouts look' index') : look = look' ∧ index = index' := by
  obtain rfl : look = look' :=
    Nat.le_antisymm (h'.latest _ _ h.enters) (h.latest _ _ h'.enters)
  exact ⟨rfl, Nat.le_antisymm (h'.greatest _ h.enters) (h.greatest _ h'.enters)⟩

/-- A look at which no section enters leaves the last entry as it was. -/
theorem LastEntry.concat {look index : Nat} (h : LastEntry band layouts look index)
    (hnone : ∀ index, ¬ layout.Enters band (lastLayout layouts) index) :
    LastEntry band (layouts ++ [layout]) look index := by
  have hsame : ∀ {look index}, EntersAt band (layouts ++ [layout]) look index →
      EntersAt band layouts look index := by
    intro look index henters
    rcases entersAt_concat.1 henters with hbefore | ⟨-, hnow⟩
    · exact hbefore
    · exact absurd hnow (hnone index)
  exact ⟨entersAt_concat.2 (.inl h.enters), fun _ _ henters => h.latest _ _ (hsame henters),
    fun _ henters => h.greatest _ (hsame henters)⟩

/-- A look at which sections enter has the last entry. -/
theorem lastEntry_concat {index : Nat} (henters : layout.Enters band (lastLayout layouts) index)
    (hgreatest : ∀ other, layout.Enters band (lastLayout layouts) other → other ≤ index) :
    LastEntry band (layouts ++ [layout]) layouts.length index where
  enters := entersAt_concat.2 (.inr ⟨rfl, henters⟩)
  latest := by
    intro other index' hother
    rcases entersAt_concat.1 hother with hbefore | ⟨rfl, -⟩
    · exact Nat.le_of_lt hbefore.lt
    · exact Nat.le_refl _
  greatest := by
    intro other hother
    rcases entersAt_concat.1 hother with hbefore | ⟨-, hnow⟩
    · exact absurd hbefore.lt (Nat.lt_irrefl _)
    · exact hgreatest other hnow

theorem sectionId?_concat {look index : Nat} (hlt : look < layouts.length) :
    sectionId? (layouts ++ [layout]) look index = sectionId? layouts look index := by
  rw [sectionId?, sectionId?, List.getElem?_append_left hlt]

/-- The sidebar of a run points to the section that entered last, if one has entered at all. -/
theorem navigate_pointing (band : Band) (hrefs : List String) (layouts : List PageLayout) :
    ((∀ look index, ¬ EntersAt band layouts look index) ∧
        (navigate band hrefs layouts).2 = .pointing hrefs none) ∨
      ∃ look index, LastEntry band layouts look index ∧
        (navigate band hrefs layouts).2 = .pointing hrefs (sectionId? layouts look index) := by
  induction layouts using List.reverseRecOn with
  | nil =>
    refine .inl ⟨?_, rfl⟩
    intro look index henters
    exact absurd henters.lt (Nat.not_lt_zero look)
  | append_singleton layouts layout ih =>
    rcases exists_last_entry band layout (lastLayout layouts) with
      hnone | ⟨index, henters, hgreatest⟩
    · rw [navigate_concat_of_no_entry hnone]
      rcases ih with ⟨hbefore, hsidebar⟩ | ⟨look, index, hlast, hsidebar⟩
      · refine .inl ⟨?_, hsidebar⟩
        intro look index henters
        rcases entersAt_concat.1 henters with h | ⟨-, h⟩
        · exact hbefore look index h
        · exact hnone index h
      · refine .inr ⟨look, index, hlast.concat hnone, ?_⟩
        rw [hsidebar, sectionId?_concat hlast.enters.lt]
    · refine .inr ⟨layouts.length, index, lastEntry_concat henters hgreatest, ?_⟩
      obtain ⟨id?, hsidebar⟩ : ∃ id?, (navigate band hrefs layouts).2 = .pointing hrefs id? := by
        rcases ih with ⟨-, hsidebar⟩ | ⟨look, index, -, hsidebar⟩
        · exact ⟨none, hsidebar⟩
        · exact ⟨_, hsidebar⟩
      obtain ⟨bounds, hbounds, -⟩ := henters.1
      have hid : sectionId? (layouts ++ [layout]) layouts.length index = bounds.id? := by
        simp [sectionId?, hbounds]
      rw [navigate_concat, hsidebar, hid]
      apply Tracker.update_of_last_entry (navigate_remembers band hrefs layouts) hbounds
      · rw [navigate_tracker]
        exact henters
      · rw [navigate_tracker]
        exact hgreatest

/-- **The active links are those to the section that entered last.**  After any run no link is
active if no section has entered the band.  Otherwise, of the last look at which one did, the
section with the greatest index that entered decides: a link is active if and only if the section
has an anchor and the link leads to it.  All active links lead to one place, the links themselves
never change, and sections that leave the band change nothing. -/
theorem navigate_active (band : Band) (hrefs : List String) (layouts : List PageLayout) :
    let sidebar := (navigate band hrefs layouts).2
    sidebar.hrefs = hrefs ∧
      ((∀ look index, ¬ EntersAt band layouts look index) →
        ∀ link ∈ sidebar.links, link.active = false) ∧
      (∀ look index, LastEntry band layouts look index → ∀ link ∈ sidebar.links,
        (link.active = true ↔
          ∃ id, sectionId? layouts look index = some id ∧ link.href = "#" ++ id)) ∧
      ((∀ look index, ¬ EntersAt band layouts look index) ∨
        ∃ look index, LastEntry band layouts look index) ∧
      (∀ link ∈ sidebar.links, ∀ other ∈ sidebar.links,
        link.active = true → other.active = true → link.href = other.href) ∧
      ∀ layout, (∀ index, ¬ layout.Enters band (lastLayout layouts) index) →
        (navigate band hrefs (layouts ++ [layout])).2 = sidebar := by
  intro sidebar
  obtain ⟨id?, hsidebar, hnone, hlast, htotal⟩ : ∃ id?, sidebar = .pointing hrefs id? ∧
      ((∀ look index, ¬ EntersAt band layouts look index) → id? = none) ∧
      (∀ look index, LastEntry band layouts look index → id? = sectionId? layouts look index) ∧
      ((∀ look index, ¬ EntersAt band layouts look index) ∨
        ∃ look index, LastEntry band layouts look index) := by
    rcases navigate_pointing band hrefs layouts with ⟨hnone, h⟩ | ⟨look, index, hlast, h⟩
    · refine ⟨none, h, fun _ => rfl, ?_, .inl hnone⟩
      intro look index hlast
      exact absurd hlast.enters (hnone look index)
    · refine ⟨_, h, ?_, ?_, .inr ⟨look, index, hlast⟩⟩
      · intro hnone
        exact absurd hlast.enters (hnone look index)
      · intro look' index' hlast'
        obtain ⟨rfl, rfl⟩ := hlast.unique hlast'
        rfl
  have hactive : ∀ link ∈ sidebar.links,
      (link.active = true ↔ ∃ id, id? = some id ∧ link.href = "#" ++ id) := by
    rw [hsidebar]
    intro link hlink
    exact Sidebar.active_iff_of_mem hlink
  refine ⟨?_, ?_, ?_, htotal, ?_, fun layout h => navigate_concat_of_no_entry h⟩
  · rw [hsidebar, Sidebar.hrefs_pointing]
  · intro h link hlink
    rw [← Bool.not_eq_true, hactive link hlink, hnone h]
    simp
  · intro look index h
    rw [← hlast look index h]
    exact hactive
  · intro link hlink other hother hlinkActive hotherActive
    obtain ⟨id, hid, hhref⟩ := (hactive link hlink).1 hlinkActive
    obtain ⟨id', hid', hhref'⟩ := (hactive other hother).1 hotherActive
    obtain rfl : id = id' := Option.some.inj (hid.symm.trans hid')
    rw [hhref, hhref']

end

end CodeMarkup
