import CodeMarkup.Page.Band

/-!
# The sidebar

The sidebar links to the sections of a page, and the link to the section that last entered the band
is the active one. A tracker observes the sections and reports those whose state has changed since
it looked last; when their number has changed, it reports all of them.
-/

namespace CodeMarkup

/-- A report that a section intersects the band now, or does not. -/
structure SectionEntry where
  /-- The anchor of the section, if it has one. -/
  id? : Option String
  /-- Whether it intersects the band. -/
  intersecting : Bool
  deriving DecidableEq, Repr

/-- A link in the sidebar. -/
structure NavLink where
  /-- Where the link leads. -/
  href : String
  /-- Whether the link is active. -/
  active : Bool := false
  deriving DecidableEq, Repr

/-- The links of a page. -/
structure Sidebar where
  /-- The links, in order. -/
  links : List NavLink
  deriving DecidableEq, Repr

namespace Sidebar

/-- A sidebar with links, none of them active. -/
def ofHrefs (hrefs : List String) : Sidebar := ⟨hrefs.map fun href => { href := href }⟩

/-- Where the first active link leads. -/
def activeHref? (sidebar : Sidebar) : Option String :=
  (sidebar.links.find? fun link => link.active).map NavLink.href

/-- A sidebar where exactly the links to a section are active; without a section none is. -/
def activate (sidebar : Sidebar) (id? : Option String) : Sidebar :=
  ⟨sidebar.links.map fun link =>
    { link with active := id?.any fun id => link.href == "#" ++ id }⟩

/-- A sidebar after reports, one by one. A section that has left the band changes nothing. -/
def observe (sidebar : Sidebar) (entries : List SectionEntry) : Sidebar :=
  (entries.filter fun entry => entry.intersecting).foldl
    (fun sidebar entry => sidebar.activate entry.id?) sidebar

end Sidebar

/-- An observer of the sections of a page. -/
structure Tracker where
  /-- The band that sections are observed against. -/
  band : Band := {}
  /-- Whether each section intersected the band, when the tracker looked last. -/
  intersecting : List Bool := []

namespace Tracker

/-- The tracker after a look at the sections, and what it reports. -/
def entries (tracker : Tracker) (sections : List SectionBounds) (height : Float) :
    Tracker × List SectionEntry :=
  let renewed := tracker.intersecting.length != sections.length
  let before := if renewed then sections.map fun _ => false else tracker.intersecting
  let now := sections.map fun bounds =>
    SectionEntry.mk bounds.id? (tracker.band.isIntersecting bounds height)
  let changed := (now.zip before).filter fun pair =>
    renewed || pair.1.intersecting != pair.2
  ({ tracker with intersecting := now.map SectionEntry.intersecting }, changed.map Prod.fst)

/-- The tracker and the sidebar after a look at the sections. -/
def update (tracker : Tracker) (sidebar : Sidebar) (sections : List SectionBounds)
    (height : Float) : Tracker × Sidebar :=
  let (tracker, entries) := tracker.entries sections height
  (tracker, sidebar.observe entries)

end Tracker

end CodeMarkup
