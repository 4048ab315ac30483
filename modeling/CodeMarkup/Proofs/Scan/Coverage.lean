import Mathlib.Data.List.Chain
import CodeMarkup.Proofs.Scan.Run

/-!
# A scan covers its source

The segments of a scan cut the source into pieces that lie side by side: nothing is lost, nothing is
covered twice, and every cut is between two characters.

* `Covers` — the segments of a source, from its start to its end, with no two gaps in a row.
* `CoversFrom.rebuilt` — segments that cover a source have its text, piece by piece.
* `ScanState.Run.coversFrom` — what a run emits covers the source from the place of its state on.
-/

namespace CodeMarkup

/-- Whether a segment is a gap. -/
def Segment.isGap : Segment → Bool
  | gap _ _ => true
  | token _ _ _ => false

/-- The text of a segment leads from the place where it starts to the place where it ends. -/
theorem Segment.passes_text {source : List Char} {place : Cursor} (segment : Segment)
    (hplace : (Cursor.start source).Reaches place) (hstart : segment.start = place.offset)
    (hle : segment.start ≤ segment.stop) (hlast : IsBoundary source segment.stop) :
    ∃ further, (Cursor.start source).Reaches further ∧ further.offset = segment.stop ∧
      place.Passes (segment.text source) further := by
  obtain ⟨further, hfurther, hstop⟩ := Cursor.isBoundary_iff.1 hlast
  obtain ⟨passed, hpassed⟩ := hplace.of_le hfurther (by omega)
  have htext : segment.text source = passed := by
    rw [Segment.text, hstart, ← hstop]
    exact slice_of_passes hplace hpassed
  exact ⟨further, hfurther, hstop, htext ▸ hpassed⟩

/-- Segments that are not empty and of which each one starts where the one before it ends, from the
offset `first` to the offset `last`. -/
def Contiguous (last : Nat) : Nat → List Segment → Prop
  | first, [] => first = last
  | first, segment :: rest =>
    segment.start = first ∧ segment.start < segment.stop ∧ Contiguous last segment.stop rest

theorem Contiguous.le {last first : Nat} {segments : List Segment}
    (h : Contiguous last first segments) : first ≤ last := by
  induction segments generalizing first with
  | nil => exact Nat.le_of_eq h
  | cons segment rest ih =>
    obtain ⟨rfl, hlt, hrest⟩ := h
    exact Nat.le_trans (Nat.le_of_lt hlt) (ih hrest)

theorem Contiguous.lt_of_mem {last first : Nat} {segments : List Segment}
    (h : Contiguous last first segments) :
    ∀ segment ∈ segments, segment.start < segment.stop := by
  induction segments generalizing first with
  | nil => simp
  | cons segment rest ih => exact List.forall_mem_cons.2 ⟨h.2.1, ih h.2.2⟩

/-- Every offset between the ends lies in one of the segments. -/
theorem Contiguous.exists_mem {last first offset : Nat} {segments : List Segment}
    (h : Contiguous last first segments) (hfirst : first ≤ offset) (hlast : offset < last) :
    ∃ segment ∈ segments, segment.start ≤ offset ∧ offset < segment.stop := by
  induction segments generalizing first with
  | nil =>
    have heq : first = last := h
    omega
  | cons segment rest ih =>
    obtain ⟨rfl, -, hrest⟩ := h
    rcases Nat.lt_or_ge offset segment.stop with hlt | hge
    · exact ⟨segment, List.mem_cons_self, hfirst, hlt⟩
    · obtain ⟨found, hmem, hbetween⟩ := ih hrest hge
      exact ⟨found, List.mem_cons_of_mem segment hmem, hbetween⟩

/-- Each segment starts at or after the first offset. -/
theorem Contiguous.le_start {last first : Nat} {segments : List Segment}
    (h : Contiguous last first segments) : ∀ segment ∈ segments, first ≤ segment.start := by
  induction segments generalizing first with
  | nil => simp
  | cons segment rest ih =>
    obtain ⟨rfl, hlt, hrest⟩ := h
    refine List.forall_mem_cons.2 ⟨Nat.le_refl _, fun later hmem => ?_⟩
    exact Nat.le_trans (Nat.le_of_lt hlt) (ih hrest later hmem)

/-- Two segments are the same, or one of them ends before the other starts. -/
theorem Contiguous.eq_or_apart {last first : Nat} {segments : List Segment}
    (h : Contiguous last first segments) {s t : Segment} (hs : s ∈ segments) (ht : t ∈ segments) :
    s = t ∨ s.stop ≤ t.start ∨ t.stop ≤ s.start := by
  induction segments generalizing first with
  | nil => cases hs
  | cons segment rest ih =>
    obtain ⟨-, -, hrest⟩ := h
    rcases List.mem_cons.1 hs with hs | hs
    · rcases List.mem_cons.1 ht with ht | ht
      · exact .inl (hs.trans ht.symm)
      · exact .inr (.inl (hs ▸ hrest.le_start t ht))
    · rcases List.mem_cons.1 ht with ht | ht
      · exact .inr (.inr (ht ▸ hrest.le_start s hs))
      · exact ih hrest hs ht

/-- Segments that cover a source from an offset on. -/
structure CoversFrom (source : List Char) (first : Nat) (segments : List Segment) : Prop where
  /-- They lie side by side, up to the end of the source. -/
  contiguous : Contiguous (utf8Length source) first segments
  /-- They do not cut a character. -/
  boundaries : ∀ segment ∈ segments,
    IsBoundary source segment.start ∧ IsBoundary source segment.stop
  /-- No two gaps stand side by side. -/
  separated : segments.IsChain fun s t => ¬ (s.isGap ∧ t.isGap)

/-- Segments that cover a source. -/
abbrev Covers (source : List Char) (segments : List Segment) : Prop := CoversFrom source 0 segments

namespace CoversFrom

variable {source : List Char} {first start : Nat} {segment : Segment} {rest : List Segment}

theorem nil (source : List Char) : CoversFrom source (utf8Length source) [] :=
  ⟨rfl, by simp, .nil⟩

/-- Segments that cover a source, with one more in front that is not a gap before a gap. -/
theorem cons (segment : Segment) (h : CoversFrom source segment.stop rest)
    (hlt : segment.start < segment.stop) (hstart : IsBoundary source segment.start)
    (hstop : IsBoundary source segment.stop)
    (hseparated : ∀ next ∈ rest.head?, ¬ (segment.isGap ∧ next.isGap)) :
    CoversFrom source segment.start (segment :: rest) where
  contiguous := ⟨rfl, hlt, h.contiguous⟩
  boundaries := List.forall_mem_cons.2 ⟨⟨hstart, hstop⟩, h.boundaries⟩
  separated := List.isChain_cons.2 ⟨hseparated, h.separated⟩

/-- A gap, if it is not empty, in front of segments that start with a token. -/
theorem gapBetween_append (h : CoversFrom source start (segment :: rest))
    (hsegment : segment.isGap = false) (hle : first ≤ start) (hfirst : IsBoundary source first) :
    CoversFrom source first (gapBetween first start ++ segment :: rest) := by
  unfold gapBetween
  split
  · rename_i hlt
    have hstart : IsBoundary source start :=
      h.contiguous.1 ▸ (h.boundaries segment List.mem_cons_self).1
    refine CoversFrom.cons (.gap first start) h hlt hfirst hstart ?_
    rintro next ⟨⟩
    simp [hsegment]
  · have heq : first = start := by omega
    exact heq ▸ h

theorem tail (h : CoversFrom source first (segment :: rest)) :
    CoversFrom source segment.stop rest where
  contiguous := h.contiguous.2.2
  boundaries := (List.forall_mem_cons.1 h.boundaries).2
  separated := h.separated.tail

/-- Where there is a segment, the source goes on. -/
theorem first_lt (h : CoversFrom source first (segment :: rest)) : first < utf8Length source := by
  obtain ⟨rfl, hlt, hrest⟩ := h.contiguous
  exact Nat.lt_of_lt_of_le hlt hrest.le

/-- The texts of segments that cover a source from a place on are the text from there on. -/
theorem rebuilt {place : Cursor} {segments : List Segment}
    (hplace : (Cursor.start source).Reaches place)
    (h : CoversFrom source place.offset segments) :
    segments.flatMap (Segment.text source) = place.rest := by
  induction segments generalizing place with
  | nil =>
    have hend := hplace.end_eq
    have hlast : place.offset = utf8Length source := h.contiguous
    have hrest : place.rest = [] := by
      refine utf8Length_eq_zero_iff.1 ?_
      simp only [Cursor.start] at hend
      omega
    rw [List.flatMap_nil, hrest]
  | cons segment rest ih =>
    obtain ⟨hstart, hlt, -⟩ := h.contiguous
    have hboundary := (h.boundaries segment List.mem_cons_self).2
    obtain ⟨further, hfurther, hstop, htext⟩ :=
      segment.passes_text hplace hstart (Nat.le_of_lt hlt) hboundary
    rw [List.flatMap_cons, ih hfurther (hstop ▸ h.tail), htext.rest_eq]

/-- Each segment leads over its text, from the place where it starts to the one where it ends. -/
theorem exists_passes {segments : List Segment} (h : CoversFrom source first segments)
    (hmem : segment ∈ segments) :
    ∃ place further, (Cursor.start source).Reaches place ∧ place.offset = segment.start ∧
      (Cursor.start source).Reaches further ∧ further.offset = segment.stop ∧
      place.Passes (segment.text source) further := by
  have hlt := h.contiguous.lt_of_mem segment hmem
  obtain ⟨hfirst, hlast⟩ := h.boundaries segment hmem
  obtain ⟨place, hplace, hstart⟩ := Cursor.isBoundary_iff.1 hfirst
  obtain ⟨further, hfurther, hstop, htext⟩ :=
    segment.passes_text hplace hstart.symm (Nat.le_of_lt hlt) hlast
  exact ⟨place, further, hplace, hstart, hfurther, hstop, htext⟩

theorem text_ne_nil {segments : List Segment} (h : CoversFrom source first segments) :
    ∀ segment ∈ segments, segment.text source ≠ [] := by
  intro segment hmem hnil
  have hlt := h.contiguous.lt_of_mem segment hmem
  obtain ⟨place, further, -, hstart, -, hstop, htext⟩ := h.exists_passes hmem
  -- An empty text has no length, but the segment ends behind its start.
  have hoffset := htext.offset_eq
  rw [hnil, utf8Length_nil] at hoffset
  omega

/-- Behind a segment that does not reach to the end comes another one, and not a gap behind a
gap. -/
theorem exists_next {segments : List Segment} (h : CoversFrom source first segments)
    (hmem : segment ∈ segments) (hlt : segment.stop < utf8Length source) :
    ∃ next ∈ segments, next.start = segment.stop ∧ ¬ (segment.isGap ∧ next.isGap) := by
  induction segments generalizing first with
  | nil => cases hmem
  | cons head rest ih =>
    rcases List.mem_cons.1 hmem with rfl | hmem
    · cases rest with
      | nil => exact absurd h.tail.contiguous (Nat.ne_of_lt hlt)
      | cons next rest =>
        exact ⟨next, by simp, h.tail.contiguous.1, (List.isChain_cons_cons.1 h.separated).1⟩
    · obtain ⟨next, hnext, hmeet⟩ := ih h.tail hmem
      exact ⟨next, List.mem_cons_of_mem head hnext, hmeet⟩

/-- Two segments meet at a place between the last character of the one and the first of the
other. -/
theorem exists_between {left right : Segment} {segments : List Segment}
    (h : CoversFrom source first segments) (hleft : left ∈ segments) (hright : right ∈ segments)
    (hmeet : left.stop = right.start) :
    ∃ place, (Cursor.start source).Reaches place ∧ place.offset = right.start ∧
      place.prev? = (left.text source).getLast? ∧ place.peek? = (right.text source).head? := by
  obtain ⟨p, q, -, -, hq, hqstop, hpq⟩ := h.exists_passes hleft
  obtain ⟨q', r, hq', hq'start, -, -, hqr⟩ := h.exists_passes hright
  obtain rfl : q = q' := hq.eq_of_offset hq' (by omega)
  refine ⟨q, hq, hq'start, ?_, ?_⟩
  · rw [hpq.prev_eq, List.getLast?_eq_some_getLast (h.text_ne_nil left hleft), Option.some_or]
  · rw [Cursor.peek?, hqr.rest_eq, List.head?_append_of_ne_nil _ (h.text_ne_nil right hright)]

/-- What holds of two segments wherever one starts at the end of the other, and they are not both
gaps, holds of all neighbours. -/
theorem isChain {segments : List Segment} {R : Segment → Segment → Prop}
    (h : CoversFrom source first segments)
    (hR : ∀ left ∈ segments, ∀ right ∈ segments, left.stop = right.start →
      ¬ (left.isGap ∧ right.isGap) → R left right) : segments.IsChain R := by
  induction segments generalizing first with
  | nil => exact .nil
  | cons left rest ih =>
    have hrest := ih h.tail fun left hleft right hright =>
      hR left (List.mem_cons_of_mem _ hleft) right (List.mem_cons_of_mem _ hright)
    refine List.isChain_cons.2 ⟨fun right hright => ?_, hrest⟩
    obtain ⟨more, rfl⟩ := List.head?_eq_some_iff.1 hright
    exact hR left List.mem_cons_self right (by simp) h.tail.contiguous.1.symm
      (List.isChain_cons_cons.1 h.separated).1

end CoversFrom

/-- What a scan emits covers the source from its place on. -/
theorem ScanState.Run.coversFrom {grammar : Grammar} {classifier : Classifier}
    {source : List Char} {state : ScanState} {segments : List Segment}
    (h : state.Run grammar classifier segments) (hinv : state.Inv grammar source) :
    CoversFrom source state.place.offset segments := by
  induction h with
  | @done state _ =>
    have hend : state.place.offset + utf8Length state.place.rest = utf8Length source := by
      rw [hinv.reached.end_eq]
      simp [Cursor.start]
    have hlast : IsBoundary source (utf8Length source) := ⟨source, [], by simp, rfl⟩
    rw [lastGap, hend]
    unfold gapBetween
    split
    · rename_i hlt
      refine CoversFrom.cons (.gap state.place.offset (utf8Length source)) (.nil source) hlt
        hinv.reached.isBoundary hlast ?_
      rintro next ⟨⟩
    · have heq : state.place.offset = utf8Length source := by omega
      exact heq ▸ .nil source
  | @step state found rest hnext _ ih =>
    have hisNext := hinv.isNext hnext
    have hstart := hinv.reached.trans hisNext.start_reaches
    have hstop := hinv.reached.trans hisNext.stop_reaches
    have htoken := CoversFrom.cons
      (.token found.start.offset found.stop.offset (classifier.classify found.text))
      (ih (hinv.behind hnext)) hisNext.match_lt hstart.isBoundary hstop.isBoundary
      (by simp [Segment.isGap])
    rw [emitted, List.append_assoc]
    exact htoken.gapBetween_append rfl hisNext.start_reaches.offset_le hinv.reached.isBoundary

theorem covers_scan (grammar : Grammar) (classifier : Classifier) (source : List Char) :
    Covers source (scan grammar classifier source) :=
  (scan_run grammar classifier source).coversFrom (.start grammar source)

/-- **A scan partitions its source.**  Both loops come to an end, the scan and the search over empty
matches inside it, and the segments lie side by side from the start of the source to its end, on
boundaries of characters, none of them empty and no two gaps in a row.  Their texts are the source,
and the empty source has none. -/
theorem scan_partitions (grammar : Grammar) (classifier : Classifier) (source : List Char) :
    ScanState.Run grammar classifier (.start grammar source) (scan grammar classifier source) ∧
      (∀ (m : Matcher) (place : Cursor), m.SearchRun place (m.search? place)) ∧
      Covers source (scan grammar classifier source) ∧
      (scan grammar classifier source).flatMap (Segment.text source) = source ∧
      scan grammar classifier [] = [] := by
  have hcovers := covers_scan grammar classifier source
  refine ⟨scan_run grammar classifier source, Matcher.search?_run, hcovers, ?_, ?_⟩
  · exact hcovers.rebuilt (.refl (Cursor.start source))
  · have hempty := covers_scan grammar classifier []
    cases hscan : scan grammar classifier [] with
    | nil => rfl
    | cons segment rest =>
      -- A segment of the empty source would end behind its end.
      rw [hscan] at hempty
      exact absurd hempty.first_lt (Nat.lt_irrefl 0)

end CodeMarkup
