import CodeMarkup.Proofs.Scan.Coverage

/-!
# Earliest start, then declared order

What a scan emits, said of the source and the offsets alone: nothing is missed in a gap, and a token
is the match of the first category that has one where it starts.  Together with coverage this leaves
one list of segments.

* `Category.HasToken` — a category has a match at an offset that is not empty.
* `Segment.Meets` — what a segment says of the source.
* `ScanState.Run.meets` — every segment of a run says so.
* `CoversFrom.unique` — there is one such list that covers the source.
* `mem_scan_of_meets` — a token that says so of the source is emitted, if no other one covers its
  start.
-/

namespace CodeMarkup

/-! ## Searching at an offset -/

/-- A category has a match from one offset of a source to another, which is not empty. -/
def Category.HasToken (category : Category) (source : List Char) (first last : Nat) : Prop :=
  category.findAt? source first = some (first, last) ∧ first < last

namespace Category

variable {category : Category} {source : List Char} {place : Cursor}

/-- An offset finds what the first place at or after it finds. -/
theorem findAt?_of_seek? {offset : Nat} (hseek : Cursor.seek? source offset = some place) :
    category.findAt? source offset =
      (category.matcher.find? place).map fun found => (found.1.offset, found.2.offset) := by
  rw [findAt?, hseek, Option.bind_eq_bind, Option.bind_some]
  cases category.matcher.find? place <;> rfl

/-- The offset of a place finds what the place finds. -/
theorem findAt?_eq (hplace : (Cursor.start source).Reaches place) :
    category.findAt? source place.offset =
      (category.matcher.find? place).map fun found => (found.1.offset, found.2.offset) :=
  findAt?_of_seek? (Cursor.seek?_of_reaches hplace)

theorem hasToken_iff (hplace : (Cursor.start source).Reaches place) {last : Nat} :
    category.HasToken source place.offset last ↔
      ∃ stop, category.matcher.tokenAt? place = some stop ∧ stop.offset = last := by
  have hfirst := category.matcher.find?_isFirst place
  rw [HasToken, findAt?_eq hplace]
  constructor
  · rintro ⟨hfind, hlt⟩
    obtain ⟨⟨start, stop⟩, hfound, hoffsets⟩ := Option.map_eq_some_iff.1 hfind
    obtain ⟨hstart, rfl⟩ : start.offset = place.offset ∧ stop.offset = last := by
      simpa using hoffsets
    rw [hfound] at hfirst
    obtain rfl : place = start := hfirst.1.eq_of_offset_eq hstart.symm
    exact ⟨stop, Matcher.tokenAt?_eq_some_iff.2 ⟨hfirst.2.1, hlt⟩, rfl⟩
  · rintro ⟨stop, htoken, rfl⟩
    obtain ⟨hmatch, hlt⟩ := Matcher.tokenAt?_eq_some_iff.1 htoken
    have hfound : category.matcher.find? place = some (place, stop) :=
      hfirst.unique (.here hmatch)
    exact ⟨by rw [hfound]; rfl, hlt⟩

/-- A token leads from the place where it starts over its text. -/
theorem HasToken.exists_passes {first last : Nat} (h : category.HasToken source first last)
    (hfirst : IsBoundary source first) :
    ∃ place stop text, (Cursor.start source).Reaches place ∧ place.offset = first ∧
      stop.offset = last ∧ place.Passes text stop ∧ slice source first last = text ∧
      category.matcher.tokenAt? place = some stop := by
  obtain ⟨place, hplace, rfl⟩ := Cursor.isBoundary_iff.1 hfirst
  obtain ⟨stop, hstop, rfl⟩ := (hasToken_iff hplace).1 h
  obtain ⟨text, htext⟩ := Matcher.matchAt?_reaches (Matcher.tokenAt?_eq_some_iff.1 hstop).1
  exact ⟨place, stop, text, hplace, rfl, rfl, htext, slice_of_passes hplace htext, hstop⟩

/-- Where there is no token, what is found is empty or starts later. -/
theorem findAt?_of_tokenAt?_eq_none (hplace : (Cursor.start source).Reaches place)
    (hnone : category.matcher.tokenAt? place = none) {start stop : Nat}
    (h : category.findAt? source place.offset = some (start, stop)) :
    start = stop ∨ place.offset < start := by
  have hfirst := category.matcher.find?_isFirst place
  rw [findAt?_eq hplace] at h
  obtain ⟨⟨s, e⟩, hfound, hoffsets⟩ := Option.map_eq_some_iff.1 h
  obtain ⟨rfl, rfl⟩ : s.offset = start ∧ e.offset = stop := by simpa using hoffsets
  rw [hfound] at hfirst
  obtain ⟨hstart, hmatch, -⟩ := hfirst
  have hle := (Matcher.matchAt?_reaches hmatch).offset_le
  rcases Nat.lt_or_ge place.offset s.offset with hlt | hge
  · exact .inr hlt
  · obtain rfl : place = s := hstart.eq_of_offset_eq (Nat.le_antisymm hstart.offset_le hge)
    refine .inl (Nat.le_antisymm hle (Nat.not_lt.1 fun hlt => ?_))
    simp [Matcher.tokenAt?_eq_some_iff.2 ⟨hmatch, hlt⟩] at hnone

end Category

/-! ## No token before the next match -/

namespace Grammar.IsNext

variable {grammar : Grammar} {category : Category} {place q : Cursor}

/-- No category has a token between a place and the next match. -/
theorem tokenAt?_eq_none {next? : Option GrammarMatch} (h : grammar.IsNext place next?)
    (hmem : category ∈ grammar.categories) (hq : place.Reaches q)
    (hbefore : ∀ found ∈ next?, q.offset < found.start.offset) :
    category.matcher.tokenAt? q = none := by
  have hfirst := category.matcher.search?_isFirst place
  cases next? with
  | none =>
    rw [h category hmem] at hfirst
    exact hfirst q hq
  | some found =>
    obtain ⟨i, hi⟩ := List.getElem?_of_mem hmem
    cases hsearch : category.matcher.search? place with
    | none =>
      rw [hsearch] at hfirst
      exact hfirst q hq
    | some match' =>
      obtain ⟨start, stop⟩ := match'
      rw [hsearch] at hfirst
      have hlt := hbefore found rfl
      have hle := h.2 i category start stop hi hsearch
      exact hfirst.2.2 q hq (by omega)

/-- No category declared before that of the next match has a token where it starts. -/
theorem tokenAt?_earlier {found : GrammarMatch} (h : grammar.IsNext place (some found)) {j : Nat}
    (hj : j < found.category) (hcategory : grammar.categories[j]? = some category) :
    category.matcher.tokenAt? found.start = none := by
  have hfirst := category.matcher.search?_isFirst place
  cases hsearch : category.matcher.search? place with
  | none =>
    rw [hsearch] at hfirst
    exact hfirst found.start h.start_reaches
  | some match' =>
    obtain ⟨start, stop⟩ := match'
    rw [hsearch] at hfirst
    have hle := h.2 j category start stop hcategory hsearch
    exact hfirst.2.2 found.start h.start_reaches (by omega)

end Grammar.IsNext

/-! ## What segments say -/

/-- What a segment says of its source.  In a gap, whatever a category finds from a boundary on is
empty or starts later.  A token is the match of the first category that has one where it starts, and
its class is that of its text. -/
def Segment.Meets (grammar : Grammar) (classifier : Classifier) (source : List Char) :
    Segment → Prop
  | gap first last =>
    ∀ offset, IsBoundary source offset → first ≤ offset → offset < last →
      ∀ category ∈ grammar.categories, ∀ start stop,
        category.findAt? source offset = some (start, stop) → start = stop ∨ offset < start
  | token first last class? =>
    (∃ (i : Nat) (category : Category), grammar.categories[i]? = some category ∧
      category.HasToken source first last ∧
      ∀ (j : Nat) (earlier : Category), j < i → grammar.categories[j]? = some earlier →
        ∀ stop, ¬ earlier.HasToken source first stop) ∧
    class? = classifier.classify (slice source first last)

variable {grammar : Grammar} {classifier : Classifier} {source : List Char}

theorem mem_gapBetween {first last : Nat} {segment : Segment}
    (h : segment ∈ gapBetween first last) : segment = .gap first last := by
  unfold gapBetween at h
  split at h
  · exact List.mem_singleton.1 h
  · cases h

/-- A gap from a place up to the next match. -/
theorem Grammar.IsNext.meets_gap {place : Cursor} {next? : Option GrammarMatch} {last : Nat}
    (h : grammar.IsNext place next?) (hplace : (Cursor.start source).Reaches place)
    (hlast : ∀ found ∈ next?, last ≤ found.start.offset) :
    (Segment.gap place.offset last).Meets grammar classifier source := by
  intro offset hboundary hle hlt category hmem start stop hfind
  obtain ⟨q, hq, rfl⟩ := Cursor.isBoundary_iff.1 hboundary
  refine Category.findAt?_of_tokenAt?_eq_none hq (h.tokenAt?_eq_none hmem ?_ ?_) hfind
  · exact hplace.of_le hq hle
  · intro found hfound
    have := hlast found hfound
    omega

theorem slice_eq_text {found : GrammarMatch} (hstart : (Cursor.start source).Reaches found.start) :
    slice source found.start.offset found.stop.offset = found.text := by
  rw [slice, dropBytes_of_reaches hstart]
  rfl

/-- The token of the next match. -/
theorem Grammar.IsNext.meets_token {place : Cursor} {found : GrammarMatch}
    (h : grammar.IsNext place (some found)) (hplace : (Cursor.start source).Reaches place) :
    (Segment.token found.start.offset found.stop.offset (classifier.classify found.text)).Meets
      grammar classifier source := by
  have hstart := hplace.trans h.start_reaches
  obtain ⟨category, hcategory, hfirst⟩ := h.isFirst
  refine ⟨⟨found.category, category, hcategory, ?_, ?_⟩, by rw [slice_eq_text hstart]⟩
  · exact (Category.hasToken_iff hstart).2 ⟨found.stop, hfirst.2.1, rfl⟩
  · intro j earlier hj hearlier stop htoken
    obtain ⟨stop', htoken, -⟩ := (Category.hasToken_iff hstart).1 htoken
    simp [h.tokenAt?_earlier hj hearlier] at htoken

/-- Every segment that a scan emits says what it should of the source. -/
theorem ScanState.Run.meets {state : ScanState} {segments : List Segment}
    (h : state.Run grammar classifier segments) (hinv : state.Inv grammar source) :
    ∀ segment ∈ segments, segment.Meets grammar classifier source := by
  induction h with
  | done hnext =>
    intro segment hmem
    rw [mem_gapBetween hmem]
    exact (hnext ▸ hinv.next?_isNext).meets_gap hinv.reached (by simp)
  | step hnext _ ih =>
    have hisNext := hinv.isNext hnext
    intro segment hmem
    simp only [emitted, List.append_assoc, List.mem_append, List.mem_singleton] at hmem
    rcases hmem with hgap | rfl | hrest
    · rw [mem_gapBetween hgap]
      exact hisNext.meets_gap hinv.reached (by rintro found ⟨⟩; exact Nat.le_refl _)
    · exact hisNext.meets_token hinv.reached
    · exact ih (hinv.behind hnext) segment hrest

/-! ## One list of segments -/

/-- A gap that meets its source does not reach over the start of a token. -/
theorem Segment.Meets.not_hasToken {first last offset stop : Nat} {category : Category}
    (h : (Segment.gap first last).Meets grammar classifier source)
    (hboundary : IsBoundary source offset) (hle : first ≤ offset) (hlt : offset < last)
    (hmem : category ∈ grammar.categories) : ¬ category.HasToken source offset stop := by
  intro htoken
  have := h offset hboundary hle hlt category hmem offset stop htoken.1
  have := htoken.2
  omega

/-- A gap in front of segments that cover the rest of a source ends as late as it can. -/
theorem CoversFrom.gap_le {first last last' : Nat} {rest : List Segment}
    (h : CoversFrom source first (.gap first last :: rest))
    (hmeets : ∀ segment ∈ rest, segment.Meets grammar classifier source)
    (hgap : (Segment.gap first last').Meets grammar classifier source)
    (hlast' : last' ≤ utf8Length source) : last' ≤ last := by
  refine Nat.not_lt.1 fun hlt => ?_
  have hboundary := (h.boundaries _ List.mem_cons_self).2
  have hle : first < last := h.contiguous.2.1
  have hrest := h.contiguous.2.2
  cases rest with
  | nil =>
    have hend : last = utf8Length source := hrest
    omega
  | cons segment rest =>
    cases segment with
    | gap start stop =>
      exact (List.isChain_cons_cons.1 h.separated).1 ⟨rfl, rfl⟩
    | token start stop class? =>
      obtain rfl : start = last := hrest.1
      obtain ⟨⟨i, category, hcategory, htoken, -⟩, -⟩ := hmeets _ List.mem_cons_self
      exact hgap.not_hasToken hboundary (Nat.le_of_lt hle) hlt
        (List.mem_of_getElem? hcategory) htoken

/-- Two tokens with one start are the same token. -/
theorem Segment.Meets.token_eq {first last last' : Nat} {class? class?' : Option TokenClass}
    (h : (Segment.token first last class?).Meets grammar classifier source)
    (h' : (Segment.token first last' class?').Meets grammar classifier source) :
    Segment.token first last class? = .token first last' class?' := by
  obtain ⟨⟨i, category, hcategory, htoken, hearlier⟩, rfl⟩ := h
  obtain ⟨⟨j, category', hcategory', htoken', hearlier'⟩, rfl⟩ := h'
  have hij : i = j := by
    rcases Nat.lt_trichotomy i j with hlt | heq | hgt
    · exact absurd htoken (hearlier' i category hlt hcategory last)
    · exact heq
    · exact absurd htoken' (hearlier j category' hgt hcategory' last')
  subst hij
  obtain rfl : category = category' := by simpa [hcategory] using hcategory'
  obtain rfl : last = last' := by simpa [htoken.1] using htoken'.1
  rfl

/-- Of segments that cover a source from one offset on and meet it, the first one is determined. -/
theorem CoversFrom.head_eq {first : Nat} {x y : Segment} {xs ys : List Segment}
    (hx : CoversFrom source first (x :: xs)) (hy : CoversFrom source first (y :: ys))
    (hxs : ∀ segment ∈ x :: xs, segment.Meets grammar classifier source)
    (hys : ∀ segment ∈ y :: ys, segment.Meets grammar classifier source) : x = y := by
  obtain ⟨hxs₁, hxs₂⟩ := List.forall_mem_cons.1 hxs
  obtain ⟨hys₁, hys₂⟩ := List.forall_mem_cons.1 hys
  have hboundary := (hx.boundaries x List.mem_cons_self).1
  obtain ⟨rfl, hxlt, hxrest⟩ := hx.contiguous
  obtain ⟨hstart, hylt, hyrest⟩ := hy.contiguous
  match x, y with
  | .gap a b, .gap a' b' =>
    obtain rfl : a' = a := hstart
    have hle := hx.gap_le hxs₂ hys₁ hyrest.le
    have hge := hy.gap_le hys₂ hxs₁ hxrest.le
    rw [Nat.le_antisymm hge hle]
  | .gap a b, .token a' b' c =>
    -- The token would start inside the gap, and the other way round below.
    obtain rfl : a' = a := hstart
    obtain ⟨⟨i, category, hcategory, htoken, -⟩, -⟩ := hys₁
    have hmem := List.mem_of_getElem? hcategory
    exact absurd htoken (hxs₁.not_hasToken hboundary (Nat.le_refl _) hxlt hmem)
  | .token a b c, .gap a' b' =>
    obtain rfl : a' = a := hstart
    obtain ⟨⟨i, category, hcategory, htoken, -⟩, -⟩ := hxs₁
    have hmem := List.mem_of_getElem? hcategory
    exact absurd htoken (hys₁.not_hasToken hboundary (Nat.le_refl _) hylt hmem)
  | .token a b c, .token a' b' c' =>
    obtain rfl : a' = a := hstart
    exact hxs₁.token_eq hys₁

/-- Segments that cover a source and meet it are determined. -/
theorem CoversFrom.unique {first : Nat} {xs ys : List Segment} (hx : CoversFrom source first xs)
    (hy : CoversFrom source first ys)
    (hxs : ∀ segment ∈ xs, segment.Meets grammar classifier source)
    (hys : ∀ segment ∈ ys, segment.Meets grammar classifier source) : xs = ys := by
  induction xs generalizing first ys with
  | nil =>
    cases ys with
    | nil => rfl
    | cons y ys => exact absurd hx.contiguous (Nat.ne_of_lt hy.first_lt)
  | cons x xs ih =>
    cases ys with
    | nil => exact absurd hy.contiguous (Nat.ne_of_lt hx.first_lt)
    | cons y ys =>
      obtain rfl := hx.head_eq hy hxs hys
      have hxs' := (List.forall_mem_cons.1 hxs).2
      have hys' := (List.forall_mem_cons.1 hys).2
      rw [ih hx.tail hy.tail hxs' hys']

/-- No token starts at the end of a source. -/
theorem Category.HasToken.first_lt {category : Category} {first last : Nat}
    (h : category.HasToken source first last) (hboundary : IsBoundary source first) :
    first < utf8Length source := by
  obtain ⟨place, hplace, rfl⟩ := Cursor.isBoundary_iff.1 hboundary
  obtain ⟨stop, htoken, -⟩ := (Category.hasToken_iff hplace).1 h
  obtain ⟨hmatch, hlt⟩ := Matcher.tokenAt?_eq_some_iff.1 htoken
  have hend := (hplace.trans (Matcher.matchAt?_reaches hmatch)).end_eq
  simp only [Cursor.start] at hend
  omega

/-- A token that meets its source is in the scan, unless one that started before reaches over its
start. -/
theorem mem_scan_of_meets {first last : Nat} {class? : Option TokenClass}
    (h : (Segment.token first last class?).Meets grammar classifier source)
    (hboundary : IsBoundary source first)
    (hfree : ∀ start stop other?, Segment.token start stop other? ∈
      scan grammar classifier source → ¬ (start < first ∧ first < stop)) :
    Segment.token first last class? ∈ scan grammar classifier source := by
  have hmeets := (scan_run grammar classifier source).meets (.start grammar source)
  obtain ⟨⟨i, category, hcategory, htoken, -⟩, -⟩ := id h
  obtain ⟨segment, hmem, hstart, hstop⟩ :=
    (covers_scan grammar classifier source).contiguous.exists_mem (Nat.zero_le first)
      (htoken.first_lt hboundary)
  have hsegment := hmeets segment hmem
  cases segment with
  | gap start stop =>
    exact absurd htoken (hsegment.not_hasToken hboundary hstart hstop
      (List.mem_of_getElem? hcategory))
  | token start stop other? =>
    have hnot := hfree start stop other? hmem
    obtain rfl : start = first := by
      simp only [Segment.start, Segment.stop] at hstart hstop
      omega
    exact h.token_eq hsegment ▸ hmem

/-- **Earliest start, then declared order, and nothing missed.**  The segments of a scan are the
only ones that cover the source and meet it: no category has a token at any boundary inside a gap,
and a token is the match of the first category that has one where it starts, with the class of its
text. -/
theorem eq_scan_iff (grammar : Grammar) (classifier : Classifier) (source : List Char)
    (segments : List Segment) :
    segments = scan grammar classifier source ↔
      Covers source segments ∧
        ∀ segment ∈ segments, segment.Meets grammar classifier source := by
  have hcovers := covers_scan grammar classifier source
  have hmeets := (scan_run grammar classifier source).meets (.start grammar source)
  constructor
  · rintro rfl
    exact ⟨hcovers, hmeets⟩
  · rintro ⟨hcovers', hmeets'⟩
    exact hcovers'.unique hcovers hmeets' hmeets

end CodeMarkup
