import CodeMarkup.Proofs.Scan.Preference

/-!
# The token at a place

A grammar has at most one token at a place, that of the first category that has one there.  A scan
takes it wherever it comes to such a place, so each segment says something of the places where it
begins or that it covers.

* `Grammar.tokenAt?` — where the token of a grammar at a place ends.
* `Grammar.IsNext.tokenAt?_start` — the next match is the token where it starts.
* `token_of_mem_scan` — a token of a scan is that of the grammar where it starts.
* `tokenAt?_of_gap_mem_scan` — no token starts in a gap, but one does where it ends
  (`exists_tokenAt?_of_gap_mem_scan`).
-/

namespace CodeMarkup

/-- The end of the token of a grammar at a place: that of the first category that has one there. -/
def Grammar.tokenAt? (grammar : Grammar) (place : Cursor) : Option Cursor :=
  grammar.categories.findSome? fun category => category.matcher.tokenAt? place

namespace Grammar

variable {grammar : Grammar} {place stop : Cursor}

theorem tokenAt?_eq_none_iff : grammar.tokenAt? place = none ↔
    ∀ category ∈ grammar.categories, category.matcher.tokenAt? place = none := by
  simp [tokenAt?]

theorem exists_of_tokenAt? (h : grammar.tokenAt? place = some stop) :
    ∃ category ∈ grammar.categories, category.matcher.tokenAt? place = some stop :=
  List.exists_of_findSome?_eq_some h

theorem tokenAt?_reaches (h : grammar.tokenAt? place = some stop) :
    place.Reaches stop ∧ place.offset < stop.offset := by
  obtain ⟨category, -, htoken⟩ := exists_of_tokenAt? h
  obtain ⟨hmatch, hlt⟩ := Matcher.tokenAt?_eq_some_iff.1 htoken
  exact ⟨Matcher.matchAt?_reaches hmatch, hlt⟩

/-- There is no token at the end of the text. -/
theorem tokenAt?_of_rest_nil (hrest : place.rest = []) : grammar.tokenAt? place = none := by
  cases htoken : grammar.tokenAt? place with
  | none => rfl
  | some stop =>
    obtain ⟨hreaches, hlt⟩ := tokenAt?_reaches htoken
    have hlength := hreaches.length_lt hlt
    simp [hrest] at hlength

/-- The first category that has a token at a place makes the token of the grammar. -/
theorem tokenAt?_eq_some_of_first {i : Nat} {category : Category}
    (hcategory : grammar.categories[i]? = some category)
    (htoken : category.matcher.tokenAt? place = some stop)
    (hearlier : ∀ (j : Nat) (earlier : Category), j < i →
      grammar.categories[j]? = some earlier → earlier.matcher.tokenAt? place = none) :
    grammar.tokenAt? place = some stop := by
  obtain ⟨hi, rfl⟩ := List.getElem?_eq_some_iff.1 hcategory
  refine List.findSome?_eq_some_iff.2 ⟨grammar.categories.take i, grammar.categories[i],
    grammar.categories.drop (i + 1), by simp, htoken, ?_⟩
  intro earlier hmem
  obtain ⟨j, hj⟩ := List.getElem?_of_mem hmem
  obtain ⟨hlt, hget⟩ : j < i ∧ grammar.categories[j]? = some earlier := by
    simpa [List.getElem?_take] using hj
  exact hearlier j earlier hlt hget

/-- The next match is the token where it starts. -/
theorem IsNext.tokenAt?_start {found : GrammarMatch} (h : grammar.IsNext place (some found)) :
    grammar.tokenAt? found.start = some found.stop := by
  obtain ⟨category, hcategory, hfirst⟩ := h.isFirst
  refine tokenAt?_eq_some_of_first hcategory hfirst.2.1 ?_
  intro j earlier hj hearlier
  exact h.tokenAt?_earlier hj hearlier

/-- There is no token before the next match. -/
theorem IsNext.tokenAt?_before {next? : Option GrammarMatch} (h : grammar.IsNext place next?)
    {q : Cursor} (hq : place.Reaches q)
    (hbefore : ∀ found ∈ next?, q.offset < found.start.offset) : grammar.tokenAt? q = none := by
  rw [tokenAt?_eq_none_iff]
  intro category hmem
  exact h.tokenAt?_eq_none hmem hq hbefore

end Grammar

/-! ## What segments say of places -/

section

variable {grammar : Grammar} {classifier : Classifier} {source : List Char}

/-- A token of a scan leads from the place where it starts over its text, and it is the token of the
grammar there. -/
theorem token_of_mem_scan {first last : Nat} {class? : Option TokenClass}
    (h : Segment.token first last class? ∈ scan grammar classifier source) :
    ∃ place stop text, (Cursor.start source).Reaches place ∧ place.offset = first ∧
      stop.offset = last ∧ place.Passes text stop ∧ slice source first last = text ∧
      grammar.tokenAt? place = some stop ∧ class? = classifier.classify text := by
  obtain ⟨⟨i, category, hcategory, htoken, hearlier⟩, hclass⟩ :=
    (scan_run grammar classifier source).meets (.start grammar source) _ h
  obtain ⟨hfirst, -⟩ := (covers_scan grammar classifier source).boundaries _ h
  obtain ⟨place, stop, text, hplace, rfl, rfl, htext, hslice, hstop⟩ := htoken.exists_passes hfirst
  refine ⟨place, stop, text, hplace, rfl, rfl, htext, hslice, ?_, hslice ▸ hclass⟩
  refine Grammar.tokenAt?_eq_some_of_first hcategory hstop fun j earlier hj hget => ?_
  cases hother : earlier.matcher.tokenAt? place with
  | none => rfl
  | some stop' =>
    have htoken' := (Category.hasToken_iff hplace).2 ⟨stop', hother, rfl⟩
    exact absurd htoken' (hearlier j earlier hj hget stop'.offset)

/-- No token starts in a gap. -/
theorem tokenAt?_of_gap_mem_scan {first last : Nat}
    (h : Segment.gap first last ∈ scan grammar classifier source) {place : Cursor}
    (hplace : (Cursor.start source).Reaches place) (hfirst : first ≤ place.offset)
    (hlast : place.offset < last) : grammar.tokenAt? place = none := by
  have hmeets := (scan_run grammar classifier source).meets (.start grammar source) _ h
  rw [Grammar.tokenAt?_eq_none_iff]
  intro category hmem
  cases htoken : category.matcher.tokenAt? place with
  | none => rfl
  | some stop =>
    have hhas := (Category.hasToken_iff hplace).2 ⟨stop, htoken, rfl⟩
    exact absurd hhas (hmeets.not_hasToken hplace.isBoundary hfirst hlast hmem)

/-- A token begins where a gap ends, unless it ends with the source. -/
theorem exists_tokenAt?_of_gap_mem_scan {first last : Nat}
    (h : Segment.gap first last ∈ scan grammar classifier source) {place : Cursor}
    (hplace : (Cursor.start source).Reaches place) (hlast : place.offset = last)
    (hrest : place.rest ≠ []) : ∃ stop, grammar.tokenAt? place = some stop := by
  have hlt : last < utf8Length source := by
    have hend := hplace.end_eq
    have hpos := mt utf8Length_eq_zero_iff.1 hrest
    simp only [Cursor.start] at hend
    omega
  obtain ⟨next, hnext, hmeet, hgaps⟩ :=
    (covers_scan grammar classifier source).exists_next h hlt
  cases next with
  | gap start stop => exact absurd ⟨rfl, rfl⟩ hgaps
  | token start stop class? =>
    obtain ⟨q, stop', -, hq, hstart, -, -, -, htoken, -⟩ := token_of_mem_scan hnext
    obtain rfl : q = place := hq.eq_of_offset hplace (hstart.trans (hmeet.trans hlast.symm))
    exact ⟨stop', htoken⟩

end

end CodeMarkup
