import CodeMarkup.Language.Basic
import CodeMarkup.Proofs.Grammar.Accepted
import CodeMarkup.Proofs.Scan.Preference
import CodeMarkup.Proofs.Scan.Reference

/-!
# Searching again behind every match

A grammar can be searched without a scan: find its earliest match, go on behind it, and so on until
there is none.  Such a search remembers nothing and steps over no empty match; a category whose
first match is empty does not take part in it at all.  In a source where no category finds the
empty text, it comes to the tokens of the scan.

* `Grammar.Successive` — the matches found one after the other from an offset on.
* `withGaps` — the segments that matches and the gaps between them make of a source.
* `Grammar.find?_isNext` — where no category finds the empty text, the earliest match of a grammar
  is the next match of the scan.
* `FreshRun.successive` — what the scan emits is made of successive matches.
-/

namespace CodeMarkup

/-! ## Matches one after the other -/

/-- The matches of a grammar from an offset on, where each search starts at the end of the match
before, until there is none. -/
inductive Grammar.Successive (grammar : Grammar) (source : List Char) :
    Nat → List GrammarMatch → Prop
  /-- There is no match any more. -/
  | done {offset : Nat} (h : grammar.findAt? source offset = none) :
      Successive grammar source offset []
  /-- The search goes on at the end of the next match. -/
  | step {offset : Nat} {found : GrammarMatch} {rest : List GrammarMatch}
      (h : grammar.findAt? source offset = some found)
      (later : Successive grammar source found.stop.offset rest) :
      Successive grammar source offset (found :: rest)

/-- The segments of a source from an offset on, where matches give the tokens and the text between
them the gaps. -/
def withGaps (classifier : Classifier) (source : List Char) : Nat → List GrammarMatch → List Segment
  | first, [] => gapBetween first (utf8Length source)
  | first, found :: rest =>
    gapBetween first found.start.offset ++
      .token found.start.offset found.stop.offset (classifier.classify found.text) ::
        withGaps classifier source found.stop.offset rest

/-- No category of a grammar finds the empty text in a source, wherever the search starts. -/
def Grammar.NeverEmptyIn (grammar : Grammar) (source : List Char) : Prop :=
  ∀ category ∈ grammar.categories, ∀ offset start stop,
    category.findAt? source offset = some (start, stop) → start ≠ stop

/-- Categories of patterns that are not nullable find the empty text nowhere. -/
theorem Grammar.neverEmptyIn_of_nullable {grammar : Grammar}
    (h : ∀ category ∈ grammar.categories, ∃ p, category = .ofPattern category.name p ∧
      p.nullable = false) (source : List Char) : grammar.NeverEmptyIn source := by
  intro category hmem offset first last hfind heq
  obtain ⟨p, hp, hnullable⟩ := h category hmem
  obtain ⟨start, stop, -, hmatch, rfl, rfl⟩ := Category.exists_of_findAt? hfind
  rw [hp] at hmatch
  have hleads := Pattern.leads_of_matchAt? hmatch
  obtain rfl : start = stop := hleads.reaches.eq_of_offset_eq heq
  simp [hleads.nullable] at hnullable

variable {grammar : Grammar} {classifier : Classifier} {source : List Char} {place : Cursor}

/-- Successive matches are determined. -/
theorem Grammar.Successive.unique {offset : Nat} {first second : List GrammarMatch}
    (h₁ : grammar.Successive source offset first) (h₂ : grammar.Successive source offset second) :
    first = second := by
  induction h₁ generalizing second with
  | done hnone =>
    cases h₂ with
    | done => rfl
    | step hsome => simp [hnone] at hsome
  | step hsome _ ih =>
    cases h₂ with
    | done hnone => simp [hnone] at hsome
    | step hsome' later' =>
      obtain rfl := Option.some.inj (hsome.symm.trans hsome')
      rw [ih later']

/-! ## Searches that find no empty match -/

/-- A search whose first match is not empty has nothing to step over. -/
theorem Matcher.search?_eq_find? {m : Matcher}
    (h : ∀ start stop, m.find? place = some (start, stop) → start.offset < stop.offset) :
    m.search? place = m.find? place := by
  rw [search?, searchWithin]
  cases hfind : m.find? place with
  | none => rfl
  | some found => simp only [if_pos (h found.1 found.2 hfind)]

/-- Where no category finds the empty text, what one finds from a place of the source on is not
empty. -/
theorem Grammar.NeverEmptyIn.find?_lt (h : grammar.NeverEmptyIn source)
    (hplace : (Cursor.start source).Reaches place) {category : Category}
    (hmem : category ∈ grammar.categories) {start stop : Cursor}
    (hfind : category.matcher.find? place = some (start, stop)) : start.offset < stop.offset := by
  have hne : start.offset ≠ stop.offset := by
    refine h category hmem place.offset start.offset stop.offset ?_
    rw [Category.findAt?_eq hplace, hfind, Option.map_some]
  have hfirst := category.matcher.find?_isFirst place
  rw [hfind] at hfirst
  have hle := (Matcher.matchAt?_reaches hfirst.2.1).offset_le
  omega

/-- Of a category that has no empty match at a place, the earliest match of a grammar takes what the
scan would remember. -/
theorem Grammar.better_eq {category : Category} (best? : Option GrammarMatch) (i : Nat)
    (h : ∀ start stop, category.matcher.find? place = some (start, stop) →
      start.offset < stop.offset) :
    Grammar.better place best? (category, i) =
      Lookahead.better best? (Lookahead.search category place, i) := by
  unfold Grammar.better Lookahead.search
  rw [Matcher.search?_eq_find? h]
  cases hfind : category.matcher.find? place with
  | none => rfl
  | some found =>
    obtain ⟨start, stop⟩ := found
    have hne : (start.offset == stop.offset) = false := by
      have := h start stop hfind
      simp
      omega
    simp only [hne, Bool.false_eq_true, if_false]
    rfl

/-- Where no category finds the empty text, the earliest match of a grammar is the earliest of new
searches for all categories. -/
theorem Grammar.find?_eq_earliest (h : grammar.NeverEmptyIn source)
    (hplace : (Cursor.start source).Reaches place) :
    grammar.find? place = Lookahead.earliest (Lookahead.searchAll grammar place) := by
  rw [find?, Lookahead.earliest, Lookahead.searchAll, List.zipIdx_map, List.foldl_map]
  refine List.foldl_ext _ _ _ fun best? entry hentry => ?_
  have hmem := List.fst_mem_of_mem_zipIdx hentry
  exact better_eq best? entry.2 fun start stop => h.find?_lt hplace hmem

/-- Where no category finds the empty text, the earliest match of a grammar is the next match of the
scan. -/
theorem Grammar.find?_isNext (h : grammar.NeverEmptyIn source)
    (hplace : (Cursor.start source).Reaches place) :
    grammar.IsNext place (grammar.find? place) := by
  have hearliest := Lookahead.earliest_isEarliest (Lookahead.searchAll grammar place)
  rw [← find?_eq_earliest h hplace] at hearliest
  exact hearliest.isNext

/-- The offset of a place finds the earliest match from the place on. -/
theorem Grammar.findAt?_eq (hplace : (Cursor.start source).Reaches place) :
    grammar.findAt? source place.offset = grammar.find? place := by
  rw [findAt?, Cursor.seek?_of_reaches hplace, Option.bind_some]

/-! ## The scan and the search -/

/-- What the scan emits from a place on is made of the matches that follow each other from there. -/
theorem FreshRun.successive {segments : List Segment} (hnever : grammar.NeverEmptyIn source)
    (hplace : (Cursor.start source).Reaches place)
    (h : FreshRun grammar classifier place segments) :
    ∃ found, grammar.Successive source place.offset found ∧
      segments = withGaps classifier source place.offset found := by
  induction h with
  | @done place hnone =>
    have hfind : grammar.find? place = none := (Grammar.find?_isNext hnever hplace).unique hnone
    have hend : place.offset + utf8Length place.rest = utf8Length source := by
      rw [hplace.end_eq]
      simp [Cursor.start]
    refine ⟨[], .done ?_, ?_⟩
    · rw [Grammar.findAt?_eq hplace, hfind]
    · rw [lastGap, hend]
      rfl
  | @step place next rest hnext _ ih =>
    have hfind : grammar.find? place = some next :=
      (Grammar.find?_isNext hnever hplace).unique hnext
    obtain ⟨found, hfound, rfl⟩ := ih (hplace.trans hnext.stop_reaches)
    refine ⟨next :: found, .step ?_ hfound, ?_⟩
    · rw [Grammar.findAt?_eq hplace, hfind]
    · rw [emitted, List.append_assoc]
      rfl

/-- **A scan and a search that starts again behind every match agree.**  If no category finds the
empty text in a source, the search comes to an end, with one list of matches, and for every
classifier the segments of the scan are these matches, with the classes of their texts, and the
gaps between them. -/
theorem scan_eq_withGaps (grammar : Grammar) (source : List Char)
    (h : grammar.NeverEmptyIn source) :
    ∃ found, (∀ other, grammar.Successive source 0 other ↔ other = found) ∧
      ∀ classifier, scan grammar classifier source = withGaps classifier source 0 found := by
  have hagree : ∀ classifier, ∃ found, grammar.Successive source 0 found ∧
      scan grammar classifier source = withGaps classifier source 0 found := by
    intro classifier
    have hrun := (scan_run grammar classifier source).fresh (.start grammar source)
    exact hrun.successive h (.refl (Cursor.start source))
  obtain ⟨found, hfound, -⟩ := hagree {}
  refine ⟨found, fun other => ⟨fun hother => hother.unique hfound, ?_⟩, fun classifier => ?_⟩
  · rintro rfl
    exact hfound
  · obtain ⟨found', hfound', hscan⟩ := hagree classifier
    rw [hscan, hfound'.unique hfound]

/-- A quote inside a string opens no other string, for the scan and for the search. -/
theorem scan_eq_withGaps_quotes :
    ∃ (grammar : Grammar) (source : List Char) (found : List GrammarMatch),
      grammar = ⟨[.ofPattern "string" Pattern.stringLiteral,
        .ofPattern "number" (.many1 (.set .asciiDigit))]⟩ ∧
      source = "1 \"2'\" 3 '4".toList ∧
      grammar.NeverEmptyIn source ∧ grammar.Successive source 0 found ∧
      withGaps ⟨[(.startsWithDigit, some .number)], some .string⟩ source 0 found =
        [.token 0 1 (some .number), .gap 1 2, .token 2 6 (some .string), .gap 6 7,
          .token 7 8 (some .number), .gap 8 10, .token 10 11 (some .number)] := by
  let grammar : Grammar := ⟨[.ofPattern "string" Pattern.stringLiteral,
    .ofPattern "number" (.many1 (.set .asciiDigit))]⟩
  let source := "1 \"2'\" 3 '4".toList
  have hnever : grammar.NeverEmptyIn source := by
    refine Grammar.neverEmptyIn_of_nullable (fun category hmem => ?_) source
    simp only [grammar, List.mem_cons, List.not_mem_nil, or_false] at hmem
    rcases hmem with rfl | rfl
    · exact ⟨_, rfl, by decide⟩
    · exact ⟨_, rfl, by decide⟩
  obtain ⟨found, hfound, hscan⟩ := scan_eq_withGaps grammar source hnever
  refine ⟨grammar, source, found, rfl, rfl, hnever, (hfound found).2 rfl, ?_⟩
  rw [← hscan]
  decide +kernel

end CodeMarkup
