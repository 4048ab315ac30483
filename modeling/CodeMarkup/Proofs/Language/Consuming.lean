import CodeMarkup.Proofs.Language.Ties
import CodeMarkup.Proofs.Language.Written
import CodeMarkup.Proofs.Scan.Successive

/-!
# The built-in languages consume text

The scan steps over empty matches, and the search of a grammar passes over a category whose first
match is empty.  Neither ever happens in a built-in language: every pattern of one has a part that
has to take a character, so that no category finds the empty text, whatever the source.

* `Matcher.StepsOver` — a search begins with an empty match that it has to step over.
* `Grammar.IsEarliestAt` — the earliest match at an offset, chosen among those of all categories.
* `Grammar.ConsumesText` — no category of a grammar finds the empty text, and what follows for the
  scan and for the search.  It holds of every grammar of patterns that are not nullable
  (`Grammar.consumesText_of_named`).
-/

namespace CodeMarkup

/-- The first match that a search from a place meets is empty. -/
def Matcher.StepsOver (m : Matcher) (place : Cursor) : Prop :=
  ∃ start stop, m.find? place = some (start, stop) ∧ ¬ start.offset < stop.offset

namespace Grammar

/-- The earliest match at or after an offset, with no category left out.  There is none only if no
category finds anything.  Else it is what a category finds, and no other finds anything that starts
before it, or at the same offset if that category was declared before. -/
def IsEarliestAt (grammar : Grammar) (text : List Char) (offset : Nat) :
    Option GrammarMatch → Prop
  | none => ∀ category ∈ grammar.categories, category.findAt? text offset = none
  | some found =>
    (∃ category, grammar.categories[found.category]? = some category ∧
      category.findAt? text offset = some (found.start.offset, found.stop.offset)) ∧
    ∀ (i : Nat) (category : Category) (first last : Nat),
      grammar.categories[i]? = some category →
      category.findAt? text offset = some (first, last) →
        found.start.offset < first ∨ found.start.offset = first ∧ found.category ≤ i

/-- The categories of a grammar consume text. -/
structure ConsumesText (grammar : Grammar) : Prop where
  /-- A category finds nothing, or a match that is not empty. -/
  found : ∀ category ∈ grammar.categories, ∀ (text : List Char) (offset : Nat),
    category.findAt? text offset = none ∨
      ∃ first last, category.findAt? text offset = some (first, last) ∧ first < last
  /-- Wherever a scan comes to, no search steps over an empty match. -/
  scanned : ∀ source state, ScanState.Visits grammar source state →
    ∀ category ∈ grammar.categories, ¬ category.matcher.StepsOver state.place
  /-- A search leaves no category out. -/
  searched : ∀ text offset, grammar.IsEarliestAt text offset (grammar.findAt? text offset)

variable {grammar : Grammar} {source : List Char}

/-! ## What follows if no category finds the empty text -/

theorem NeverEmptyIn.findAt?_lt (h : grammar.NeverEmptyIn source) {category : Category}
    (hmem : category ∈ grammar.categories) {offset first last : Nat}
    (hfind : category.findAt? source offset = some (first, last)) : first < last := by
  have hne : first ≠ last := h category hmem offset first last hfind
  obtain ⟨start, stop, -, hmatch, rfl, rfl⟩ := Category.exists_of_findAt? hfind
  have hle := (Matcher.matchAt?_reaches hmatch).offset_le
  omega

theorem NeverEmptyIn.not_stepsOver (h : grammar.NeverEmptyIn source) {place : Cursor}
    (hplace : (Cursor.start source).Reaches place) {category : Category}
    (hmem : category ∈ grammar.categories) : ¬ category.matcher.StepsOver place := by
  rintro ⟨start, stop, hfind, hempty⟩
  exact hempty (h.find?_lt hplace hmem hfind)

/-- Where no category finds the empty text, the search of a grammar leaves none out. -/
theorem NeverEmptyIn.isEarliestAt (h : grammar.NeverEmptyIn source) (offset : Nat) :
    grammar.IsEarliestAt source offset (grammar.findAt? source offset) := by
  unfold findAt?
  cases hseek : Cursor.seek? source offset with
  | none =>
    intro category _
    simp [Category.findAt?, hseek]
  | some place =>
    have hplace := Cursor.seek?_reaches hseek
    have hnext := find?_isNext h hplace
    -- a search that steps over nothing finds what the category finds at the offset
    have hsearch : ∀ category ∈ grammar.categories, category.findAt? source offset =
        (category.matcher.search? place).map fun found => (found.1.offset, found.2.offset) := by
      intro category hmem
      rw [Matcher.search?_eq_find? fun start stop => h.find?_lt hplace hmem]
      exact Category.findAt?_of_seek? hseek
    rw [Option.bind_some]
    cases hfind : grammar.find? place with
    | none =>
      rw [hfind] at hnext
      intro category hmem
      rw [hsearch category hmem, hnext category hmem]
      rfl
    | some found =>
      rw [hfind] at hnext
      obtain ⟨⟨category, hcategory, hsome⟩, hleast⟩ := hnext
      refine ⟨⟨category, hcategory, ?_⟩, ?_⟩
      · rw [hsearch category (List.mem_of_getElem? hcategory), hsome]
        rfl
      · intro i other first last hother hfirst
        rw [hsearch other (List.mem_of_getElem? hother)] at hfirst
        obtain ⟨⟨start, stop⟩, hsome', heq⟩ := Option.map_eq_some_iff.1 hfirst
        cases heq
        exact hleast i other start stop hother hsome'

/-- A grammar consumes text if no category finds the empty text in any source. -/
theorem consumesText_of_neverEmptyIn (h : ∀ source, grammar.NeverEmptyIn source) :
    grammar.ConsumesText where
  found category hmem text offset := by
    cases hfind : category.findAt? text offset with
    | none => exact .inl rfl
    | some found => exact .inr ⟨found.1, found.2, rfl, (h text).findAt?_lt hmem hfind⟩
  scanned source state hvisits category hmem :=
    (h source).not_stepsOver hvisits.inv.reached hmem
  searched text offset := (h text).isEarliestAt offset

/-- A grammar of patterns that are not nullable consumes text. -/
theorem consumesText_of_named (named : List (String × Pattern))
    (hgrammar : grammar.categories = named.map fun pair => .ofPattern pair.1 pair.2)
    (hnullable : ∀ pair ∈ named, pair.2.nullable = false) : grammar.ConsumesText := by
  refine consumesText_of_neverEmptyIn fun source => neverEmptyIn_of_nullable ?_ source
  intro category hmem
  rw [hgrammar] at hmem
  obtain ⟨pair, hpair, rfl⟩ := List.mem_map.1 hmem
  exact ⟨pair.2, rfl, hnullable pair hpair⟩

end Grammar

/-- **The built-in languages consume text.**  The patterns of PHP and Bash are accepted as they are
written, and in every text and from every offset on, a category of theirs finds nothing or a match
that is not empty.  So no scan in these languages ever steps over an empty match, and the search for
the earliest match leaves out none of their categories. -/
theorem Language.builtin_consumesText :
    readBuiltin = .ok [php, bash] ∧ php.grammar.ConsumesText ∧ bash.grammar.ConsumesText :=
  ⟨readBuiltin_eq, Grammar.consumesText_of_named Php.named rfl (by decide),
    Grammar.consumesText_of_named Bash.named rfl (by decide)⟩

end CodeMarkup
