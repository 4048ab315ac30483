import Mathlib.Data.List.Infix
import CodeMarkup.Page.RuleFilter

/-!
# What a search term shows

Every search sets each flag of a page anew.  What a page shows is therefore decided by the last term
alone, whatever was typed before, and every count of visible cards is the same number.

* `isPiece_iff_isInfix` — the search for a piece of a text finds every piece and no other text.
* `RuleFilter.Shows` — the flags that belong to a term; one search brings them about
  (`RuleFilter.shows_apply`).
* `RuleFilter.search_after` — a search forgets the searches before it.
* `RuleFilter.search_after_terms` — what a page shows after a history of terms.
-/

namespace CodeMarkup

/-! ## Pieces of a text -/

/-- The search for a piece is the relation of being a piece. -/
theorem isPiece_iff_isInfix {piece text : List Char} :
    isPiece piece text = true ↔ piece <:+: text := by
  induction text with
  | nil => simp [isPiece]
  | cons c rest ih =>
    rw [isPiece, Bool.or_eq_true, List.isPrefixOf_iff_prefix, ih, List.infix_cons_iff]

namespace RuleCard

/-- Whether a card contains a term, said of its text. -/
theorem contains_iff {card : RuleCard} {term : List Char} :
    card.contains term = true ↔ term = [] ∨ term <:+: card.haystack := by
  rw [contains, Bool.or_eq_true, List.isEmpty_iff, isPiece_iff_isInfix]

/-- A card can be seen after a search exactly if it contains the term. -/
theorem hidden_filter_iff {card : RuleCard} {term : List Char} :
    (card.filter term).hidden = false ↔ term = [] ∨ term <:+: card.haystack := by
  rw [← contains_iff, filter, Bool.not_eq_false']

end RuleCard

namespace Ruleset

/-- Filtering a ruleset forgets how it was filtered before. -/
theorem filter_filter (ruleset : Ruleset) (first last : List Char) :
    (ruleset.filter first).filter last = ruleset.filter last := by
  simp [filter, RuleCard.filter, RuleCard.contains, Function.comp_def]

theorem hidden_filter_iff {ruleset : Ruleset} {term : List Char} :
    (ruleset.filter term).hidden = true ↔
      ∀ card ∈ (ruleset.filter term).cards, card.hidden = true := by
  rw [filter, List.all_eq_true]

/-- A ruleset without a visible card has none to count. -/
theorem visibleCount_eq_zero_iff {ruleset : Ruleset} :
    ruleset.visibleCount = 0 ↔ ∀ card ∈ ruleset.cards, card.hidden = true := by
  simp [visibleCount, List.countP_eq_zero]

end Ruleset

namespace RuleFilter

/-! ## What is shown, and what stays -/

/-- The cards of a page, in order. -/
def cards (filter : RuleFilter) : List RuleCard := filter.rulesets.flatMap Ruleset.cards

/-- The names and the texts of a page, in order: all of it but the flags. -/
def contents (filter : RuleFilter) : List (String × List (String × List Char)) :=
  filter.rulesets.map fun ruleset =>
    (ruleset.id, ruleset.cards.map fun card => (card.id, card.haystack))

/-- The flags of a page belong to a term: the cards to be seen are those that contain it, and the
rulesets that are hidden are those without a card to be seen. -/
structure Shows (filter : RuleFilter) (term : List Char) : Prop where
  card : ∀ ruleset ∈ filter.rulesets, ∀ card ∈ ruleset.cards,
    (card.hidden = false ↔ term = [] ∨ term <:+: card.haystack)
  ruleset : ∀ ruleset ∈ filter.rulesets,
    (ruleset.hidden = true ↔ ∀ card ∈ ruleset.cards, card.hidden = true)

/-- One search sets all flags. -/
theorem shows_apply (filter : RuleFilter) (term : List Char) :
    (filter.apply term).Shows (searchTerm term) where
  card := by
    intro ruleset hruleset card hcard
    obtain ⟨old, -, rfl⟩ := List.mem_map.1 hruleset
    obtain ⟨oldCard, -, rfl⟩ := List.mem_map.1 hcard
    exact RuleCard.hidden_filter_iff
  ruleset := by
    intro ruleset hruleset
    obtain ⟨old, -, rfl⟩ := List.mem_map.1 hruleset
    exact Ruleset.hidden_filter_iff

theorem contents_apply (filter : RuleFilter) (term : List Char) :
    (filter.apply term).contents = filter.contents := by
  simp [contents, apply, Ruleset.filter, RuleCard.filter, Function.comp_def]

theorem apply_apply (filter : RuleFilter) (first last : List Char) :
    (filter.apply first).apply last = filter.apply last := by
  simp only [apply, List.map_map, Function.comp_def, Ruleset.filter_filter]

/-! ## Counting -/

/-- The count of a page is that of the cards in all its rulesets. -/
theorem visibleCount_eq_countP (filter : RuleFilter) :
    filter.visibleCount = filter.cards.countP fun card => !card.hidden := by
  obtain ⟨rulesets⟩ := filter
  induction rulesets with
  | nil => rfl
  | cons ruleset rest ih =>
    show ruleset.visibleCount + visibleCount ⟨rest⟩ = _
    rw [ih, cards, cards, List.flatMap_cons, List.countP_append, Ruleset.visibleCount]

/-- Rulesets that are hidden only for want of visible cards take none away. -/
theorem countP_visible_rulesets {rulesets : List Ruleset}
    (h : ∀ ruleset ∈ rulesets,
      (ruleset.hidden = true ↔ ∀ card ∈ ruleset.cards, card.hidden = true)) :
    ((rulesets.filter fun ruleset => !ruleset.hidden).flatMap Ruleset.cards).countP
        (fun card => !card.hidden) =
      (rulesets.flatMap Ruleset.cards).countP fun card => !card.hidden := by
  induction rulesets with
  | nil => rfl
  | cons ruleset rest ih =>
    obtain ⟨hruleset, hrest⟩ := List.forall_mem_cons.1 h
    rw [List.flatMap_cons, List.countP_append, ← ih hrest]
    by_cases hhidden : ruleset.hidden = true
    · have hzero : ruleset.visibleCount = 0 :=
        Ruleset.visibleCount_eq_zero_iff.2 (hruleset.1 hhidden)
      rw [Ruleset.visibleCount] at hzero
      rw [List.filter_cons_of_neg (by simpa using hhidden), hzero, Nat.zero_add]
    · rw [List.filter_cons_of_pos (by simpa using hhidden), List.flatMap_cons, List.countP_append]

/-! ## Histories of terms -/

/-- A page after terms that have been typed one after the other. -/
def after (filter : RuleFilter) (terms : List (List Char)) : RuleFilter :=
  terms.foldl (fun filter term => (filter.search term).1) filter

/-- A search forgets the searches before it. -/
theorem search_after (filter : RuleFilter) (terms : List (List Char)) (last : List Char) :
    (filter.after terms).search last = filter.search last := by
  induction terms generalizing filter with
  | nil => rfl
  | cons term terms ih =>
    show ((filter.apply term).after terms).search last = filter.search last
    rw [ih, search, search, apply_apply]

/-- **Filtering depends on the last term alone.**  After any terms and a last one, the cards to be
seen are those that contain the last term, trimmed and in lower case, and the hidden rulesets are
those without such a card.  The answer of the search, the count of the page and the line that shows
it are the number of visible cards, which are all in visible rulesets.  Nothing but the flags has
changed, the last term by itself leads to the same page, and typing it again changes nothing. -/
theorem search_after_terms (filter : RuleFilter) (terms : List (List Char)) (last : List Char) :
    let found := (filter.after terms).search last
    let visible := found.1.cards.countP fun card => !card.hidden
    found.1.Shows (lowercase (trim last)) ∧
      (found.2 = visible ∧ found.1.visibleCount = visible ∧
        found.1.countLabel = toString visible ++ " rules shown" ∧
        ((found.1.rulesets.filter fun ruleset => !ruleset.hidden).flatMap Ruleset.cards).countP
          (fun card => !card.hidden) = visible) ∧
      found.1.contents = filter.contents ∧
      found = filter.search last ∧ found.1.search last = found := by
  intro found visible
  have hfound : found = filter.search last := search_after filter terms last
  have hpage : found.1 = filter.apply last := congrArg Prod.fst hfound
  have hshows : found.1.Shows (lowercase (trim last)) := by
    rw [hpage]
    exact shows_apply filter last
  have hcount : found.1.visibleCount = visible := visibleCount_eq_countP found.1
  refine ⟨hshows, ⟨?_, hcount, ?_, ?_⟩, ?_, hfound, ?_⟩
  · rw [← hcount]
    rfl
  · rw [countLabel, hcount]
  · exact countP_visible_rulesets hshows.ruleset
  · rw [hpage, contents_apply]
  · rw [hpage, hfound, search, search, apply_apply]

end RuleFilter

end CodeMarkup
