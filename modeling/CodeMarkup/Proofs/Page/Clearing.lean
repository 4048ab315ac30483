import CodeMarkup.Proofs.Page.SearchTerm

/-!
# Clearing the search

A term of blanks is trimmed to the empty term, which every card contains.  So it shows all cards
again, whatever has been typed before.  The rulesets follow their own rule: one without a card to
see is hidden, and a ruleset that never had a card has none to see, though it is shown on a page
that has just been made.

* `Ruleset.filter_nil` — what the empty term does to a ruleset.
* `RuleFilter.search_blank` — a cleared page is the page that was made, up to rulesets without
  cards.
* `RuleFilter.search_blank_hides_ruleset` — a ruleset without cards is lost by the first search.
-/

namespace CodeMarkup

theorem map_eq_self_iff {α : Type} {f : α → α} {xs : List α} :
    xs.map f = xs ↔ ∀ x ∈ xs, f x = x := by
  conv_lhs => rhs; rw [← List.map_id xs]
  exact List.map_inj_left

/-- The empty term shows a card. -/
theorem RuleCard.filter_nil (card : RuleCard) :
    card.filter [] = { card with hidden := false } := rfl

namespace Ruleset

/-- A ruleset that has just been made, of cards that have just been made: nothing is hidden. -/
structure IsNew (ruleset : Ruleset) : Prop where
  hidden : ruleset.hidden = false
  cards : ∀ card ∈ ruleset.cards, card.hidden = false

/-- The empty term shows all cards of a ruleset, and hides it if there are none. -/
theorem filter_nil (ruleset : Ruleset) :
    ruleset.filter [] =
      { ruleset with
        cards := ruleset.cards.map fun card => { card with hidden := false }
        hidden := ruleset.cards.isEmpty } := by
  have hall : (ruleset.cards.map (RuleCard.filter [])).all (fun card => card.hidden) =
      ruleset.cards.isEmpty := by
    cases ruleset.cards <;> simp [RuleCard.filter_nil]
  rw [filter, hall]
  rfl

variable {ruleset : Ruleset}

/-- The cards of a new ruleset are shown as they were. -/
theorem IsNew.filter_nil (h : ruleset.IsNew) :
    ruleset.filter [] = { ruleset with hidden := ruleset.cards.isEmpty } := by
  have hcards : (ruleset.cards.map fun card => { card with hidden := false }) = ruleset.cards := by
    rw [map_eq_self_iff]
    intro card hcard
    rw [← h.cards card hcard]
  rw [Ruleset.filter_nil, hcards]

/-- A new ruleset is as it was exactly if it has a card. -/
theorem IsNew.filter_nil_eq_self_iff (h : ruleset.IsNew) :
    ruleset.filter [] = ruleset ↔ ruleset.cards ≠ [] := by
  rw [h.filter_nil]
  constructor
  · intro hsame hnil
    have hhidden := congrArg Ruleset.hidden hsame
    simp [hnil, h.hidden] at hhidden
  · intro hne
    have hempty : ruleset.cards.isEmpty = ruleset.hidden := by simp [hne, h.hidden]
    rw [hempty]

end Ruleset

namespace RuleFilter

/-- A page of rulesets that have just been made. -/
def IsNew (filter : RuleFilter) : Prop := ∀ ruleset ∈ filter.rulesets, ruleset.IsNew

/-- **Clearing the search restores the page, rulesets without cards aside.**  On a page that has
just been made any terms are typed, and then one of blanks.  All cards are to be seen, each just as
it was made, and all are counted; a ruleset is just as it was made, unless it has no cards: then it
is hidden.  So the page is what it was exactly if each of its rulesets has a card. -/
theorem search_blank {filter : RuleFilter} (hnew : filter.IsNew) (terms : List (List Char))
    {term : List Char} (hblank : trim term = []) :
    let cleared := (filter.after terms).search term
    cleared.1.rulesets =
        filter.rulesets.map (fun ruleset => { ruleset with hidden := ruleset.cards.isEmpty }) ∧
      cleared.1.cards = filter.cards ∧ cleared.2 = filter.cards.length ∧
      (cleared.1 = filter ↔ ∀ ruleset ∈ filter.rulesets, ruleset.cards ≠ []) := by
  intro cleared
  have hcleared : cleared = filter.search term := search_after filter terms term
  have hterm : searchTerm term = [] := by
    rw [searchTerm, hblank]
    rfl
  have hpage : cleared.1 = ⟨filter.rulesets.map (Ruleset.filter [])⟩ := by
    rw [hcleared, ← hterm]
    rfl
  have hrulesets : cleared.1.rulesets =
      filter.rulesets.map fun ruleset => { ruleset with hidden := ruleset.cards.isEmpty } := by
    rw [hpage]
    exact List.map_congr_left fun ruleset hruleset => (hnew ruleset hruleset).filter_nil
  have hcards : cleared.1.cards = filter.cards := by
    simp [cards, hrulesets, List.flatMap_map]
  refine ⟨hrulesets, hcards, ?_, ?_⟩
  · have hcount : cleared.2 = cleared.1.visibleCount := by
      rw [hcleared]
      rfl
    rw [hcount, visibleCount_eq_countP, hcards, List.countP_eq_length]
    intro card hcard
    obtain ⟨ruleset, hruleset, hmem⟩ := List.mem_flatMap.1 hcard
    simp [(hnew ruleset hruleset).cards card hmem]
  · have hsame : cleared.1 = filter ↔
        ∀ ruleset ∈ filter.rulesets, ruleset.filter [] = ruleset := by
      rw [hpage, RuleFilter.mk.injEq, map_eq_self_iff]
    rw [hsame]
    exact forall₂_congr fun ruleset hruleset => (hnew ruleset hruleset).filter_nil_eq_self_iff

/-- A page with two cards, one of which the term in between hides together with its ruleset. -/
theorem search_blank_two_rulesets :
    let page : RuleFilter :=
      ⟨[⟨"naming", [.ofText "class-name" "ClassName".toList], false⟩,
        ⟨"complexity", [.ofText "max-depth" "MaxDepth".toList], false⟩]⟩
    page.IsNew ∧ trim " \t".toList = [] ∧ page.after ["depth".toList] ≠ page ∧
      ((page.after ["depth".toList]).search " \t".toList).1 = page := by
  intro page
  have hnew : page.IsNew := by
    intro ruleset hruleset
    obtain rfl | rfl : ruleset = _ ∨ ruleset = _ := by simpa [page] using hruleset
    · exact ⟨rfl, by simp [RuleCard.ofText]⟩
    · exact ⟨rfl, by simp [RuleCard.ofText]⟩
  have hblank : trim " \t".toList = [] := by decide +kernel
  obtain ⟨-, -, -, hrestored⟩ := search_blank hnew ["depth".toList] hblank
  exact ⟨hnew, hblank, by decide +kernel, hrestored.2 (by simp [page])⟩

/-- **Clearing the search can leave a ruleset hidden.**  A ruleset without cards is shown on a page
that has just been made, and no longer after a term of blanks, though that shows everything else. -/
theorem search_blank_hides_ruleset :
    let empty : Ruleset := ⟨"empty", [], false⟩
    let full : Ruleset := ⟨"full", [.ofText "a" "A".toList], false⟩
    let page : RuleFilter := ⟨[full, empty]⟩
    page.IsNew ∧ trim [' '] = [] ∧
      ((page.after ["x".toList]).search [' ']).1.rulesets = [full, { empty with hidden := true }] ∧
      ((page.after ["x".toList]).search [' ']).1 ≠ page := by
  intro empty full page
  have hnew : page.IsNew := by
    intro ruleset hruleset
    obtain rfl | rfl : ruleset = full ∨ ruleset = empty := by simpa [page] using hruleset
    · exact ⟨rfl, by simp [full, RuleCard.ofText]⟩
    · exact ⟨rfl, by simp [empty]⟩
  exact ⟨hnew, by decide +kernel, by decide +kernel, by decide +kernel⟩

end RuleFilter

end CodeMarkup
