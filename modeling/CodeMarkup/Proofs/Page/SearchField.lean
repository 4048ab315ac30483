import CodeMarkup.Proofs.Page.SearchTerm
import CodeMarkup.Proofs.Text.Lowercase

/-!
# A card is found by its fields

The text of a card is put into lower case once, as one text in which the fields stand behind one
another.  A search term is trimmed and put into lower case by itself.  The two agree wherever the
term stands between blanks.

* `RuleFilter.cardAt?_apply` — a search sets the flag of each card where it stands.
* `RuleFilter.ShowsAt` — a card that is to be seen at a place of a page.
* `RuleFilter.search_finds_fields` — a card is found by its fields and by whatever stands between
  blanks in them.
-/

namespace CodeMarkup

/-- A term that stands between blanks in the fields of a card is found in its text. -/
theorem RuleCard.searchTerm_isInfix_of_isDelimited {id : String} {fields : List (List Char)}
    {term : List Char} (h : IsDelimited term ([' '].intercalate fields)) :
    RuleFilter.searchTerm term <:+: (ofFields id fields).haystack := by
  show lowercase (trim term) <:+: lowercase ([' '].intercalate fields)
  exact h.trim.lowercase_isInfix

namespace RuleFilter

/-- The card at a place of a page: of the ruleset number `i` the card number `j`. -/
def cardAt? (filter : RuleFilter) (i j : Nat) : Option RuleCard :=
  filter.rulesets[i]?.bind fun ruleset => ruleset.cards[j]?

/-- A card is to be seen at a place of a page: neither it nor the ruleset around it is hidden. -/
structure ShowsAt (filter : RuleFilter) (i j : Nat) (card : RuleCard) : Prop where
  cardAt : filter.cardAt? i j = some card
  card : card.hidden = false
  ruleset : ∀ ruleset, filter.rulesets[i]? = some ruleset → ruleset.hidden = false

/-- A search leaves every card where it is and sets its flag. -/
theorem cardAt?_apply (filter : RuleFilter) (term : List Char) (i j : Nat) :
    (filter.apply term).cardAt? i j =
      (filter.cardAt? i j).map (RuleCard.filter (searchTerm term)) := by
  cases hruleset : filter.rulesets[i]? with
  | none => simp [cardAt?, apply, hruleset]
  | some ruleset => simp [cardAt?, apply, hruleset, Ruleset.filter]

/-- After a search every card that contains the term is to be seen. -/
theorem showsAt_apply {filter : RuleFilter} {term : List Char} {i j : Nat} {card : RuleCard}
    (hcard : filter.cardAt? i j = some card) (hterm : searchTerm term <:+: card.haystack) :
    (filter.apply term).ShowsAt i j { card with hidden := false } := by
  have hhidden : (card.filter (searchTerm term)).hidden = false :=
    RuleCard.hidden_filter_iff.2 (.inr hterm)
  have hat : (filter.apply term).cardAt? i j = some (card.filter (searchTerm term)) := by
    rw [cardAt?_apply, hcard, Option.map_some]
  have hshown : card.filter (searchTerm term) = { card with hidden := false } := by
    rw [← hhidden]
    rfl
  refine ⟨by rw [hat, hshown], rfl, fun ruleset hruleset => ?_⟩
  have hmem : card.filter (searchTerm term) ∈ ruleset.cards := by
    rw [cardAt?, hruleset, Option.bind_some] at hat
    exact List.mem_of_getElem? hat
  -- a ruleset is hidden only if all its cards are
  by_contra hne
  have hall := ((shows_apply filter term).ruleset ruleset (List.mem_of_getElem? hruleset)).1
    (by simpa using hne)
  rw [hall _ hmem] at hhidden
  exact Bool.noConfusion hhidden

/-- **A card is found by each of its fields.**  Wherever a card that was made from fields stands on
a page, and whatever has been typed before, it is to be seen after a search for one of its fields,
and after one for any part of its fields, joined by spaces, that stands between blanks or the ends
of the joined text, over several fields too and with blanks at its own ends. -/
theorem search_finds_fields {filter : RuleFilter} {i j : Nat} {id : String}
    {fields : List (List Char)} (h : filter.cardAt? i j = some (.ofFields id fields))
    (terms : List (List Char)) :
    (∀ field ∈ fields,
        ((filter.after terms).search field).1.ShowsAt i j (.ofFields id fields)) ∧
      ∀ term, IsDelimited term ([' '].intercalate fields) →
        ((filter.after terms).search term).1.ShowsAt i j (.ofFields id fields) := by
  have hdelimited : ∀ term, IsDelimited term ([' '].intercalate fields) →
      ((filter.after terms).search term).1.ShowsAt i j (.ofFields id fields) := by
    intro term hterm
    rw [search_after]
    exact showsAt_apply h (RuleCard.searchTerm_isInfix_of_isDelimited hterm)
  refine ⟨fun field hfield => ?_, hdelimited⟩
  exact hdelimited field (isDelimited_of_mem rfl hfield)

/-- Every word of this card ends in a final sigma, and a term may take in the space between two
fields and a blank behind them. -/
theorem search_finds_final_sigmas :
    let card := RuleCard.ofFields "greek" ["ΟΔΟΣ".toList, "ΣΟΦΟΣ \tΛΟΓΟΣ".toList]
    let page : RuleFilter := ⟨[⟨"none", [], false⟩, ⟨"one", [card], false⟩]⟩
    page.cardAt? 1 0 = some card ∧ searchTerm "ΟΔΟΣ ΣΟΦΟΣ ".toList = "οδος σοφος".toList ∧
      ((page.after ["ΛΟΓΟ".toList, "x".toList]).search "ΟΔΟΣ".toList).1.ShowsAt 1 0 card ∧
      ((page.after ["x".toList]).search "ΟΔΟΣ ΣΟΦΟΣ ".toList).1.ShowsAt 1 0 card := by
  intro card page
  have hcard : page.cardAt? 1 0 = some card := rfl
  have hdelimited : IsDelimited "ΟΔΟΣ ΣΟΦΟΣ ".toList
      ([' '].intercalate ["ΟΔΟΣ".toList, "ΣΟΦΟΣ \tΛΟΓΟΣ".toList]) := by
    refine ⟨[], "\tΛΟΓΟΣ".toList, by decide, by simp, fun c hc => ?_⟩
    obtain rfl : '\t' = c := by simpa using hc
    rfl
  exact ⟨hcard, by decide +kernel, (search_finds_fields hcard _).1 _ (by simp),
    (search_finds_fields hcard _).2 _ hdelimited⟩

end RuleFilter

end CodeMarkup
