import CodeMarkup.Proofs.Page.SearchField
import CodeMarkup.Proofs.Text.FinalSigma

/-!
# A card is found by what its text says

A term can be typed just as it stands in the text of a card.  The card is found by it, unless a
capital sigma at an edge of the term has one lower case in the text and another one in the term.

* `RuleFilter.showsAt_apply_iff` — what a search shows of one card.
* `RuleFilter.search_finds_literal_text` — a card is found by every piece of its text in which no
  sigma turns.
* `RuleFilter.search_hides_literal_text` — the start of a word can hide the card that the word
  finds.
-/

namespace CodeMarkup

namespace RuleFilter

/-- A search shows a card exactly if its text contains the term. -/
theorem showsAt_apply_iff {filter : RuleFilter} {term : List Char} {i j : Nat} {card : RuleCard}
    (hcard : filter.cardAt? i j = some card) :
    (filter.apply term).ShowsAt i j { card with hidden := false } ↔
      searchTerm term <:+: card.haystack := by
  constructor
  · intro h
    have hat := h.cardAt
    rw [cardAt?_apply, hcard, Option.map_some] at hat
    have hhidden : (card.filter (searchTerm term)).hidden = false := by
      rw [Option.some.inj hat]
    obtain hnil | hinfix := RuleCard.hidden_filter_iff.1 hhidden
    · rw [hnil]
      exact List.nil_infix
    · exact hinfix
  · exact showsAt_apply hcard

/-- **A card is found by what its text says, sigmas at the edges aside.**  Wherever a card stands on
a page, and whatever has been typed before, it is to be seen after a search exactly if the term,
trimmed and in lower case, is a piece of its text in lower case.  If the trimmed term is a piece of
the text as it was written, then it is found where it stands exactly if no sigma at its edges turns
there; so it is found if at one of its places none turns, and always if it has no capital sigma.  A
longer term can show a card that a term from its text has hidden only if at each of the places of
that term a sigma turns. -/
theorem search_finds_literal_text {filter : RuleFilter} {i j : Nat} {id : String}
    {text : List Char} (h : filter.cardAt? i j = some (.ofText id text))
    (terms : List (List Char)) (term : List Char) :
    let shows := fun term => ((filter.after terms).search term).1.ShowsAt i j (.ofText id text)
    (shows term ↔ searchTerm term <:+: lowercase text) ∧
      (∀ before after, text = before ++ trim term ++ after →
        (searchTerm term <+: (lowercase text).drop (lowercase before).length ↔
          ¬ SigmaTurns before (trim term) after) ∧
        (¬ SigmaTurns before (trim term) after → shows term)) ∧
      ('Σ' ∉ trim term → trim term <:+: text → shows term) ∧
      ∀ more, ¬ shows term → shows (term ++ more) →
        ∀ before after, text = before ++ trim term ++ after →
          SigmaTurns before (trim term) after := by
  intro shows
  have hshows : shows term ↔ searchTerm term <:+: lowercase text := by
    show ((filter.after terms).search term).1.ShowsAt i j (.ofText id text) ↔ _
    rw [search_after]
    exact showsAt_apply_iff h
  have hplace : ∀ before after, text = before ++ trim term ++ after →
      ¬ SigmaTurns before (trim term) after → shows term := by
    rintro before after rfl hturns
    exact hshows.2 (lowercase_isInfix_of_not_sigmaTurns hturns)
  refine ⟨hshows, ?_, ?_, ?_⟩
  · rintro before after rfl
    exact ⟨lowercase_isPrefix_drop_iff, hplace before after rfl⟩
  · rintro hsigma ⟨before, after, htext⟩
    exact hplace before after htext.symm (not_sigmaTurns_of_notMem hsigma)
  · intro more hhidden _ before after htext
    by_contra hturns
    exact hhidden (hplace before after htext hturns)

/-- The end of this word is found in it, though its first letter is a sigma: neither sigma turns.
At the start of the word one does. -/
theorem search_finds_literal_end :
    let card := RuleCard.ofText "classes" "ΚΛΑΣΕΙΣ".toList
    let page : RuleFilter := ⟨[⟨"greek", [card], false⟩]⟩
    page.cardAt? 0 0 = some card ∧ trim " ΣΕΙΣ".toList = "ΣΕΙΣ".toList ∧
      ((page.after ["x".toList]).search " ΣΕΙΣ".toList).1.ShowsAt 0 0 card ∧
      SigmaTurns [] "ΚΛΑΣ".toList "ΕΙΣ".toList := by
  intro card page
  have hcard : page.cardAt? 0 0 = some card := rfl
  have htrim : trim " ΣΕΙΣ".toList = "ΣΕΙΣ".toList := by decide +kernel
  obtain ⟨-, hplaces, -, -⟩ := search_finds_literal_text hcard ["x".toList] " ΣΕΙΣ".toList
  refine ⟨hcard, htrim, (hplaces "ΚΛΑ".toList [] ?_).2 ?_, by decide +kernel⟩
  · rw [htrim]
    rfl
  · rw [htrim]
    decide +kernel

/-- **The start of a word can hide the card that the word finds.**  The sigma in the middle of this
word is not a final one, but it is the final letter of the term; one letter more, and the card is to
be seen again. -/
theorem search_hides_literal_text :
    let card := RuleCard.ofText "classes" "ΚΛΑΣΕΙΣ".toList
    let page : RuleFilter := ⟨[⟨"greek", [card], false⟩]⟩
    page.cardAt? 0 0 = some card ∧
      trim "ΚΛΑΣ".toList <:+: "ΚΛΑΣΕΙΣ".toList ∧
      (page.search "ΚΛΑΣ".toList).1.cardAt? 0 0 = some { card with hidden := true } ∧
      ((page.after ["ΚΛΑΣ".toList]).search "ΚΛΑΣΕ".toList).1.cardAt? 0 0 = some card := by
  decide +kernel

end RuleFilter

end CodeMarkup
