import CodeMarkup.Proofs.Language.ReservedWord
import CodeMarkup.Proofs.Pattern.Quoted

/-!
# The extent of string literals

The built-in languages highlight string literals in double and in single quotes.  A string token
reaches from a quote to the first quote of the same style that no backslash takes, over lines and
over quotes of the other style.  A quote that is left in a gap opens nothing: its text is never
closed, or an escape takes a line end before it is.

* `Language.ReadsStrings` — what the tokens of the class say of the source, and what the gaps say.
* `Language.readsStrings_of_makes` — it holds of a language in which one category, of the pattern of
  string literals, makes these tokens.
-/

namespace CodeMarkup

/-- A language highlights string literals, each with exactly its extent. -/
structure Language.ReadsStrings (language : Language) : Prop where
  /-- A string token reaches from a quote to the quote that closes it, and no backslash that is read
  with the next character stands before a line end. -/
  token : ∀ (source : List Char) (first last : Nat),
    Segment.token first last (some .string) ∈
        scan language.grammar language.classifier source →
      ∃ quote ∈ stringQuotes, ∃ before text inner outer,
        source = before ++ quote :: text ∧ utf8Length before = first ∧
        QuoteCloses quote text inner outer ∧
        slice source first last = quote :: (inner.flatten ++ [quote]) ∧
        last = first + utf8Length inner.flatten + 2
  /-- From a quote in a gap, reading comes to the end of the source or to a backslash with a line
  end before it comes to a quote of the same style. -/
  gap : ∀ (source : List Char) (first last : Nat),
    Segment.gap first last ∈ scan language.grammar language.classifier source →
      ∀ quote ∈ stringQuotes, ∀ before text, source = before ++ quote :: text →
        first ≤ utf8Length before → utf8Length before < last →
        [quote] ∉ escapeUnits text ∨
          ∃ inner outer, escapeUnits text = inner ++ ['\\', '\n'] :: outer ∧ [quote] ∉ inner

/-! ## Tokens of string literals -/

/-- A quote has one byte. -/
theorem utf8Length_quote {quote : Char} (h : quote ∈ stringQuotes) : utf8Length [quote] = 1 := by
  simp only [stringQuotes, List.mem_cons, List.not_mem_nil, or_false] at h
  rcases h with rfl | rfl <;> rfl

/-- A token of string literals reaches from a quote to the quote that closes it. -/
theorem Category.HasToken.quoteCloses {name : String} {source : List Char} {first last : Nat}
    (h : (Category.ofPattern name .stringLiteral).HasToken source first last)
    (hfirst : IsBoundary source first) :
    ∃ quote ∈ stringQuotes, ∃ before text inner outer,
      source = before ++ quote :: text ∧ utf8Length before = first ∧
      QuoteCloses quote text inner outer ∧
      slice source first last = quote :: (inner.flatten ++ [quote]) ∧
      last = first + utf8Length inner.flatten + 2 := by
  obtain ⟨place, stop, -, ⟨before, hplace⟩, rfl, rfl, -, -, hstop⟩ := h.exists_passes hfirst
  obtain ⟨quote, hquote, text, inner, outer, hrest, hcloses, hpasses⟩ :=
    Matcher.tokenAt?_stringLiteral_eq_some_iff.1 hstop
  obtain ⟨hsource, hoffset, -⟩ := Cursor.passes_start_iff.1 hplace
  have hbefore := hoffset.symm
  rw [hrest] at hsource
  have hlength : utf8Length (quote :: (inner.flatten ++ [quote])) =
      utf8Length inner.flatten + 2 := by
    have hone := utf8Length_quote hquote
    rw [← List.singleton_append, utf8Length_append, utf8Length_append]
    omega
  refine ⟨quote, hquote, before, text, inner, outer, hsource, hbefore, hcloses, ?_, ?_⟩
  · exact slice_of_passes ⟨before, hplace⟩ hpasses
  · rw [hpasses.offset_eq, hlength, Nat.add_assoc]

/-- Where a quote is closed, there is a token of string literals. -/
theorem Category.exists_hasToken_of_quoteCloses (name : String) {quote : Char}
    (hquote : quote ∈ stringQuotes) (before : List Char) {text : List Char}
    {inner outer : List (List Char)} (h : QuoteCloses quote text inner outer) :
    ∃ last, (Category.ofPattern name .stringLiteral).HasToken (before ++ quote :: text)
      (utf8Length before) last := by
  obtain ⟨-, rest, htext⟩ :=
    (quoteCloses_iff (ne_backslash_of_mem_stringQuotes hquote)).1 ⟨outer, h⟩
  have hstart : (Cursor.start (before ++ quote :: text)).rest = before ++ quote :: text := rfl
  obtain ⟨place, hplace, hrest⟩ := Cursor.exists_passes hstart
  have hafter : place.rest = quote :: (inner.flatten ++ [quote]) ++ rest := by
    rw [hrest, htext]
    simp
  obtain ⟨stop, hpasses, -⟩ := Cursor.exists_passes hafter
  have htoken := Matcher.tokenAt?_stringLiteral_eq_some_iff.2
    ⟨quote, hquote, text, inner, outer, hrest, h, hpasses⟩
  have hoffset : place.offset = utf8Length before := by
    rw [hplace.offset_eq]
    simp [Cursor.start]
  refine ⟨stop.offset, ?_⟩
  rw [← hoffset]
  exact (Category.hasToken_iff ⟨before, hplace⟩).2 ⟨stop, htoken, rfl⟩

namespace Language

/-- A language reads strings if the tokens of their class are made by a category of string
literals. -/
theorem readsStrings_of_makes {language : Language} {name : String}
    (hcategory : Category.ofPattern name .stringLiteral ∈ language.grammar.categories)
    (hmakes : ∀ source first last,
      Segment.token first last (some .string) ∈
          scan language.grammar language.classifier source →
        language.grammar.Makes source first last (.ofPattern name .stringLiteral)) :
    language.ReadsStrings where
  token source first last hmem := by
    obtain ⟨hfirst, -⟩ :=
      (covers_scan language.grammar language.classifier source).boundaries _ hmem
    obtain ⟨i, -, htoken, -⟩ := hmakes source first last hmem
    exact htoken.quoteCloses hfirst
  gap source first last hmem quote hquote before text hsource hfirst hlast := by
    rcases quoteCloses_or quote text with ⟨inner, outer, hcloses⟩ | hopen
    · -- a quote that is closed would start a token in the gap
      obtain ⟨stop, htoken⟩ :=
        Category.exists_hasToken_of_quoteCloses name hquote before hcloses
      have hmeets := (scan_run language.grammar language.classifier source).meets
        (.start language.grammar source) _ hmem
      have hboundary : IsBoundary source (utf8Length before) := ⟨before, _, hsource, rfl⟩
      rw [← hsource] at htoken
      exact absurd htoken (hmeets.not_hasToken hboundary hfirst hlast hcategory)
    · exact hopen

/-- **String tokens have exactly the extent of string literals.**  Under the built-in languages a
string token reaches from a quote to the first quote of the same style that is read by itself, and
no escape on the way takes a line end.  A quote in a gap is never closed like that. -/
theorem builtin_readsStrings : php.ReadsStrings ∧ bash.ReadsStrings := by
  have hphp : Category.ofPattern "string" .stringLiteral ∈ php.grammar.categories :=
    List.mem_of_getElem? (i := 3) rfl
  have hbash : Category.ofPattern "string" .stringLiteral ∈ bash.grammar.categories :=
    List.mem_of_getElem? (i := 1) rfl
  constructor
  · apply readsStrings_of_makes hphp
    intro source first last hmem
    exact (recovers_of_sorts php_sorts).makes (by decide) (by decide) hphp hmem
  · apply readsStrings_of_makes hbash
    intro source first last hmem
    exact (recovers_of_sorts bash_sorts).makes (by decide) (by decide) hbash hmem

/-- An escaped quote and a quote of the other style close nothing, and a quote that is never closed
stays in a gap. -/
example : scan bash.grammar bash.classifier "\"a\\\"'\" 'b".toList =
    [.token 0 6 (some .string), .gap 6 9] := by decide +kernel

end Language

end CodeMarkup
