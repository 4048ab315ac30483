import CodeMarkup.Proofs.Pattern.Shape
import CodeMarkup.Proofs.Pattern.Repeated

/-!
# Texts in quotes

A text is read from left to right, and a backslash takes the next character with it.  Read like
that, a quote that follows an odd run of backslashes is part of an escape, and the first quote that
is read by itself closes what the opening quote began.  The pattern of a quoted text finds no other
end, because the units of a text are determined: no way to match splits an escape.

* `escapeUnits` — the units of a text; `IsWholeUnit` is a unit that more text cannot change.
* `QuoteCloses` — reading comes to a closing quote, and no escape on the way takes a line end;
  `QuoteCloses.unique` and `quoteCloses_or` say when.
* `Pattern.leads_quoted_iff` — where the pattern of a quoted text leads.
* `Matcher.tokenAt?_stringLiteral_eq_some_iff` — the token of a string literal ends at the quote
  that closes it.
-/

namespace CodeMarkup

/-! ## Reading with escapes -/

/-- The units of a text, read from left to right: a backslash takes the next character with it, and
every other character is a unit by itself.  A backslash that is taken takes nothing, and one at the
end of the text stands alone. -/
def escapeUnits : List Char → List (List Char)
  | [] => []
  | [c] => [[c]]
  | c :: d :: rest =>
    if c = '\\' then [c, d] :: escapeUnits rest else [c] :: escapeUnits (d :: rest)

/-- A unit that stays one whatever follows it. -/
inductive IsWholeUnit : List Char → Prop
  /-- A character that is not a backslash. -/
  | plain {c : Char} (h : c ≠ '\\') : IsWholeUnit [c]
  /-- A backslash and the character that it takes. -/
  | escape (c : Char) : IsWholeUnit ['\\', c]

/-- Reading goes on behind a unit. -/
theorem IsWholeUnit.escapeUnits_append {unit : List Char} (h : IsWholeUnit unit)
    (rest : List Char) : escapeUnits (unit ++ rest) = unit :: escapeUnits rest := by
  cases h with
  | plain hc =>
    cases rest with
    | nil => simp [escapeUnits]
    | cons d rest => simp [escapeUnits, hc]
  | escape c => simp [escapeUnits]

theorem escapeUnits_flatten_append {inner : List (List Char)} (h : ∀ unit ∈ inner, IsWholeUnit unit)
    (rest : List Char) : escapeUnits (inner.flatten ++ rest) = inner ++ escapeUnits rest := by
  induction inner with
  | nil => simp
  | cons unit inner ih =>
    obtain ⟨hunit, hinner⟩ := List.forall_mem_cons.1 h
    rw [List.flatten_cons, List.append_assoc, hunit.escapeUnits_append, ih hinner,
      List.cons_append]

/-- Nothing is lost in reading. -/
@[simp] theorem flatten_escapeUnits (text : List Char) : (escapeUnits text).flatten = text := by
  fun_induction escapeUnits text with
  | case1 => rfl
  | case2 c => rfl
  | case3 d rest ih => simp [ih]
  | case4 c d rest hc ih => simp [ih]

/-- Only the last unit of a text can be changed by what follows it. -/
theorem isWholeUnit_of_escapeUnits_eq {text : List Char} {inner outer : List (List Char)}
    (h : escapeUnits text = inner ++ outer) (houter : outer ≠ []) :
    ∀ unit ∈ inner, IsWholeUnit unit := by
  induction inner generalizing text with
  | nil => simp
  | cons first inner ih =>
    have hnil : inner ++ outer ≠ [] := by simp [houter]
    refine List.forall_mem_cons.2 ?_
    match text with
    | [] => simp [escapeUnits] at h
    | [c] =>
      obtain ⟨-, hrest⟩ := List.cons.inj h
      exact absurd hrest.symm hnil
    | c :: d :: rest =>
      rw [escapeUnits] at h
      split at h
      · rename_i hc
        obtain ⟨rfl, hrest⟩ := List.cons.inj h
        exact ⟨hc ▸ .escape d, ih hrest⟩
      · rename_i hc
        obtain ⟨rfl, hrest⟩ := List.cons.inj h
        exact ⟨.plain hc, ih hrest⟩

/-! ## The closing quote -/

/-- A text, read from left to right, comes to a quote that is read by itself: `inner` is what stands
before this quote and `outer` what stands behind it.  No escape before it takes a line end. -/
structure QuoteCloses (quote : Char) (text : List Char) (inner outer : List (List Char)) :
    Prop where
  /-- The quote is read by itself. -/
  units_eq : escapeUnits text = inner ++ [quote] :: outer
  /-- It is the first one. -/
  noQuote : [quote] ∉ inner
  /-- No backslash before it takes a line end. -/
  noLineEnd : ['\\', '\n'] ∉ inner

/-- There is one closing quote at most. -/
theorem QuoteCloses.unique {quote : Char} {text : List Char}
    {inner inner' outer outer' : List (List Char)} (h : QuoteCloses quote text inner outer)
    (h' : QuoteCloses quote text inner' outer') : inner = inner' ∧ outer = outer' := by
  have hunits := h.units_eq.symm.trans h'.units_eq
  -- of two places of the quote, the later one would have the earlier one before it
  rcases List.append_eq_append_iff.1 hunits with ⟨more, rfl, hmore⟩ | ⟨more, rfl, hmore⟩
  · cases more with
    | nil => simpa using hmore
    | cons unit more =>
      obtain rfl : [quote] = unit := (List.cons.inj hmore).1
      exact absurd (by simp) h'.noQuote
  · cases more with
    | nil => simpa using hmore.symm
    | cons unit more =>
      obtain rfl : [quote] = unit := (List.cons.inj hmore).1
      exact absurd (by simp) h.noQuote

/-- A text that no quote closes is read to its end or up to an escape that takes a line end. -/
theorem quoteCloses_or (quote : Char) (text : List Char) :
    (∃ inner outer, QuoteCloses quote text inner outer) ∨ [quote] ∉ escapeUnits text ∨
      ∃ inner outer, escapeUnits text = inner ++ ['\\', '\n'] :: outer ∧ [quote] ∉ inner := by
  by_cases hquote : [quote] ∈ escapeUnits text
  · obtain ⟨inner, outer, hunits, hinner⟩ := List.eq_append_cons_of_mem hquote
    by_cases hend : ['\\', '\n'] ∈ inner
    · obtain ⟨first, last, rfl, -⟩ := List.eq_append_cons_of_mem hend
      refine .inr (.inr ⟨first, last ++ [quote] :: outer, by simp [hunits], ?_⟩)
      intro hfirst
      exact hinner (List.mem_append_left _ hfirst)
    · exact .inl ⟨inner, outer, hunits, hinner, hend⟩
  · exact .inr (.inl hquote)

/-- A unit that stands between two quotes: it is neither that quote nor an escaped line end. -/
structure InQuotes (quote : Char) (unit : List Char) : Prop where
  isWhole : IsWholeUnit unit
  ne_quote : unit ≠ [quote]
  ne_lineEnd : unit ≠ ['\\', '\n']

/-- What closes a text can be seen from the text up to the quote. -/
theorem quoteCloses_iff {quote : Char} (hquote : quote ≠ '\\') {text : List Char}
    {inner : List (List Char)} :
    (∃ outer, QuoteCloses quote text inner outer) ↔
      (∀ unit ∈ inner, InQuotes quote unit) ∧ ∃ rest, text = inner.flatten ++ quote :: rest := by
  constructor
  · rintro ⟨outer, h⟩
    refine ⟨fun unit hunit => ⟨?_, ?_, ?_⟩, outer.flatten, ?_⟩
    · exact isWholeUnit_of_escapeUnits_eq h.units_eq (by simp) unit hunit
    · rintro rfl
      exact h.noQuote hunit
    · rintro rfl
      exact h.noLineEnd hunit
    · rw [← flatten_escapeUnits text, h.units_eq]
      simp
  · rintro ⟨hinner, rest, rfl⟩
    have hclose : escapeUnits (quote :: rest) = [quote] :: escapeUnits rest :=
      (IsWholeUnit.plain hquote).escapeUnits_append rest
    refine ⟨escapeUnits rest, ?_, ?_, ?_⟩
    · rw [escapeUnits_flatten_append fun unit hunit => (hinner unit hunit).isWhole, hclose]
    · intro hmem
      exact (hinner _ hmem).ne_quote rfl
    · intro hmem
      exact (hinner _ hmem).ne_lineEnd rfl

/-! ## The pattern of a quoted text -/

namespace Pattern

variable {quote : Char} {place further : Cursor}

/-- What is repeated between two quotes. -/
def quotedUnit (quote : Char) : Pattern :=
  choice [sequence [literal ['\\'], set (.noneOf ['\n'])], set (.noneOf [quote, '\\'])]

theorem leads_quotedUnit_iff :
    (quotedUnit quote).Leads place further ↔
      ∃ unit, InQuotes quote unit ∧ place.Passes unit further := by
  rw [quotedUnit, leads_choice rfl]
  simp only [List.mem_cons, List.not_mem_nil, or_false, exists_eq_or_imp, exists_eq_left,
    leads_sequence, LeadsAll, exists_eq_right]
  constructor
  · rintro (⟨r, hslash, hchar⟩ | hchar)
    · obtain ⟨c, hmem, hc⟩ := CharSet.steps_iff.1 hchar
      have hne : c ≠ '\n' := by simpa [CharSet.mem_noneOf] using hmem
      refine ⟨['\\', c], ⟨.escape c, by simp, by simpa using hne⟩, hslash.trans hc⟩
    · obtain ⟨c, hmem, hc⟩ := CharSet.steps_iff.1 hchar
      obtain ⟨hquote, hslash⟩ : c ≠ quote ∧ c ≠ '\\' := by simpa [CharSet.mem_noneOf] using hmem
      exact ⟨[c], ⟨.plain hslash, by simpa using hquote, by simp⟩, hc⟩
  · rintro ⟨unit, ⟨hunit, hquote, hend⟩, hpasses⟩
    cases hunit with
    | plain hslash =>
      rename_i c
      refine .inr (CharSet.steps_iff.2 ⟨c, ?_, hpasses⟩)
      simpa [CharSet.mem_noneOf, hslash] using hquote
    | escape c =>
      obtain ⟨r, hslash, hc⟩ := Cursor.passes_cons_iff.1 hpasses
      refine .inl ⟨r, hslash, CharSet.steps_iff.2 ⟨c, ?_, hc⟩⟩
      simpa [CharSet.mem_noneOf] using hend

theorem quoted_eq :
    quoted quote = sequence [literal [quote], many (quotedUnit quote), literal [quote]] := rfl

/-- A quoted text leads from its quote over units that may stand between quotes to its quote. -/
theorem leads_quoted_iff :
    (quoted quote).Leads place further ↔
      ∃ inner : List (List Char), (∀ unit ∈ inner, InQuotes quote unit) ∧
        place.Passes (quote :: (inner.flatten ++ [quote])) further := by
  have hbody : (quotedUnit quote).onlyEmpty = false := rfl
  have hmany (p q : Cursor) : (many (quotedUnit quote)).Leads p q ↔ _ :=
    (leads_many_iff hbody).trans (rounds_passes_iff fun _ _ => leads_quotedUnit_iff)
  rw [quoted_eq, leads_sequence]
  constructor
  · rintro ⟨p, hopen, q, hbetween, r, hclose, rfl⟩
    obtain ⟨inner, hinner, hpasses⟩ := (hmany p q).1 hbetween
    exact ⟨inner, hinner, hopen.trans (hpasses.trans hclose)⟩
  · rintro ⟨inner, hinner, hpasses⟩
    obtain ⟨p, hopen, hrest⟩ := Cursor.passes_cons_iff.1 hpasses
    obtain ⟨q, hbetween, hclose⟩ := Cursor.passes_append_iff.1 hrest
    exact ⟨p, hopen, q, (hmany p q).2 ⟨inner, hinner, hbetween⟩, further, hclose, rfl⟩

/-- A quoted text leads from its quote to the quote that closes it. -/
theorem leads_quoted_iff_quoteCloses (hquote : quote ≠ '\\') :
    (quoted quote).Leads place further ↔
      ∃ text inner outer, place.rest = quote :: text ∧ QuoteCloses quote text inner outer ∧
        place.Passes (quote :: (inner.flatten ++ [quote])) further := by
  rw [leads_quoted_iff]
  constructor
  · rintro ⟨inner, hinner, hpasses⟩
    have hrest : place.rest = quote :: (inner.flatten ++ quote :: further.rest) := by
      rw [hpasses.rest_eq]
      simp
    obtain ⟨outer, hcloses⟩ := (quoteCloses_iff hquote).2 ⟨hinner, further.rest, rfl⟩
    exact ⟨_, inner, outer, hrest, hcloses, hpasses⟩
  · rintro ⟨text, inner, outer, -, hcloses, hpasses⟩
    exact ⟨inner, ((quoteCloses_iff hquote).1 ⟨outer, hcloses⟩).1, hpasses⟩

end Pattern

/-! ## String literals -/

/-- The quotes of string literals. -/
def stringQuotes : List Char := ['"', '\'']

theorem ne_backslash_of_mem_stringQuotes {quote : Char} (h : quote ∈ stringQuotes) :
    quote ≠ '\\' := by
  rintro rfl
  exact absurd h (by decide)

theorem Pattern.stringLiteral_eq : stringLiteral = choice (stringQuotes.map quoted) := rfl

/-- A string literal leads from one of its quotes to the quote that closes it. -/
theorem Pattern.leads_stringLiteral_iff {place further : Cursor} :
    stringLiteral.Leads place further ↔
      ∃ quote ∈ stringQuotes, ∃ text inner outer, place.rest = quote :: text ∧
        QuoteCloses quote text inner outer ∧
        place.Passes (quote :: (inner.flatten ++ [quote])) further := by
  have hparts : stringLiteral.Leads place further ↔
      ∃ quote ∈ stringQuotes, (quoted quote).Leads place further := by
    rw [stringLiteral_eq, leads_choice (by decide)]
    simp only [List.mem_map, exists_exists_and_eq_and]
  rw [hparts]
  apply exists_congr
  intro quote
  apply and_congr_right
  intro hquote
  exact leads_quoted_iff_quoteCloses (ne_backslash_of_mem_stringQuotes hquote)

/-- **The token of a string literal ends at the quote that closes it.**  Backtracking finds no other
end. -/
theorem Matcher.tokenAt?_stringLiteral_eq_some_iff {place stop : Cursor} :
    (Matcher.ofPattern .stringLiteral).tokenAt? place = some stop ↔
      ∃ quote ∈ stringQuotes, ∃ text inner outer, place.rest = quote :: text ∧
        QuoteCloses quote text inner outer ∧
        place.Passes (quote :: (inner.flatten ++ [quote])) stop := by
  refine Pattern.tokenAt?_eq_some_iff_of_leads Pattern.leads_stringLiteral_iff ?_ ?_
  · rintro place stop beyond ⟨quote, -, text, inner, outer, hrest, hcloses, hpasses⟩
      ⟨quote', -, text', inner', outer', hrest', hcloses', hpasses'⟩
    -- both matches begin with the same quote, and one quote closes it
    obtain ⟨rfl, rfl⟩ := List.cons.inj (hrest.symm.trans hrest')
    obtain ⟨rfl, -⟩ := hcloses.unique hcloses'
    exact hpasses.stop_unique hpasses'
  · rintro place stop ⟨quote, -, text, inner, outer, -, -, hpasses⟩
    exact hpasses.offset_lt (by simp)

/-- A quote, units that may stand between two of this kind, and the quote again. -/
def IsQuoted (text : List Char) : Prop :=
  ∃ quote ∈ stringQuotes, ∃ inner : List (List Char), (∀ unit ∈ inner, InQuotes quote unit) ∧
    text = quote :: (inner.flatten ++ [quote])

/-- What follows a string literal has no part in it. -/
theorem Pattern.stringLiteral_hasShape : stringLiteral.HasShape fun text _ => IsQuoted text := by
  intro place stop
  rw [Matcher.tokenAt?_stringLiteral_eq_some_iff]
  constructor
  · rintro ⟨quote, hquote, text, inner, outer, -, hcloses, hpasses⟩
    obtain ⟨hinner, -⟩ :=
      (quoteCloses_iff (ne_backslash_of_mem_stringQuotes hquote)).1 ⟨outer, hcloses⟩
    exact ⟨_, hpasses, quote, hquote, inner, hinner, rfl⟩
  · rintro ⟨_, hpasses, quote, hquote, inner, hinner, rfl⟩
    have hrest : place.rest = quote :: (inner.flatten ++ quote :: stop.rest) := by
      rw [hpasses.rest_eq]
      simp
    obtain ⟨outer, hcloses⟩ :=
      (quoteCloses_iff (ne_backslash_of_mem_stringQuotes hquote)).2 ⟨hinner, stop.rest, rfl⟩
    exact ⟨quote, hquote, _, inner, outer, hrest, hcloses, hpasses⟩

end CodeMarkup
