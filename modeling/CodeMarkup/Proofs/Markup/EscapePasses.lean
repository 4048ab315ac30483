import CodeMarkup.Proofs.Markup.Escape

/-!
# Escaping in one pass and in three

Escaping reads a text once, character by character.  The rule for it speaks of whole texts: replace
every ampersand, then every `<`, then every `>`.  An ampersand that a pass has brought in must not
be replaced by a later one, so the ampersand goes first.

* `escapeByPasses` — the rule.
* `replaceAll_escapeUnless_of_mem` — a pass escapes one more character, and nothing else, if no
  entity that is there already has it.
* `escapeByPasses_eq_escape` — the rule and the single pass agree.
* `foldl_pushEscaped` and `foldl_escapeInto` — a buffer that is written to character by character,
  or piece by piece, ends as if the whole text had been put behind it at once.
-/

namespace CodeMarkup

/-- A text in which every ampersand is replaced by its entity, then every `<`, then every `>`. -/
def escapeByPasses (text : List Char) : List Char :=
  replaceAll ['>'] "&gt;".toList
    (replaceAll ['<'] "&lt;".toList (replaceAll ['&'] "&amp;".toList text))

/-- Markup with one more character of a text behind it. -/
def pushEscaped (markup : List Char) (c : Char) : List Char := markup ++ escapeChar c

/-! ## Three passes -/

/-- A pass over a text in which the characters of `back` still stand as they are escapes one of
them.  No entity that is there already may have it. -/
theorem replaceAll_escapeUnless_of_mem {x : Char} {back : List Char} (hx : x ∈ back)
    (hfree : ∀ c, c ∉ back → x ∉ escapeChar c) (text : List Char) :
    replaceAll [x] (escapeChar x) (text.flatMap (escapeUnless back)) =
      text.flatMap (escapeUnless (back.filter (· ≠ x))) := by
  refine replaceEach_flatMap (fun c rest => ?_) text
  have keep : ∀ word : List Char, x ∉ word →
      replaceEach [([x], escapeChar x)] (word ++ rest) =
        word ++ replaceEach [([x], escapeChar x)] rest :=
    fun word hword => replaceEach_append_of_notMem (by simp) hword rest
  by_cases hmem : c ∈ back
  · by_cases heq : c = x
    · subst heq
      simp only [escapeUnless, hx, if_true, List.mem_filter, ne_eq, not_true, decide_false,
        Bool.false_eq_true, and_false, if_false]
      exact replaceEach_append (by simp) (by simp) (by simp)
    · simp only [escapeUnless, hmem, if_true, List.mem_filter, ne_eq, heq, not_false_eq_true,
        decide_true, and_self]
      exact keep [c] (by simpa using Ne.symm heq)
  · simp only [escapeUnless, hmem, if_false, List.mem_filter, false_and]
    exact keep (escapeChar c) (hfree c hmem)

/-- Replacing the three characters one after the other escapes a text. -/
theorem escapeByPasses_eq_escape (text : List Char) : escapeByPasses text = escape text := by
  have hless : ∀ c, '<' ∉ escapeChar c := notMem_escapeChar (by decide) (by decide)
  have hgreater : ∀ c, '>' ∉ escapeChar c := notMem_escapeChar (by decide) (by decide)
  calc escapeByPasses text
      = replaceAll ['>'] (escapeChar '>') (replaceAll ['<'] (escapeChar '<')
          (replaceAll ['&'] (escapeChar '&') (text.flatMap (escapeUnless reserved)))) := by
        rw [escapeUnless_reserved, List.flatMap_singleton']
        rfl
    _ = text.flatMap (escapeUnless []) := by
        rw [replaceAll_escapeUnless_of_mem (by decide) fun c => ampersand_notMem_escapeChar,
          replaceAll_escapeUnless_of_mem (by decide) fun c _ => hless c,
          replaceAll_escapeUnless_of_mem (by decide) fun c _ => hgreater c]
        rfl
    _ = escape text := by
        rw [escapeUnless_nil, escape]

/-- With the ampersand behind the others, the entities would be escaped once more. -/
example : replaceAll ['&'] "&amp;".toList (replaceAll ['<'] "&lt;".toList "a<b".toList) =
    "a&amp;lt;b".toList := by
  cbv

/-! ## Writing to a buffer -/

/-- A buffer that takes a text character by character. -/
theorem foldl_pushEscaped (markup text : List Char) :
    text.foldl pushEscaped markup = escapeInto markup text :=
  calc text.foldl pushEscaped markup
      = markup ++ (text.map escapeChar).flatten := List.foldl_append_eq_append
    _ = escapeInto markup text := by rw [escapeInto, escape, List.flatMap_def]

/-- A buffer that takes a text piece by piece. -/
theorem foldl_escapeInto (markup : List Char) (pieces : List (List Char)) :
    pieces.foldl escapeInto markup = escapeInto markup pieces.flatten := by
  have hpiece : escapeInto = fun markup piece => piece.foldl pushEscaped markup := by
    funext markup piece
    rw [foldl_pushEscaped]
  rw [← foldl_pushEscaped, List.foldl_flatten, ← hpiece]

/-- Pieces that are escaped each on its own. -/
theorem flatMap_escape (pieces : List (List Char)) :
    pieces.flatMap escape = escape pieces.flatten := by
  rw [escape, ← List.flatMap_id, List.flatMap_assoc]
  rfl

/-- **One pass escapes a text as three do.**  A buffer to which a text is written character by
character keeps what it holds, and behind it stands the text with every ampersand replaced first,
then every `<`, then every `>`.  So it does not matter how a text is cut: its pieces, written to the
buffer in turn or escaped each on its own, come to what the whole text comes to. -/
theorem escapeInto_eq_passes :
    (∀ markup text, text.foldl pushEscaped markup = escapeInto markup text) ∧
      (∀ markup text, escapeInto markup text = markup ++ escapeByPasses text) ∧
      (∀ (markup : List Char) (pieces : List (List Char)),
        pieces.foldl escapeInto markup = escapeInto markup pieces.flatten) ∧
      ∀ pieces : List (List Char), pieces.flatMap escape = escape pieces.flatten := by
  refine ⟨foldl_pushEscaped, fun markup text => ?_, foldl_escapeInto, flatMap_escape⟩
  rw [escapeByPasses_eq_escape, escapeInto]

end CodeMarkup
