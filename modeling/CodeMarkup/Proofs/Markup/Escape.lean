import CodeMarkup.Markup.Escape
import CodeMarkup.Proofs.Text.Replace

/-!
# Reading escaped text back

An escaped text has no angle bracket, and each of its ampersands starts an entity.  So the text can
be read back, entity by entity, with the ampersand last.

* `eq_of_escapeChar_isPrefix` — no entity begins where another character stands.
* `unescape_escape` — the round trip.
-/

namespace CodeMarkup

/-- The characters that stand in markup as entities. -/
def reserved : List Char := ['&', '>', '<']

/-- The entities. -/
def entities : List (List Char) := ["&amp;".toList, "&lt;".toList, "&gt;".toList]

/-- A character as it stands in a text in which some characters are read back. -/
def escapeUnless (back : List Char) (c : Char) : List Char :=
  if c ∈ back then [c] else escapeChar c

/-- The text that an escaped one stands for.  The ampersands come back last: an ampersand that came
back before could start an entity that the text does not have. -/
def unescape (markup : List Char) : List Char :=
  replaceAll "&amp;".toList ['&']
    (replaceAll "&gt;".toList ['>'] (replaceAll "&lt;".toList ['<'] markup))

/-! ## Single characters -/

theorem escapeChar_of_notMem {c : Char} (h : c ∉ reserved) : escapeChar c = [c] := by
  simp only [reserved, List.mem_cons, List.not_mem_nil, or_false, not_or] at h
  simp [escapeChar, h]

theorem escapeChar_mem_entities {c : Char} (h : c ∈ reserved) : escapeChar c ∈ entities := by
  simp only [reserved, List.mem_cons, List.not_mem_nil, or_false] at h
  rcases h with rfl | rfl | rfl <;> decide

/-- An entity has an ampersand at its start and no other reserved character. -/
theorem escapeChar_eq_cons {c : Char} (h : c ∈ reserved) :
    ∃ tail, escapeChar c = '&' :: tail ∧ ∀ x ∈ reserved, x ∉ tail := by
  simp only [reserved, List.mem_cons, List.not_mem_nil, or_false] at h
  rcases h with rfl | rfl | rfl
  · exact ⟨"amp;".toList, by decide, by simp [reserved]⟩
  · exact ⟨"gt;".toList, by decide, by simp [reserved]⟩
  · exact ⟨"lt;".toList, by decide, by simp [reserved]⟩

theorem escapeChar_ne_nil (c : Char) : escapeChar c ≠ [] := by
  by_cases h : c ∈ reserved
  · obtain ⟨tail, heq, -⟩ := escapeChar_eq_cons h
    simp [heq]
  · simp [escapeChar_of_notMem h]

/-- The only reserved character that an escaped one has is the ampersand of an entity. -/
theorem notMem_escapeChar {x : Char} (hx : x ∈ reserved) (hne : x ≠ '&') (c : Char) :
    x ∉ escapeChar c := by
  by_cases h : c ∈ reserved
  · obtain ⟨tail, heq, htail⟩ := escapeChar_eq_cons h
    rw [heq, List.mem_cons, not_or]
    exact ⟨hne, htail x hx⟩
  · rw [escapeChar_of_notMem h, List.mem_singleton]
    rintro rfl
    exact h hx

/-- A character that needs no entity is written without an ampersand. -/
theorem ampersand_notMem_escapeChar {c : Char} (h : c ∉ reserved) : '&' ∉ escapeChar c := by
  rw [escapeChar_of_notMem h, List.mem_singleton]
  rintro rfl
  exact h (by decide)

/-- An ampersand of an escaped character starts an entity. -/
theorem mem_entities_of_escapeChar_eq {c : Char} {us vs : List Char}
    (h : escapeChar c = us ++ '&' :: vs) : '&' :: vs ∈ entities := by
  by_cases hc : c ∈ reserved
  · obtain ⟨tail, heq, htail⟩ := escapeChar_eq_cons hc
    have hsplit : [] ++ '&' :: tail = us ++ '&' :: vs := by
      rw [List.nil_append, ← heq, h]
    obtain ⟨-, -, hvs⟩ :=
      (List.append_cons_inj_of_notMem List.not_mem_nil (htail '&' (by decide))).1 hsplit
    rw [← hvs, ← heq]
    exact escapeChar_mem_entities hc
  · have hmem : '&' ∈ escapeChar c := by
      simp [h]
    exact absurd hmem (ampersand_notMem_escapeChar hc)

/-- **Entities are unambiguous.**  An entity begins only where the character stands that it is
for. -/
theorem eq_of_escapeChar_isPrefix {x c : Char} {rest : List Char} (hx : x ∈ reserved)
    (h : escapeChar x <+: escapeChar c ++ rest) : x = c := by
  by_cases hc : c ∈ reserved
  · simp only [reserved, List.mem_cons, List.not_mem_nil, or_false] at hx hc
    rcases hx with rfl | rfl | rfl <;> rcases hc with rfl | rfl | rfl <;>
      first
        | rfl
        | simp [escapeChar] at h
  · -- Any other character is not an ampersand, and every entity begins with one.
    obtain ⟨tail, heq, -⟩ := escapeChar_eq_cons hx
    rw [heq, escapeChar_of_notMem hc, List.singleton_append, List.cons_prefix_cons] at h
    exact absurd (h.1 ▸ List.mem_cons_self) hc

/-! ## Texts -/

theorem escapeUnless_nil : escapeUnless [] = escapeChar := by
  funext c
  rw [escapeUnless, if_neg List.not_mem_nil]

theorem escapeUnless_reserved : escapeUnless reserved = fun c => [c] := by
  funext c
  by_cases h : c ∈ reserved
  · rw [escapeUnless, if_pos h]
  · rw [escapeUnless, if_neg h, escapeChar_of_notMem h]

section

variable {x : Char} (hx : x ∈ reserved)

include hx

/-- Reading one character back keeps a text without ampersands. -/
theorem replaceAll_escapeChar_of_notMem {word : List Char} (hword : '&' ∉ word)
    (rest : List Char) :
    replaceAll (escapeChar x) [x] (word ++ rest) = word ++ replaceAll (escapeChar x) [x] rest := by
  obtain ⟨key, hkey, -⟩ := escapeChar_eq_cons hx
  refine replaceEach_append_of_notMem ?_ hword rest
  simp [hkey]

/-- Reading one character back keeps what stands for another one. -/
theorem replaceAll_escapeChar_of_ne {c : Char} (hne : x ≠ c) (rest : List Char) :
    replaceAll (escapeChar x) [x] (escapeChar c ++ rest) =
      escapeChar c ++ replaceAll (escapeChar x) [x] rest := by
  by_cases hc : c ∈ reserved
  · have hnone : ¬ escapeChar x <+: escapeChar c ++ rest :=
      fun h => hne (eq_of_escapeChar_isPrefix hx h)
    obtain ⟨tail, heq, htail⟩ := escapeChar_eq_cons hc
    rw [heq, List.cons_append] at hnone ⊢
    have hkey : ∀ rule ∈ [(escapeChar x, [x])], ¬ rule.1 <+: '&' :: (tail ++ rest) := by
      simpa using hnone
    have hrest := replaceAll_escapeChar_of_notMem hx (htail '&' (by decide)) rest
    rw [replaceAll, replaceEach_cons hkey, ← replaceAll, hrest, List.cons_append]
  · exact replaceAll_escapeChar_of_notMem hx (ampersand_notMem_escapeChar hc) rest

/-- A pass over a text reads one character back.  The ampersand must not be back before it. -/
theorem replaceAll_escapeUnless {back : List Char} (hback : '&' ∉ back) (text : List Char) :
    replaceAll (escapeChar x) [x] (text.flatMap (escapeUnless back)) =
      text.flatMap (escapeUnless (x :: back)) := by
  refine replaceEach_flatMap (fun c rest => ?_) text
  by_cases hmem : c ∈ back
  · simp only [escapeUnless, hmem, if_true, List.mem_cons, or_true]
    refine replaceAll_escapeChar_of_notMem hx ?_ rest
    rw [List.mem_singleton]
    rintro rfl
    exact hback hmem
  · by_cases heq : c = x
    · subst heq
      simp only [escapeUnless, hmem, if_false, List.mem_cons_self, if_true]
      refine replaceEach_append (escapeChar_ne_nil c) (by simp) ?_
      simp
    · simp only [escapeUnless, hmem, List.mem_cons, heq, or_self, if_false]
      exact replaceAll_escapeChar_of_ne hx (Ne.symm heq) rest

end

/-- **Escaping loses nothing.** -/
theorem unescape_escape (text : List Char) : unescape (escape text) = text := by
  have hnone : escape text = text.flatMap (escapeUnless []) := by
    rw [escape, escapeUnless_nil]
  calc unescape (escape text)
      = replaceAll (escapeChar '&') ['&'] (replaceAll (escapeChar '>') ['>']
          (replaceAll (escapeChar '<') ['<'] (escape text))) := rfl
    _ = text.flatMap (escapeUnless reserved) := by
        rw [hnone, replaceAll_escapeUnless (by decide) (by decide),
          replaceAll_escapeUnless (by decide) (by decide),
          replaceAll_escapeUnless (by decide) (by decide), reserved]
    _ = text := by
        rw [escapeUnless_reserved, List.flatMap_singleton']

end CodeMarkup
