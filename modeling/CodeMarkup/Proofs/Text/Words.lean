import CodeMarkup.Proofs.Text.Lowercase

/-!
# Words of a text

A word is a longest run of characters that are not blank.  All that is lost when the words of a text
are read is which blanks stand between them, and how many.

* `words_append_blank` — the words of a text can be read on the two sides of a blank.
* `Spaced` — a text in which words stand between blanks; these are then its words, and every text is
  such a text (`spaced_iff`).
* `mem_words_iff` — a word of a text is a piece of it that stands between blanks and has none.
-/

namespace CodeMarkup

/-- A text that is a single word. -/
structure IsWord (text : List Char) : Prop where
  ne_nil : text ≠ []
  notBlank : ∀ c ∈ text, isBlank c = false

/-- A text in which words stand one behind the other, with blanks between them and perhaps at the
two ends. -/
inductive Spaced : List (List Char) → List Char → Prop
  /-- There is no word. -/
  | blanks {gap : List Char} (hgap : ∀ c ∈ gap, isBlank c = true) : Spaced [] gap
  /-- A word stands in front of the other ones. -/
  | word {gap word rest : List Char} {others : List (List Char)}
    (hgap : ∀ c ∈ gap, isBlank c = true) (hword : IsWord word)
    (hrest : ∀ c ∈ rest.head?, isBlank c = true) (h : Spaced others rest) :
    Spaced (word :: others) (gap ++ word ++ rest)

/-! ## Words and blanks -/

theorem wordsFrom_append_blank {c : Char} (h : isBlank c = true) (word before after : List Char) :
    wordsFrom word (before ++ c :: after) = wordsFrom word before ++ words after := by
  induction before generalizing word with
  | nil => cases word <;> simp [wordsFrom, words, h]
  | cons d before ih =>
    rw [List.cons_append, wordsFrom, wordsFrom, ih, ih]
    split_ifs <;> rfl

/-- **The words of a text can be read on the two sides of a blank.** -/
theorem words_append_blank {c : Char} (h : isBlank c = true) (before after : List Char) :
    words (before ++ c :: after) = words before ++ words after :=
  wordsFrom_append_blank h [] before after

/-- Blanks in front of a text have no part in its words. -/
theorem words_blanks_append {gap : List Char} (h : ∀ c ∈ gap, isBlank c = true)
    (text : List Char) : words (gap ++ text) = words text := by
  induction gap with
  | nil => rfl
  | cons c gap ih =>
    obtain ⟨hc, hgap⟩ := List.forall_mem_cons.1 h
    rw [List.cons_append, ← List.nil_append (c :: (gap ++ text)), words_append_blank hc, ih hgap]
    rfl

/-- The words of a text can be read on the two sides of any run of blanks. -/
theorem words_append_blanks {gap : List Char} (hne : gap ≠ []) (h : ∀ c ∈ gap, isBlank c = true)
    (before after : List Char) :
    words (before ++ gap ++ after) = words before ++ words after := by
  obtain ⟨c, gap, rfl⟩ := List.exists_cons_of_ne_nil hne
  obtain ⟨hc, hgap⟩ := List.forall_mem_cons.1 h
  rw [List.append_assoc, List.cons_append, words_append_blank hc, words_blanks_append hgap]

/-- Without blanks, the word that is being read goes on to the end of the text. -/
theorem wordsFrom_of_notBlank {text : List Char} (h : ∀ c ∈ text, isBlank c = false)
    {word : List Char} (hne : word ≠ []) : wordsFrom word text = [word.reverse ++ text] := by
  induction text generalizing word with
  | nil => simp [wordsFrom, hne]
  | cons c text ih =>
    obtain ⟨hc, htext⟩ := List.forall_mem_cons.1 h
    rw [wordsFrom, hc, if_neg Bool.false_ne_true, ih htext (List.cons_ne_nil c word)]
    simp

namespace IsWord

variable {word rest : List Char}

theorem words_eq (h : IsWord word) : words word = [word] := by
  obtain ⟨c, word, rfl⟩ := List.exists_cons_of_ne_nil h.ne_nil
  obtain ⟨hc, hword⟩ := List.forall_mem_cons.1 h.notBlank
  rw [words, wordsFrom, hc, if_neg Bool.false_ne_true,
    wordsFrom_of_notBlank hword (List.cons_ne_nil c [])]
  rfl

/-- A word at the front of a text is its first word if it ends there. -/
theorem words_append (h : IsWord word) (hrest : ∀ c ∈ rest.head?, isBlank c = true) :
    words (word ++ rest) = word :: words rest := by
  cases rest with
  | nil => rw [List.append_nil, h.words_eq]; rfl
  | cons c rest =>
    have hc : isBlank c = true := hrest c rfl
    have hnil : words (c :: rest) = words rest := words_append_blank hc [] rest
    rw [words_append_blank hc, h.words_eq, hnil]
    rfl

end IsWord

/-! ## Texts that are made of words -/

namespace Spaced

variable {ws : List (List Char)} {text : List Char}

theorem words_eq (h : Spaced ws text) : words text = ws := by
  induction h with
  | @blanks gap hgap =>
    rw [← List.append_nil gap, words_blanks_append hgap]
    rfl
  | word hgap hword hrest _ ih =>
    rw [List.append_assoc, words_blanks_append hgap, hword.words_append hrest, ih]

/-- A blank can be put in front of a text. -/
theorem cons_blank (h : Spaced ws text) {c : Char} (hc : isBlank c = true) :
    Spaced ws (c :: text) := by
  cases h with
  | blanks hgap => exact .blanks (List.forall_mem_cons.2 ⟨hc, hgap⟩)
  | word hgap hword hrest h => exact .word (List.forall_mem_cons.2 ⟨hc, hgap⟩) hword hrest h

/-- A word can be put in front of a text that starts with a blank. -/
theorem cons_word (h : Spaced ws text) {word : List Char} (hword : IsWord word)
    (htext : ∀ c ∈ text.head?, isBlank c = true) : Spaced (word :: ws) (word ++ text) := by
  have hgap : ∀ c ∈ ([] : List Char), isBlank c = true := by simp
  exact .word hgap hword htext h

/-- Each of the words stands between blanks. -/
theorem isDelimited (h : Spaced ws text) :
    ∀ word ∈ ws, IsWord word ∧ IsDelimited word text := by
  induction h with
  | blanks => simp
  | @word gap word rest others hgap hword hrest _ ih =>
    refine List.forall_mem_cons.2 ⟨⟨hword, gap, rest, rfl, ?_, hrest⟩, fun other hmem => ?_⟩
    · exact fun c hc => hgap c (List.mem_of_getLast? hc)
    · obtain ⟨hother, before, after, rfl, hbefore, hafter⟩ := ih other hmem
      refine ⟨hother, gap ++ word ++ before, after, by simp, fun c hc => ?_, hafter⟩
      obtain rfl | ⟨before, d, rfl⟩ := List.eq_nil_or_concat before
      · -- the other word would start right behind the first one
        obtain ⟨d, other, rfl⟩ := List.exists_cons_of_ne_nil hother.ne_nil
        have hblank : isBlank d = true := hrest d rfl
        simp [hother.notBlank d List.mem_cons_self] at hblank
      · exact hbefore c (by simpa using hc)

end Spaced

/-- Reading the words of a text, some of which has been read before. -/
theorem spaced_wordsFrom {word : List Char} (hword : ∀ c ∈ word, isBlank c = false)
    (text : List Char) : Spaced (wordsFrom word text) (word.reverse ++ text) := by
  induction text generalizing word with
  | nil =>
    have hnil : Spaced [] [] := .blanks (by simp)
    by_cases hne : word = []
    · subst hne
      exact hnil
    · rw [wordsFrom, if_neg (by simpa using hne)]
      exact hnil.cons_word ⟨by simpa using hne, by simpa using hword⟩ (by simp)
  | cons c text ih =>
    cases hc : isBlank c with
    | true =>
      -- the text behind the blank has nothing to do with what has been read
      have hrest : Spaced (wordsFrom [] text) (c :: text) := (ih (by simp)).cons_blank hc
      by_cases hne : word = []
      · subst hne
        simpa [wordsFrom, hc] using hrest
      · rw [wordsFrom, if_pos hc, if_neg (by simpa using hne)]
        exact hrest.cons_word ⟨by simpa using hne, by simpa using hword⟩ (by simpa using hc)
    | false =>
      have hnext := ih (List.forall_mem_cons.2 ⟨hc, hword⟩)
      rw [List.reverse_cons, List.append_assoc, List.singleton_append] at hnext
      rwa [wordsFrom, hc, if_neg Bool.false_ne_true]

/-- A text is made of its words and of no other ones. -/
theorem spaced_iff {ws : List (List Char)} {text : List Char} :
    Spaced ws text ↔ words text = ws := by
  constructor
  · exact Spaced.words_eq
  · rintro rfl
    exact spaced_wordsFrom (by simp) text

/-- **A word of a text** is a piece of it that stands between blanks and has none. -/
theorem mem_words_iff {word text : List Char} :
    word ∈ words text ↔ IsWord word ∧ IsDelimited word text := by
  constructor
  · exact (spaced_iff.2 rfl).isDelimited word
  · rintro ⟨hword, before, after, rfl, hbefore, hafter⟩
    rw [List.append_assoc]
    obtain rfl | ⟨before, c, rfl⟩ := List.eq_nil_or_concat before
    · rw [List.nil_append, hword.words_append hafter]
      exact List.mem_cons_self
    · have hc : isBlank c = true := hbefore c (by simp)
      rw [List.concat_eq_append, List.append_assoc, List.singleton_append,
        words_append_blank hc, hword.words_append hafter]
      simp

end CodeMarkup
