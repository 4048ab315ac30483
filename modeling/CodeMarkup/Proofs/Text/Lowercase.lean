import Mathlib.Data.List.Infix
import Mathlib.Data.List.TakeWhile
import CodeMarkup.Text.Blank
import CodeMarkup.Text.Lowercase

/-!
# Lower case between blanks

Whether a capital sigma becomes a final one is decided by the nearest characters on its two sides
that are not case-ignorable, however far away they stand.  A blank is neither cased nor
case-ignorable, so no sigma looks past one: a text can be cut at a blank, and its two parts can be
put into lower case by themselves.

* `lowercase_append_blank` — lower-casing a text keeps its blanks and splits at each of them.
* `IsDelimited` — a piece of a text that stands between blanks or the ends of the text.
* `IsDelimited.lowercase_isInfix` — such a piece is found in lower case, and so it is when it has
  been trimmed (`IsDelimited.trim`).
* `isDelimited_of_mem` — each of several texts joined by blanks is such a piece.
-/

namespace CodeMarkup

/-! ## Case and blanks -/

/-- The code points of a table, one by one. -/
def CodeRanges.codes (s : CodeRanges) : List Nat :=
  s.flatMap fun range => List.range' range.1 (range.2 + 1 - range.1)

theorem CodeRanges.mem_codes {s : CodeRanges} {n : Nat} (h : s.contains n = true) :
    n ∈ s.codes := by
  induction s with
  | nil => simp [contains] at h
  | cons range rest ih =>
    obtain ⟨first, last⟩ := range
    show n ∈ List.range' first (last + 1 - first) ++ codes rest
    unfold contains at h
    by_cases hfirst : n < first
    · simp [hfirst] at h
    · by_cases hlast : n ≤ last
      · refine List.mem_append_left _ (List.mem_range'_1.2 ?_)
        omega
      · rw [if_neg hfirst, if_neg hlast] at h
        exact List.mem_append_right _ (ih h)

section

variable {c : Char}

theorem isCased_of_isBlank (h : isBlank c = true) : isCased c = false := by
  have hcodes : ∀ n ∈ blankRanges.codes, casedRanges.contains n = false := by decide +kernel
  exact hcodes c.toNat (CodeRanges.mem_codes h)

theorem isCaseIgnorable_of_isBlank (h : isBlank c = true) : isCaseIgnorable c = false := by
  have hcodes : ∀ n ∈ blankRanges.codes, caseIgnorableRanges.contains n = false := by
    decide +kernel
  exact hcodes c.toNat (CodeRanges.mem_codes h)

/-- A blank has no lower case, and it is none of the two letters with a rule of their own. -/
theorem lowerForm_of_isBlank (h : isBlank c = true) : c.toNat ≠ 0x3A3 ∧ lowerForm c = [c] := by
  have hcodes : ∀ n ∈ blankRanges.codes, n ≠ 0x3A3 ∧ n ≠ 0x130 ∧
      lowerCode recentCaseRuns (lowerCode caseRuns n) = n := by decide +kernel
  obtain ⟨hsigma, hdotted, hlower⟩ := hcodes c.toNat (CodeRanges.mem_codes h)
  refine ⟨hsigma, ?_⟩
  rw [lowerForm, if_neg (by simpa using hdotted), lowerChar, hlower, Char.ofNat_toNat]

/-! ## No sigma looks past a blank -/

theorem meetsCased_cons (text : List Char) :
    meetsCased (c :: text) = if isCaseIgnorable c then meetsCased text else isCased c := by
  rw [meetsCased, List.dropWhile_cons]
  by_cases h : isCaseIgnorable c = true
  · rw [if_pos h, if_pos h, meetsCased]
  · rw [if_neg h, if_neg h]

/-- Behind a blank no cased character is met. -/
theorem meetsCased_append_blank (h : isBlank c = true) (text beyond : List Char) :
    meetsCased (text ++ c :: beyond) = meetsCased text := by
  induction text with
  | nil =>
    rw [List.nil_append, meetsCased_cons, isCaseIgnorable_of_isBlank h, isCased_of_isBlank h]
    rfl
  | cons d text ih => rw [List.cons_append, meetsCased_cons, meetsCased_cons, ih]

/-- What stands before a blank has no part in the lower case of what follows. -/
theorem lowercaseAfter_of_blank_before (h : isBlank c = true) (before beyond text : List Char) :
    lowercaseAfter (before ++ c :: beyond) text = lowercaseAfter before text := by
  induction text generalizing before with
  | nil => rfl
  | cons d text ih =>
    -- what has been read stands in front of the blank, in the context too
    rw [lowercaseAfter, lowercaseAfter, lowerSigma, lowerSigma, meetsCased_append_blank h,
      ← List.cons_append, ih]

/-- What follows a blank has no part in the lower case of what stands before it. -/
theorem lowercaseAfter_append_blank (h : isBlank c = true) (before text after : List Char) :
    lowercaseAfter before (text ++ c :: after) =
      lowercaseAfter before text ++ c :: lowercase after := by
  induction text generalizing before with
  | nil =>
    obtain ⟨hsigma, hform⟩ := lowerForm_of_isBlank h
    have hafter : lowercaseAfter (c :: before) after = lowercase after :=
      lowercaseAfter_of_blank_before h [] before after
    show lowercaseAfter before (c :: after) = c :: lowercase after
    rw [lowercaseAfter, if_neg (by simpa using hsigma), hform, hafter, List.singleton_append]
  | cons d text ih =>
    rw [List.cons_append, lowercaseAfter, lowercaseAfter, lowerSigma, lowerSigma,
      meetsCased_append_blank h, ih, List.append_assoc]

/-- **Lower-casing splits at a blank.** -/
theorem lowercase_append_blank (h : isBlank c = true) (before after : List Char) :
    lowercase (before ++ c :: after) = lowercase before ++ c :: lowercase after :=
  lowercaseAfter_append_blank h [] before after

end

/-! ## Pieces between blanks -/

/-- A piece of a text with a blank or an end of the text on each of its two sides. -/
def IsDelimited (piece text : List Char) : Prop :=
  ∃ before after, text = before ++ piece ++ after ∧
    (∀ c ∈ before.getLast?, isBlank c = true) ∧ ∀ c ∈ after.head?, isBlank c = true

/-- What trimming takes away are blanks at the two ends. -/
theorem exists_blanks_around_trim (text : List Char) :
    ∃ lead tail, text = lead ++ trim text ++ tail ∧
      (∀ c ∈ lead, isBlank c = true) ∧ ∀ c ∈ tail, isBlank c = true := by
  refine ⟨text.takeWhile isBlank, ((text.dropWhile isBlank).reverse.takeWhile isBlank).reverse,
    ?_, fun c hc => List.mem_takeWhile_imp hc, fun c hc => ?_⟩
  · rw [trim, List.append_assoc, ← List.reverse_append, List.takeWhile_append_dropWhile,
      List.reverse_reverse, List.takeWhile_append_dropWhile]
  · exact List.mem_takeWhile_imp (List.mem_reverse.1 hc)

namespace IsDelimited

variable {piece text : List Char}

/-- A delimited piece is still one without the blanks at its ends. -/
theorem trim (h : IsDelimited piece text) : IsDelimited (trim piece) text := by
  obtain ⟨before, after, rfl, hbefore, hafter⟩ := h
  obtain ⟨lead, tail, hpiece, hlead, htail⟩ := exists_blanks_around_trim piece
  refine ⟨before ++ lead, tail ++ after, ?_, fun c hc => ?_, fun c hc => ?_⟩
  · conv_lhs => rw [hpiece]
    simp only [List.append_assoc]
  · rw [Option.mem_def, List.getLast?_append, Option.or_eq_some_iff] at hc
    obtain hc | ⟨-, hc⟩ := hc
    · exact hlead c (List.mem_of_getLast? hc)
    · exact hbefore c hc
  · rw [Option.mem_def, List.head?_append, Option.or_eq_some_iff] at hc
    obtain hc | ⟨-, hc⟩ := hc
    · exact htail c (List.mem_of_head? hc)
    · exact hafter c hc

/-- More text before a blank leaves a piece delimited. -/
theorem of_blank_before (h : IsDelimited piece text) {c : Char} (hc : isBlank c = true)
    (more : List Char) : IsDelimited piece (more ++ c :: text) := by
  obtain ⟨before, after, rfl, hbefore, hafter⟩ := h
  refine ⟨more ++ c :: before, after, by simp, fun d hd => ?_, hafter⟩
  rw [Option.mem_def, List.getLast?_append, List.getLast?_cons] at hd
  cases hlast : before.getLast? with
  | none =>
    obtain rfl : c = d := by simpa [hlast] using hd
    exact hc
  | some last =>
    obtain rfl : last = d := by simpa [hlast] using hd
    exact hbefore last hlast

/-- **A delimited piece is found in lower case**: its lower case is a piece of the lower case of the
text. -/
theorem lowercase_isInfix (h : IsDelimited piece text) : lowercase piece <:+: lowercase text := by
  obtain ⟨before, after, rfl, hbefore, hafter⟩ := h
  have hhead : lowercase piece <:+: lowercase (piece ++ after) := by
    cases after with
    | nil => rw [List.append_nil]
    | cons c after =>
      rw [lowercase_append_blank (hafter c rfl)]
      exact (List.prefix_append _ _).isInfix
  have htail : lowercase (piece ++ after) <:+: lowercase (before ++ (piece ++ after)) := by
    obtain rfl | ⟨before, c, rfl⟩ := List.eq_nil_or_concat before
    · rw [List.nil_append]
    · have hc : isBlank c = true := hbefore c (by simp)
      rw [List.concat_eq_append, List.append_assoc, List.singleton_append,
        lowercase_append_blank hc]
      exact (List.suffix_cons _ _).isInfix.trans (List.suffix_append _ _).isInfix
  rw [List.append_assoc]
  exact hhead.trans htail

end IsDelimited

/-- Each of several texts is delimited where they are joined by blanks. -/
theorem isDelimited_of_mem {fields : List (List Char)} {field : List Char} {c : Char}
    (hc : isBlank c = true) (h : field ∈ fields) : IsDelimited field ([c].intercalate fields) := by
  induction fields with
  | nil => simp at h
  | cons first rest ih =>
    cases rest with
    | nil =>
      obtain rfl : field = first := by simpa using h
      exact ⟨[], [], by simp, by simp, by simp⟩
    | cons second rest =>
      rw [List.intercalate_cons_cons]
      obtain rfl | hrest := List.mem_cons.1 h
      · exact ⟨[], [c] ++ [c].intercalate (second :: rest), by simp, by simp, by simpa using hc⟩
      · simpa using (ih hrest).of_blank_before hc first

end CodeMarkup
