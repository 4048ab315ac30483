import CodeMarkup.Proofs.Markup.Safe

/-!
# Texts that have been escaped

Escaping loses nothing, and it can be told from a text whether it has been escaped: it has no angle
bracket, and each of its ampersands starts an entity.  Every such text is the escaped form of just
one other, which reading the entities gives back.

* `IsEscaped` — a text that could have been escaped; every escaped text is such
  (`isEscaped_escape`).
* `IsEscaped.eq_escapeChar_append` — what stands at its front is one escaped character, and so all
  of it is an escaped text (`IsEscaped.exists_escape`).
* `escape_eq_self_iff` — what escaping leaves alone.
* `escape_bijective` — texts and escaped texts belong to each other one by one.
-/

namespace CodeMarkup

/-- A text without angle brackets, in which every ampersand starts an entity. -/
structure IsEscaped (markup : List Char) : Prop where
  less : '<' ∉ markup
  greater : '>' ∉ markup
  ampersand : ∀ before after, markup = before ++ '&' :: after →
    ∃ entity ∈ entities, entity <+: '&' :: after

theorem isEscaped_escape (text : List Char) : IsEscaped (escape text) where
  less := by
    intro h
    obtain ⟨c, -, hc⟩ := List.mem_flatMap.1 h
    exact notMem_escapeChar (by decide) (by decide) c hc
  greater := by
    intro h
    obtain ⟨c, -, hc⟩ := List.mem_flatMap.1 h
    exact notMem_escapeChar (by decide) (by decide) c hc
  ampersand := by
    intro before after h
    obtain ⟨c, -, us, vs, hc, -, hvs⟩ := flatMap_eq_append_cons h
    exact ⟨'&' :: vs, mem_entities_of_escapeChar_eq hc, List.cons_prefix_cons.2 ⟨rfl, hvs⟩⟩

theorem exists_escapeChar_of_mem_entities {entity : List Char} (h : entity ∈ entities) :
    ∃ c, escapeChar c = entity := by
  simp only [entities, List.mem_cons, List.not_mem_nil, or_false] at h
  rcases h with rfl | rfl | rfl
  · exact ⟨'&', rfl⟩
  · exact ⟨'<', rfl⟩
  · exact ⟨'>', rfl⟩

namespace IsEscaped

variable {markup : List Char}

theorem of_append {front : List Char} (h : IsEscaped (front ++ markup)) : IsEscaped markup where
  less := fun hmem => h.less (List.mem_append_right _ hmem)
  greater := fun hmem => h.greater (List.mem_append_right _ hmem)
  ampersand := by
    rintro before after rfl
    exact h.ampersand (front ++ before) after (by simp)

/-- At the front stands one escaped character. -/
theorem eq_escapeChar_append (h : IsEscaped markup) (hne : markup ≠ []) :
    ∃ c rest, markup = escapeChar c ++ rest := by
  obtain ⟨d, rest, rfl⟩ := List.exists_cons_of_ne_nil hne
  by_cases hd : d = '&'
  · subst hd
    obtain ⟨entity, hentity, tail, htail⟩ := h.ampersand [] rest rfl
    obtain ⟨c, rfl⟩ := exists_escapeChar_of_mem_entities hentity
    exact ⟨c, tail, htail.symm⟩
  · have hless : d ≠ '<' := fun heq => h.less (heq ▸ List.mem_cons_self)
    have hgreater : d ≠ '>' := fun heq => h.greater (heq ▸ List.mem_cons_self)
    have hplain : d ∉ reserved := by simp [reserved, hd, hless, hgreater]
    exact ⟨d, rest, by rw [escapeChar_of_notMem hplain, List.singleton_append]⟩

/-- It is an escaped text. -/
theorem exists_escape (h : IsEscaped markup) : ∃ text, escape text = markup := by
  induction hlength : markup.length using Nat.strong_induction_on generalizing markup with
  | _ n ih =>
    subst hlength
    by_cases hne : markup = []
    · exact ⟨[], hne.symm⟩
    · obtain ⟨c, rest, rfl⟩ := h.eq_escapeChar_append hne
      have hlt : rest.length < (escapeChar c ++ rest).length := by
        simpa using List.length_pos_iff.2 (escapeChar_ne_nil c)
      obtain ⟨text, rfl⟩ := ih rest.length hlt h.of_append rfl
      exact ⟨c :: text, List.flatMap_cons⟩

/-- Reading the entities and escaping again gives the text back. -/
theorem escape_unescape (h : IsEscaped markup) : escape (unescape markup) = markup := by
  obtain ⟨text, rfl⟩ := h.exists_escape
  rw [unescape_escape]

end IsEscaped

theorem escape_injective : Function.Injective escape :=
  Function.LeftInverse.injective unescape_escape

/-! ## What escaping leaves alone -/

theorem length_le_length_escape (text : List Char) : text.length ≤ (escape text).length := by
  induction text with
  | nil => exact Nat.le_refl 0
  | cons c text ih =>
    have hpos : 0 < (escapeChar c).length := List.length_pos_iff.2 (escapeChar_ne_nil c)
    rw [escape, List.flatMap_cons, List.length_append, List.length_cons, ← escape]
    omega

/-- An entity is longer than the character that it is for. -/
theorem one_lt_length_escapeChar {c : Char} (h : c ∈ reserved) : 1 < (escapeChar c).length := by
  simp only [reserved, List.mem_cons, List.not_mem_nil, or_false] at h
  rcases h with rfl | rfl | rfl <;> decide

/-- Escaping leaves a text alone exactly if there is nothing to be escaped. -/
theorem escape_eq_self_iff {text : List Char} : escape text = text ↔ ∀ c ∈ text, c ∉ reserved := by
  induction text with
  | nil => simp [escape]
  | cons c text ih =>
    rw [escape, List.flatMap_cons, ← escape, List.forall_mem_cons, ← ih]
    by_cases hc : c ∈ reserved
    · -- with an entity the text becomes longer, since the rest does not become shorter
      have hlong : text.length + 1 < (escapeChar c ++ escape text).length := by
        have hchar := one_lt_length_escapeChar hc
        have hrest := length_le_length_escape text
        rw [List.length_append]
        omega
      have hne : escapeChar c ++ escape text ≠ c :: text := fun heq => by
        rw [heq, List.length_cons] at hlong
        exact Nat.lt_irrefl _ hlong
      simp [hne, hc]
    · simp [escapeChar_of_notMem hc, hc]

/-- **Texts and escaped texts belong to each other one by one.**  Reading the entities back, the
ampersand last, undoes escaping.  The texts that escaping leads to are those without angle brackets
in which every ampersand starts an entity, and on these reading is undone by escaping.  No two texts
become the same, and a text is changed by being escaped twice instead of once, except if nothing in
it is escaped. -/
theorem escape_bijective :
    (∀ text, unescape (escape text) = text) ∧
      (∀ markup, (∃ text, escape text = markup) ↔ IsEscaped markup) ∧
      (∀ markup, IsEscaped markup → escape (unescape markup) = markup) ∧
      Function.Injective escape ∧
      ∀ text, escape (escape text) = escape text ↔ ∀ c ∈ text, c ∉ reserved := by
  refine ⟨unescape_escape, fun markup => ⟨?_, IsEscaped.exists_escape⟩,
    fun markup h => h.escape_unescape, escape_injective, fun text => ?_⟩
  · rintro ⟨text, rfl⟩
    exact isEscaped_escape text
  · rw [escape_injective.eq_iff, escape_eq_self_iff]

end CodeMarkup
