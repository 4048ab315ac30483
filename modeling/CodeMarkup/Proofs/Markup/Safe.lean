import CodeMarkup.Proofs.Markup.Mark
import CodeMarkup.Settings

/-!
# Markup that is safe to put on a page

A lead of class names is valid if it has no character that could end a tag.  Then every angle
bracket of markup is part of a tag of a span, and every ampersand starts an entity: the text brings
no markup of its own.

* `MarkupSafe` — what is said of each angle bracket and each ampersand.
* `markupSafe_flatMap_write` — it holds of all that is written mark by mark.
-/

namespace CodeMarkup

/-- Markup without any angle bracket or ampersand that is not part of a tag of a span or of an
entity. -/
structure MarkupSafe (lead markup : List Char) : Prop where
  /-- Where an angle bracket opens, a tag starts. -/
  opening : ∀ before after, markup = before ++ '<' :: after →
    ∃ tag ∈ Mark.tags, tag.write lead <+: '<' :: after
  /-- Where an angle bracket closes, a tag ends. -/
  closing : ∀ before after, markup = before ++ '>' :: after →
    ∃ tag ∈ Mark.tags, tag.write lead <:+ before ++ ['>']
  /-- Where an ampersand stands, an entity starts. -/
  ampersand : ∀ before after, markup = before ++ '&' :: after →
    ∃ entity ∈ entities, entity <+: '&' :: after

/-- A valid lead has no character that stands in markup as an entity. -/
theorem notMem_of_isValidLead {lead : List Char} (h : Settings.isValidLead lead = true) :
    ∀ x ∈ reserved, x ∉ lead := by
  intro x hx hmem
  simp only [Settings.isValidLead, Bool.and_eq_true, Bool.not_eq_true', List.any_eq_false] at h
  have hx' : Settings.isReserved x = true := by
    simp only [reserved, List.mem_cons, List.not_mem_nil, or_false] at hx
    rcases hx with rfl | rfl | rfl <;> decide
  exact h.2 x hmem hx'

/-- In a text made of words every character is in one of the words. -/
theorem flatMap_eq_append_cons {α β : Type} {word : α → List β} {xs : List α}
    {before after : List β} {b : β} (h : xs.flatMap word = before ++ b :: after) :
    ∃ x ∈ xs, ∃ us vs, word x = us ++ b :: vs ∧ us <:+ before ∧ vs <+: after := by
  induction xs generalizing before with
  | nil => simp at h
  | cons x xs ih =>
    rw [List.flatMap_cons] at h
    obtain ⟨more, rfl, hmore⟩ | ⟨more, hword, hmore⟩ := List.append_eq_append_iff.1 h
    · obtain ⟨y, hy, us, vs, hword, hus, hvs⟩ := ih hmore
      exact ⟨y, List.mem_cons_of_mem x hy, us, vs, hword, hus.trans (List.suffix_append _ _), hvs⟩
    · cases more with
      | nil =>
        -- The word ends right before the character, which is in a later one.
        have hrest : xs.flatMap word = [] ++ b :: after := by simpa using hmore.symm
        obtain ⟨y, hy, us, vs, hword', hus, hvs⟩ := ih hrest
        have hus' : us <:+ before := by
          rw [List.suffix_nil.1 hus]
          exact List.nil_suffix
        exact ⟨y, List.mem_cons_of_mem x hy, us, vs, hword', hus', hvs⟩
      | cons c more =>
        obtain ⟨rfl, rfl⟩ := List.cons.inj hmore
        exact ⟨x, List.mem_cons_self, before, more, hword, List.suffix_rfl, List.prefix_append _ _⟩

namespace Mark

variable {lead : List Char} {m : Mark}

/-- The only reserved characters of a tag are the angle brackets at its ends. -/
theorem write_eq_cons_append (h : m ∈ tags) (hlead : ∀ x ∈ reserved, x ∉ lead) :
    ∃ middle, m.write lead = '<' :: (middle ++ ['>']) ∧ ∀ x ∈ reserved, x ∉ middle := by
  simp only [tags, List.mem_cons, List.mem_map] at h
  rcases h with rfl | ⟨c, -, rfl⟩
  · exact ⟨['/', 's', 'p', 'a', 'n'], spanClose_eq, by simp [reserved]⟩
  · have hfront : ∀ x ∈ reserved,
        x ∉ ['s', 'p', 'a', 'n', ' ', 'c', 'l', 'a', 's', 's', '=', '"'] := by simp [reserved]
    have hname : ∀ x ∈ reserved, x ∉ c.name.toList := by
      cases c <;> simp [reserved, TokenClass.name]
    have hquote : ∀ x ∈ reserved, x ∉ ['"'] := by simp [reserved]
    refine ⟨['s', 'p', 'a', 'n', ' ', 'c', 'l', 'a', 's', 's', '=', '"'] ++
      (lead ++ (c.name.toList ++ ['"'])), ?_, ?_⟩
    · simp [write, spanOpen_eq]
    · intro x hx
      simp only [List.mem_append, not_or]
      exact ⟨hfront x hx, hlead x hx, hname x hx, hquote x hx⟩

/-- A mark with an angle bracket in it is a tag. -/
theorem mem_tags_of_mem_write {x : Char} (hx : x ∈ reserved) (hne : x ≠ '&')
    (h : x ∈ m.write lead) : m ∈ tags := by
  cases m with
  | char c => exact absurd h (notMem_escapeChar hx hne c)
  | opens c => exact opens_mem_tags c
  | closes => exact List.mem_cons_self

/-- With a valid lead, an opening angle bracket is the first character of a tag. -/
theorem write_of_lt {us vs : List Char} (hlead : ∀ x ∈ reserved, x ∉ lead)
    (h : m.write lead = us ++ '<' :: vs) : m ∈ tags ∧ us = [] := by
  have hmem : '<' ∈ m.write lead := by
    simp [h]
  have hm := mem_tags_of_mem_write (by decide) (by decide) hmem
  obtain ⟨middle, hwrite, hmiddle⟩ := write_eq_cons_append hm hlead
  have hnotMem : '<' ∉ middle ++ ['>'] := by
    simp [hmiddle '<' (by decide)]
  have hsplit : [] ++ '<' :: (middle ++ ['>']) = us ++ '<' :: vs := by
    rw [List.nil_append, ← hwrite, h]
  exact ⟨hm, ((List.append_cons_inj_of_notMem List.not_mem_nil hnotMem).1 hsplit).1.symm⟩

/-- With a valid lead, a closing angle bracket is the last character of a tag. -/
theorem write_of_gt {us vs : List Char} (hlead : ∀ x ∈ reserved, x ∉ lead)
    (h : m.write lead = us ++ '>' :: vs) : m ∈ tags ∧ vs = [] := by
  have hmem : '>' ∈ m.write lead := by
    simp [h]
  have hm := mem_tags_of_mem_write (by decide) (by decide) hmem
  obtain ⟨middle, hwrite, hmiddle⟩ := write_eq_cons_append hm hlead
  have hnotMem : '>' ∉ '<' :: middle := by
    simp [hmiddle '>' (by decide)]
  have hsplit : '<' :: middle ++ '>' :: [] = us ++ '>' :: vs := by
    rw [List.cons_append, ← hwrite, h]
  exact ⟨hm, ((List.append_cons_inj_of_notMem hnotMem List.not_mem_nil).1 hsplit).2.2.symm⟩

/-- With a valid lead, an ampersand is the first character of an entity. -/
theorem write_of_ampersand {us vs : List Char} (hlead : ∀ x ∈ reserved, x ∉ lead)
    (h : m.write lead = us ++ '&' :: vs) : '&' :: vs ∈ entities := by
  have hmem : '&' ∈ m.write lead := by
    simp [h]
  have hnotTag : m ∉ tags := by
    intro hm
    obtain ⟨middle, hwrite, hmiddle⟩ := write_eq_cons_append hm hlead
    rw [hwrite] at hmem
    simp [hmiddle '&' (by decide)] at hmem
  cases m with
  | char c => exact mem_entities_of_escapeChar_eq h
  | opens c => exact absurd (opens_mem_tags c) hnotTag
  | closes => exact absurd List.mem_cons_self hnotTag

end Mark

/-- **Marks with a valid lead are safe markup.** -/
theorem markupSafe_flatMap_write {lead : List Char} (hlead : Settings.isValidLead lead = true)
    (marks : List Mark) : MarkupSafe lead (marks.flatMap (Mark.write lead)) := by
  have hfree := notMem_of_isValidLead hlead
  constructor
  · intro before after h
    obtain ⟨m, -, us, vs, hwrite, -, hvs⟩ := flatMap_eq_append_cons h
    obtain ⟨hm, rfl⟩ := Mark.write_of_lt hfree hwrite
    refine ⟨m, hm, ?_⟩
    rw [hwrite, List.nil_append, List.cons_prefix_cons]
    exact ⟨rfl, hvs⟩
  · intro before after h
    obtain ⟨m, -, us, vs, hwrite, hus, -⟩ := flatMap_eq_append_cons h
    obtain ⟨hm, rfl⟩ := Mark.write_of_gt hfree hwrite
    refine ⟨m, hm, ?_⟩
    rw [hwrite]
    exact List.suffix_append_self_iff.2 hus
  · intro before after h
    obtain ⟨m, -, us, vs, hwrite, -, hvs⟩ := flatMap_eq_append_cons h
    refine ⟨'&' :: vs, Mark.write_of_ampersand hfree hwrite, ?_⟩
    rw [List.cons_prefix_cons]
    exact ⟨rfl, hvs⟩

end CodeMarkup
