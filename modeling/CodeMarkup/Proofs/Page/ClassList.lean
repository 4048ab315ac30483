import CodeMarkup.Page.Block
import CodeMarkup.Proofs.Text.Words

/-!
# The languages of a class list

A class list is a text, and its classes are the words of the text.  A class declares a language if
the language's tag stands in it behind a fixed lead.

* `languageOfClass?_eq_some_iff` — the tag that a class declares.
* `Declares` — classes that declare some tags, with any other classes among them (`declares_iff`).
* `languagesOfClasses_eq_iff` — a class list has the tags that its classes declare.
* `languagesOfClasses_laws` — the tags of a class list: they can be read on the two sides of any
  blanks, each of them comes from a class, and none is lost, added or moved.
-/

namespace CodeMarkup

/-- The class that declares a language. -/
def languageClass (tag : String) : List Char := languageClassLead ++ tag.toList

/-- Classes that declare some tags in this order.  Among them can be any classes without the lead
and the lead by itself. -/
inductive Declares : List String → List (List Char) → Prop
  /-- There is no class. -/
  | nil : Declares [] []
  /-- A class declares a tag. -/
  | tag {tag : String} {tags : List String} {classes : List (List Char)} (htag : IsWord tag.toList)
    (h : Declares tags classes) : Declares (tag :: tags) (languageClass tag :: classes)
  /-- A class declares none. -/
  | other {cls : List Char} {tags : List String} {classes : List (List Char)} (hcls : IsWord cls)
    (hlead : ¬ languageClassLead <+: cls ∨ cls = languageClassLead) (h : Declares tags classes) :
    Declares tags (cls :: classes)

/-! ## Single classes -/

theorem languageOfClass?_eq_some_iff {cls : List Char} {tag : String} :
    languageOfClass? cls = some tag ↔ tag.toList ≠ [] ∧ cls = languageClass tag := by
  simp only [languageOfClass?, Option.ite_none_right_eq_some, Bool.and_eq_true, decide_eq_true_eq,
    List.isPrefixOf_iff_prefix, Option.some.injEq]
  constructor
  · rintro ⟨⟨⟨rest, rfl⟩, hlength⟩, rfl⟩
    have hne : rest ≠ [] := by
      rintro rfl
      simp at hlength
    simp [languageClass, hne]
  · rintro ⟨hne, rfl⟩
    simp [languageClass, List.length_pos_iff.2 hne]

/-- A class declares no language exactly if it does not have the lead or is the lead. -/
theorem languageOfClass?_eq_none_iff {cls : List Char} :
    languageOfClass? cls = none ↔ ¬ languageClassLead <+: cls ∨ cls = languageClassLead := by
  constructor
  · intro h
    by_contra hlead
    obtain ⟨⟨rest, rfl⟩, hne⟩ := not_or.1 hlead |>.imp not_not.1 id
    have htag : languageOfClass? (languageClassLead ++ rest) = some (String.ofList rest) :=
      languageOfClass?_eq_some_iff.2 ⟨by simpa using hne, by simp [languageClass]⟩
    rw [h] at htag
    cases htag
  · intro h
    cases htag : languageOfClass? cls with
    | none => rfl
    | some tag =>
      obtain ⟨hne, rfl⟩ := languageOfClass?_eq_some_iff.1 htag
      rcases h with hlead | hlead
      · exact absurd (List.prefix_append _ _) hlead
      · exact absurd (by simpa [languageClass] using hlead) hne

/-- The class of a tag is a word exactly if the tag has no blank. -/
theorem isWord_languageClass_iff {tag : String} :
    IsWord (languageClass tag) ↔ ∀ c ∈ tag.toList, isBlank c = false := by
  have hlead : ∀ c ∈ languageClassLead, isBlank c = false := by
    have hall : languageClassLead.all (fun c => !isBlank c) = true := by decide
    simpa using hall
  constructor
  · intro h
    exact (List.forall_mem_append.1 h.notBlank).2
  · intro h
    exact ⟨List.append_ne_nil_of_left_ne_nil (by decide) _, List.forall_mem_append.2 ⟨hlead, h⟩⟩

/-! ## Class lists -/

/-- Classes declare the tags that are read of them. -/
theorem declares_iff {tags : List String} {classes : List (List Char)} :
    Declares tags classes ↔
      (∀ cls ∈ classes, IsWord cls) ∧ classes.filterMap languageOfClass? = tags := by
  constructor
  · intro h
    induction h with
    | nil => simp
    | @tag tag tags classes htag _ ih =>
      have hcls : languageOfClass? (languageClass tag) = some tag :=
        languageOfClass?_eq_some_iff.2 ⟨htag.ne_nil, rfl⟩
      rw [List.forall_mem_cons, List.filterMap_cons_some hcls, ih.2]
      exact ⟨⟨isWord_languageClass_iff.2 htag.notBlank, ih.1⟩, rfl⟩
    | other hcls hlead _ ih =>
      rw [List.forall_mem_cons, List.filterMap_cons_none (languageOfClass?_eq_none_iff.2 hlead)]
      exact ⟨⟨hcls, ih.1⟩, ih.2⟩
  · rintro ⟨hwords, rfl⟩
    induction classes with
    | nil => exact .nil
    | cons cls classes ih =>
      obtain ⟨hcls, hothers⟩ := List.forall_mem_cons.1 hwords
      cases htag : languageOfClass? cls with
      | none =>
        rw [List.filterMap_cons_none htag]
        exact .other hcls (languageOfClass?_eq_none_iff.1 htag) (ih hothers)
      | some tag =>
        rw [List.filterMap_cons_some htag]
        obtain ⟨hne, rfl⟩ := languageOfClass?_eq_some_iff.1 htag
        exact .tag ⟨hne, isWord_languageClass_iff.1 hcls⟩ (ih hothers)

/-- A class list has the tags that its classes declare, and every class list is written so. -/
theorem languagesOfClasses_eq_iff {text : List Char} {tags : List String} :
    languagesOfClasses text = tags ↔ ∃ classes, Spaced classes text ∧ Declares tags classes := by
  constructor
  · intro h
    exact ⟨words text, spaced_iff.2 rfl,
      declares_iff.2 ⟨fun cls hcls => (mem_words_iff.1 hcls).1, h⟩⟩
  · rintro ⟨classes, hspaced, hdeclares⟩
    rw [languagesOfClasses, hspaced.words_eq]
    exact (declares_iff.1 hdeclares).2

theorem mem_languagesOfClasses_iff {text : List Char} {tag : String} :
    tag ∈ languagesOfClasses text ↔
      IsWord tag.toList ∧ IsDelimited (languageClass tag) text := by
  simp only [languagesOfClasses, List.mem_filterMap, mem_words_iff, languageOfClass?_eq_some_iff]
  constructor
  · rintro ⟨cls, ⟨hword, hdelimited⟩, hne, rfl⟩
    exact ⟨⟨hne, isWord_languageClass_iff.1 hword⟩, hdelimited⟩
  · rintro ⟨htag, hdelimited⟩
    exact ⟨_, ⟨isWord_languageClass_iff.2 htag.notBlank, hdelimited⟩, htag.ne_nil, rfl⟩

/-- **The languages of a class list.**  They can be read on the two sides of any run of blanks.  A
tag is among them exactly if it is a word and its class stands between blanks.  A class list that is
written of classes, with any blanks between them and at its ends, has the tags that the classes
declare, in their order and as often, and no class list has other ones.  A new block keeps them. -/
theorem languagesOfClasses_laws :
    (∀ front gap back, gap ≠ [] → (∀ c ∈ gap, isBlank c = true) →
        languagesOfClasses (front ++ gap ++ back) =
          languagesOfClasses front ++ languagesOfClasses back) ∧
      (∀ text tag, tag ∈ languagesOfClasses text ↔
        IsWord tag.toList ∧ IsDelimited (languageClass tag) text) ∧
      (∀ text tags, languagesOfClasses text = tags ↔
        ∃ classes, Spaced classes text ∧ Declares tags classes) ∧
      ∀ source text, (Block.ofClasses source text).languages = languagesOfClasses text := by
  refine ⟨fun front gap back hne hgap => ?_, fun text tag => mem_languagesOfClasses_iff,
    fun text tags => languagesOfClasses_eq_iff, fun source text => rfl⟩
  rw [languagesOfClasses, words_append_blanks hne hgap, List.filterMap_append]
  rfl

/-- A tag can start with the lead, the lead by itself is no tag, and any blank parts two classes. -/
example : languagesOfClasses
    "\tlanguage-\u00a0language-language-php wide  language-none\u2003language-none ".toList =
      ["language-php", "none", "none"] := by
  decide +kernel

end CodeMarkup
