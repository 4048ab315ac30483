import Mathlib.Data.List.Induction
import CodeMarkup.Proofs.Page.Lifecycle
import CodeMarkup.Proofs.Text.ByteOrder

/-!
# Which definition a tag stands for

Languages are registered one after the other.  A tag belongs to the last of them that declares it,
and the name of that one stands for the last of them that has the name.

* `IsLast` — the last member of a list with a property, and its position.
* `Dictionary.keys_insert_pairwise` — the names of a dictionary stay in order.
* `Highlighter.Knows` — what a highlighter has recorded of the languages registered so far.  It
  holds of the highlighter that knows none and is kept by each registration
  (`Highlighter.Knows.addLanguage`) and by each action on a page (`Page.act_knows`).
-/

namespace CodeMarkup

/-! ## Last members -/

/-- The last member of a list with a property is `x`, at position `i`. -/
structure IsLast {α : Type} (p : α → Prop) (xs : List α) (i : Nat) (x : α) : Prop where
  here : xs[i]? = some x
  holds : p x
  later : ∀ j y, i < j → xs[j]? = some y → ¬ p y

namespace IsLast

variable {α : Type} {p : α → Prop} {xs : List α} {i : Nat} {x y : α}

/-- A new member is the last one with a property if it has it, and changes nothing if not. -/
theorem concat_iff :
    IsLast p (xs ++ [x]) i y ↔ (p x ∧ i = xs.length ∧ y = x) ∨ (¬ p x ∧ IsLast p xs i y) := by
  have hconcat : (xs ++ [x])[xs.length]? = some x := List.getElem?_concat_length
  constructor
  · intro h
    have hle : i < (xs ++ [x]).length := (List.getElem?_eq_some_iff.1 h.here).1
    rw [List.length_append, List.length_singleton] at hle
    rcases Nat.lt_or_eq_of_le (Nat.le_of_lt_succ hle) with hlt | rfl
    · refine .inr ⟨h.later _ x hlt hconcat, ?_, h.holds, fun j z hij hz => ?_⟩
      · rw [← h.here, List.getElem?_append_left hlt]
      · have hj : j < xs.length := (List.getElem?_eq_some_iff.1 hz).1
        exact h.later j z hij (by rw [List.getElem?_append_left hj, hz])
    · have hxy : y = x := Option.some.inj (h.here.symm.trans hconcat)
      exact .inl ⟨hxy ▸ h.holds, rfl, hxy⟩
  · rintro (⟨hp, rfl, rfl⟩ | ⟨hp, h⟩)
    · refine ⟨hconcat, hp, fun j z hij hz => ?_⟩
      have hj := (List.getElem?_eq_some_iff.1 hz).1
      rw [List.length_append, List.length_singleton] at hj
      omega
    · have hi := (List.getElem?_eq_some_iff.1 h.here).1
      refine ⟨by rw [List.getElem?_append_left hi, h.here], h.holds, fun j z hij hz => ?_⟩
      have hj := (List.getElem?_eq_some_iff.1 hz).1
      rw [List.length_append, List.length_singleton] at hj
      rcases Nat.lt_or_eq_of_le (Nat.le_of_lt_succ hj) with hlt | rfl
      · rw [List.getElem?_append_left hlt] at hz
        exact h.later j z hij hz
      · have hxz : x = z := Option.some.inj (hconcat.symm.trans hz)
        exact hxz ▸ hp

/-- Some member has a property if and only if there is a last one. -/
theorem exists_iff : (∃ i x, IsLast p xs i x) ↔ ∃ x ∈ xs, p x := by
  constructor
  · rintro ⟨i, x, h⟩
    exact ⟨x, List.mem_of_getElem? h.here, h.holds⟩
  · rintro ⟨x, hmem, hp⟩
    induction xs using List.reverseRecOn with
    | nil => cases hmem
    | append_singleton xs y ih =>
      by_cases hy : p y
      · exact ⟨_, y, concat_iff.2 (.inl ⟨hy, rfl, rfl⟩)⟩
      · have hne : x ≠ y := fun heq => hy (heq ▸ hp)
        obtain ⟨i, z, h⟩ := ih (by simpa [hne] using hmem)
        exact ⟨i, z, concat_iff.2 (.inr ⟨hy, h⟩)⟩

end IsLast

/-! ## Names in order -/

namespace Dictionary

variable {α : Type} {entries : Dictionary α} {name : String} {value : α}

theorem mem_keys_insert_iff {key : String} :
    key ∈ (entries.insert name value).keys ↔ key = name ∨ key ∈ entries.keys := by
  rw [mem_keys_iff, mem_keys_iff, get?_insert]
  by_cases hkey : key = name
  · simp [hkey]
  · simp [hkey]

/-- The names of a dictionary stay in order, without duplicates. -/
theorem keys_insert_pairwise (h : entries.keys.Pairwise (· < ·)) :
    (entries.insert name value).keys.Pairwise (· < ·) := by
  induction entries with
  | nil => exact List.pairwise_singleton _ name
  | cons entry rest ih =>
    obtain ⟨old, oldValue⟩ := entry
    obtain ⟨hold, hrest⟩ := List.pairwise_cons.1 h
    unfold insert
    split
    · rename_i hlt
      refine List.pairwise_cons.2 ⟨?_, h⟩
      intro key hmem
      rcases List.mem_cons.1 hmem with rfl | hmem
      · exact hlt
      · exact String.lt_trans hlt (hold key hmem)
    · split
      · rename_i heq
        exact List.pairwise_cons.2 ⟨fun key hmem => heq ▸ hold key hmem, hrest⟩
      · rename_i hle hne
        have hlt : old < name := Decidable.of_not_not fun hge =>
          hne (String.le_antisymm (String.not_lt.1 hge) (String.not_lt.1 hle))
        refine List.pairwise_cons.2 ⟨fun key hmem => ?_, ih hrest⟩
        rcases mem_keys_insert_iff.1 hmem with rfl | hmem
        · exact hlt
        · exact hold key hmem

theorem keys_foldl_insert_pairwise (names : List String) (h : entries.keys.Pairwise (· < ·)) :
    (names.foldl (fun entries name => entries.insert name value) entries).keys.Pairwise
      (· < ·) := by
  induction names generalizing entries with
  | nil => exact h
  | cons name names ih => exact ih (keys_insert_pairwise h)

end Dictionary

/-! ## What is recorded of the languages -/

/-- A language declares a tag. -/
def Language.Declares (tag : String) (language : Language) : Prop := tag ∈ language.tags

/-- A language has a name. -/
def Language.HasName (name : String) (language : Language) : Prop := language.name = name

namespace Highlighter

/-- What a highlighter has recorded of languages that have been registered one after the other. -/
structure Knows (highlighter : Highlighter) (languages : List Language) : Prop where
  /-- The tags are in order. -/
  sorted : highlighter.tags.Pairwise (· < ·)
  /-- A tag has the name of the last language that declares it. -/
  name_iff : ∀ tag name, highlighter.names.get? tag = some name ↔
    ∃ i claimant, IsLast (Language.Declares tag) languages i claimant ∧
      claimant.name = name
  /-- A name stands for the last language that has it. -/
  language_iff : ∀ name language, highlighter.languages.get? name = some language ↔
    ∃ j, IsLast (Language.HasName name) languages j language

namespace Knows

variable {highlighter : Highlighter} {languages : List Language} {tag : String}
  {language : Language}

theorem empty : Highlighter.empty.Knows [] where
  sorted := List.Pairwise.nil
  name_iff := by
    intro tag name
    constructor
    · intro h
      cases h
    · rintro ⟨i, claimant, h, -⟩
      exact absurd h.here (by simp)
  language_iff := by
    intro name language
    constructor
    · intro h
      cases h
    · rintro ⟨j, h⟩
      exact absurd h.here (by simp)

/-- One more language takes over its tags and its name. -/
theorem addLanguage (h : highlighter.Knows languages) (language : Language) :
    (highlighter.addLanguage language).Knows (languages ++ [language]) where
  sorted := Dictionary.keys_foldl_insert_pairwise language.tags h.sorted
  name_iff := by
    intro tag name
    rw [get?_names_addLanguage]
    simp only [IsLast.concat_iff, Language.Declares]
    by_cases htag : tag ∈ language.tags
    · simp [htag]
    · simpa [htag] using h.name_iff tag name
  language_iff := by
    intro name found
    rw [get?_languages_addLanguage]
    simp only [IsLast.concat_iff, Language.HasName]
    by_cases hname : language.name = name
    · simp [hname, eq_comm]
    · simpa [hname, Ne.symm hname] using h.language_iff name found

/-- The registered tags are those that a language declares. -/
theorem mem_tags_iff (h : highlighter.Knows languages) :
    tag ∈ highlighter.tags ↔ ∃ language ∈ languages, language.Declares tag := by
  rw [← IsLast.exists_iff]
  refine Dictionary.mem_keys_iff.trans ?_
  constructor
  · rintro ⟨name, hname⟩
    obtain ⟨i, claimant, hlast, -⟩ := (h.name_iff tag name).1 hname
    exact ⟨i, claimant, hlast⟩
  · rintro ⟨i, claimant, hlast⟩
    exact ⟨claimant.name, (h.name_iff tag _).2 ⟨i, claimant, hlast, rfl⟩⟩

/-- A tag stands for the last language that has the name of the last one that declares it. -/
theorem languageForTag?_eq_some_iff (h : highlighter.Knows languages) :
    highlighter.languageForTag? tag = some language ↔
      ∃ i claimant j, i ≤ j ∧
        IsLast (Language.Declares tag) languages i claimant ∧
        IsLast (Language.HasName claimant.name) languages j language := by
  rw [languageForTag?, Option.bind_eq_some_iff]
  constructor
  · rintro ⟨name, hname, hlanguage⟩
    obtain ⟨i, claimant, hclaims, rfl⟩ := (h.name_iff tag name).1 hname
    obtain ⟨j, hnamed⟩ := (h.language_iff _ language).1 hlanguage
    -- the claimant has its own name, so that the last one with this name is not before it
    have hle : i ≤ j := Nat.not_lt.1 fun hlt => hnamed.later i claimant hlt hclaims.here rfl
    exact ⟨i, claimant, j, hle, hclaims, hnamed⟩
  · rintro ⟨i, claimant, j, -, hclaims, hnamed⟩
    exact ⟨claimant.name, (h.name_iff tag _).2 ⟨i, claimant, hclaims, rfl⟩,
      (h.language_iff _ language).2 ⟨j, hnamed⟩⟩

/-! ## One more language -/

theorem mem_tags_addLanguage (h : highlighter.Knows languages) (language : Language)
    (hmem : tag ∈ highlighter.tags) : tag ∈ (highlighter.addLanguage language).tags := by
  obtain ⟨other, hother, htag⟩ := h.mem_tags_iff.1 hmem
  exact (h.addLanguage language).mem_tags_iff.2 ⟨other, List.mem_append_left _ hother, htag⟩

/-- A language has the tags that it declares. -/
theorem languageForTag?_of_mem (h : highlighter.Knows languages) (htag : tag ∈ language.tags) :
    (highlighter.addLanguage language).languageForTag? tag = some language :=
  (h.addLanguage language).languageForTag?_eq_some_iff.2
    ⟨languages.length, language, languages.length, Nat.le_refl _,
      IsLast.concat_iff.2 (.inl ⟨htag, rfl, rfl⟩), IsLast.concat_iff.2 (.inl ⟨rfl, rfl, rfl⟩)⟩

/-- A tag that a language does not declare keeps its language, unless the new one has its name. -/
theorem languageForTag?_of_notMem (h : highlighter.Knows languages) (htag : tag ∉ language.tags)
    {old : Language} (hold : highlighter.languageForTag? tag = some old) :
    (highlighter.addLanguage language).languageForTag? tag =
      some (if old.name = language.name then language else old) := by
  obtain ⟨i, claimant, j, hle, hclaims, hnamed⟩ := h.languageForTag?_eq_some_iff.1 hold
  have hname : old.name = claimant.name := hnamed.holds
  have hclaims' : IsLast (Language.Declares tag) (languages ++ [language]) i claimant :=
    IsLast.concat_iff.2 (.inr ⟨htag, hclaims⟩)
  refine (h.addLanguage language).languageForTag?_eq_some_iff.2 ?_
  by_cases hsame : old.name = language.name
  · have hi := (List.getElem?_eq_some_iff.1 hclaims.here).1
    rw [if_pos hsame]
    exact ⟨i, claimant, languages.length, Nat.le_of_lt hi, hclaims',
      IsLast.concat_iff.2 (.inl ⟨hsame.symm.trans hname, rfl, rfl⟩)⟩
  · have hother : language.name ≠ claimant.name := fun heq => hsame (hname.trans heq.symm)
    rw [if_neg hsame]
    exact ⟨i, claimant, j, hle, hclaims', IsLast.concat_iff.2 (.inr ⟨hother, hnamed⟩)⟩

end Knows

/-- The languages that a new highlighter has registered. -/
def Origin.languages : Origin → List Language
  | empty => []
  | builtin | ofSettings _ => Language.builtin

/-- The built-in languages are registered like any others. -/
theorem Origin.knows (origin : Origin) : origin.highlighter.Knows origin.languages := by
  have hbuiltin : Highlighter.builtin.Knows Language.builtin :=
    (Knows.empty.addLanguage Language.php).addLanguage Language.bash
  cases origin with
  | empty => exact .empty
  | builtin => exact hbuiltin
  | ofSettings settings => exact ⟨hbuiltin.sorted, hbuiltin.name_iff, hbuiltin.language_iff⟩

end Highlighter

/-! ## Histories -/

/-- The language that an action registers, if it registers one. -/
def PageAction.registers? : PageAction → Option Language
  | addLanguage language => some language
  | _ => none

namespace Page

/-- The languages that have been registered on a page, in order. -/
def registered (origin : Highlighter.Origin) (actions : List PageAction) : List Language :=
  origin.languages ++ actions.filterMap PageAction.registers?

theorem act_knows {page : Page} {languages : List Language} (h : page.highlighter.Knows languages)
    (action : PageAction) :
    (page.act action).highlighter.Knows (languages ++ action.registers?.toList) := by
  cases action with
  | addLanguage language => exact h.addLanguage language
  | toggle | setEnabled | addBlock | addClassedBlock | highlightBlock | highlightAll =>
    simp only [PageAction.registers?, Option.toList_none, List.append_nil]
    exact ⟨h.sorted, h.name_iff, h.language_iff⟩

theorem run_knows {page : Page} {languages : List Language} (h : page.highlighter.Knows languages)
    (actions : List PageAction) :
    (page.run actions).highlighter.Knows
      (languages ++ actions.filterMap PageAction.registers?) := by
  induction actions generalizing page languages with
  | nil => simpa [run] using h
  | cons action actions ih =>
    have hrest := ih (act_knows h action)
    rw [List.append_assoc] at hrest
    cases hregisters : action.registers? with
    | none => simpa [hregisters, run] using hrest
    | some language => simpa [hregisters, run] using hrest

/-- **Tags and the languages that they stand for.**  After any history of a page, the tags are those
that some registered language declares, in the order of their bytes and each once.  A tag that is
not among them stands for nothing; any other stands for the last language that has the name of the
last language that declares it.  So with one more language no tag is lost, the language has the tags
that it declares, and each other tag that stood for a language of its name stands for it now. -/
theorem run_languageForTag?_iff (origin : Highlighter.Origin) (actions : List PageAction) :
    let highlighter := ((start origin).run actions).highlighter
    (highlighter.tags.Pairwise fun s t => utf8Bytes s < utf8Bytes t) ∧
      (∀ tag, tag ∈ highlighter.tags ↔
        ∃ language ∈ registered origin actions, language.Declares tag) ∧
      (∀ tag, highlighter.languageForTag? tag = none ↔ tag ∉ highlighter.tags) ∧
      (∀ tag language, highlighter.languageForTag? tag = some language ↔
        ∃ i claimant j, i ≤ j ∧
          IsLast (Language.Declares tag) (registered origin actions) i
            claimant ∧
          IsLast (Language.HasName claimant.name) (registered origin actions) j
            language) ∧
      ∀ language tag,
        (tag ∈ highlighter.tags → tag ∈ (highlighter.addLanguage language).tags) ∧
        (tag ∈ language.tags →
          (highlighter.addLanguage language).languageForTag? tag = some language) ∧
        ∀ old, tag ∉ language.tags → highlighter.languageForTag? tag = some old →
          (highlighter.addLanguage language).languageForTag? tag =
            some (if old.name = language.name then language else old) := by
  intro highlighter
  have hknows : highlighter.Knows (registered origin actions) := run_knows origin.knows actions
  have hsound : highlighter.Sound := run_sound origin.sound actions
  refine ⟨hknows.sorted.imp utf8Bytes_lt, fun tag => hknows.mem_tags_iff,
    fun tag => hsound.languageForTag?_eq_none_iff,
    fun tag language => hknows.languageForTag?_eq_some_iff, fun language tag => ⟨?_, ?_, ?_⟩⟩
  · exact hknows.mem_tags_addLanguage language
  · exact hknows.languageForTag?_of_mem
  · exact fun old htag hold => hknows.languageForTag?_of_notMem htag hold

end Page

end CodeMarkup
