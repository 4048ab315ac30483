import CodeMarkup.Page.Highlighter

/-!
# Registered tags

A highlighter looks a tag up in two steps: the tag gives a name, and the name a language.  The two
dictionaries are only changed together, so that no registered tag stands for nothing.

* `Dictionary.get?_insert` — a dictionary with a new value.
* `Highlighter.Sound` — every registered tag stands for a language.  It holds of the highlighters
  that one starts with and is kept when languages are added.
* `Highlighter.Resolves` — the language of a list of tags, which the first registered one decides;
  it is what a sound highlighter finds (`Highlighter.Sound.findSome?_eq_some_iff`).
-/

namespace CodeMarkup

/-! ## Dictionaries -/

namespace Dictionary

variable {α : Type} {entries : Dictionary α}

theorem get?_insert (key name : String) (value : α) (entries : Dictionary α) :
    (entries.insert name value).get? key = if key = name then some value else entries.get? key := by
  induction entries with
  | nil => rfl
  | cons entry rest ih =>
    obtain ⟨old, oldValue⟩ := entry
    unfold insert
    split
    · rfl
    · split
      · rename_i hname
        subst hname
        by_cases hkey : key = name
        · simp [get?, hkey]
        · simp [get?, hkey]
      · rename_i hname
        simp only [get?, ih]
        by_cases hkey : key = old
        · have hne : key ≠ name := fun h => hname (h ▸ hkey)
          rw [if_pos hkey, if_neg hne, if_pos hkey]
        · rw [if_neg hkey, if_neg hkey]

theorem mem_keys_iff {key : String} :
    key ∈ entries.keys ↔ ∃ value, entries.get? key = some value := by
  induction entries with
  | nil => simp [keys, get?]
  | cons entry rest ih =>
    obtain ⟨old, oldValue⟩ := entry
    have hkeys : key ∈ keys ((old, oldValue) :: rest) ↔ key = old ∨ key ∈ keys rest := by
      simp only [keys, List.map_cons, List.mem_cons]
    rw [hkeys, ih, get?]
    by_cases hkey : key = old
    · simp [hkey]
    · simp [hkey]

/-- Several names with one value. -/
theorem get?_foldl_insert (key : String) (value : α) (names : List String)
    (entries : Dictionary α) :
    (names.foldl (fun entries name => entries.insert name value) entries).get? key =
      if key ∈ names then some value else entries.get? key := by
  induction names generalizing entries with
  | nil => simp
  | cons name names ih =>
    rw [List.foldl_cons, ih, get?_insert]
    by_cases hmem : key ∈ names
    · simp [hmem]
    · by_cases hkey : key = name
      · simp [hkey]
      · simp [hmem, hkey]

end Dictionary

namespace Highlighter

section Registered

variable {highlighter : Highlighter} {tags : List String} {tag : String} {language : Language}

/-! ## Registered tags -/

/-- Every registered tag stands for a language. -/
def Sound (highlighter : Highlighter) : Prop :=
  ∀ tag ∈ highlighter.tags, ∃ language, highlighter.languageForTag? tag = some language

/-- The language of a list of tags: what the first registered one stands for. -/
def Resolves (highlighter : Highlighter) (tags : List String) (language : Language) : Prop :=
  ∃ before tag after, tags = before ++ tag :: after ∧
    (∀ earlier ∈ before, earlier ∉ highlighter.tags) ∧ tag ∈ highlighter.tags ∧
    highlighter.languageForTag? tag = some language

theorem mem_tags_of_languageForTag? (h : highlighter.languageForTag? tag = some language) :
    tag ∈ highlighter.tags := by
  obtain ⟨name, hname, -⟩ := Option.bind_eq_some_iff.1 h
  exact Dictionary.mem_keys_iff.2 ⟨name, hname⟩

theorem Sound.languageForTag?_eq_none_iff (h : highlighter.Sound) :
    highlighter.languageForTag? tag = none ↔ tag ∉ highlighter.tags := by
  constructor
  · intro hnone hmem
    obtain ⟨language, hlanguage⟩ := h tag hmem
    simp [hnone] at hlanguage
  · intro hmem
    cases hlanguage : highlighter.languageForTag? tag with
    | none => rfl
    | some language => exact absurd (mem_tags_of_languageForTag? hlanguage) hmem

theorem Sound.findSome?_eq_some_iff (h : highlighter.Sound) :
    tags.findSome? highlighter.languageForTag? = some language ↔
      highlighter.Resolves tags language := by
  rw [List.findSome?_eq_some_iff]
  constructor
  · rintro ⟨before, tag, after, rfl, hlanguage, hbefore⟩
    exact ⟨before, tag, after, rfl,
      fun earlier hmem => h.languageForTag?_eq_none_iff.1 (hbefore earlier hmem),
      mem_tags_of_languageForTag? hlanguage, hlanguage⟩
  · rintro ⟨before, tag, after, rfl, hbefore, -, hlanguage⟩
    exact ⟨before, tag, after, rfl, hlanguage,
      fun earlier hmem => h.languageForTag?_eq_none_iff.2 (hbefore earlier hmem)⟩

/-- A list of tags has a language if and only if one of them is registered. -/
theorem Sound.findSome?_eq_none_iff (h : highlighter.Sound) :
    tags.findSome? highlighter.languageForTag? = none ↔
      ∀ tag ∈ tags, tag ∉ highlighter.tags := by
  rw [List.findSome?_eq_none_iff]
  exact forall₂_congr fun tag _ => h.languageForTag?_eq_none_iff

/-! ## Adding languages -/

theorem get?_names_addLanguage (language : Language) (tag : String) :
    (highlighter.addLanguage language).names.get? tag =
      if tag ∈ language.tags then some language.name else highlighter.names.get? tag :=
  Dictionary.get?_foldl_insert tag language.name language.tags highlighter.names

theorem get?_languages_addLanguage (language : Language) (name : String) :
    (highlighter.addLanguage language).languages.get? name =
      if name = language.name then some language else highlighter.languages.get? name :=
  Dictionary.get?_insert name language.name language highlighter.languages

theorem Sound.addLanguage (h : highlighter.Sound) (language : Language) :
    (highlighter.addLanguage language).Sound := by
  intro tag hmem
  obtain ⟨name, hname⟩ := Dictionary.mem_keys_iff.1 hmem
  -- a name is that of the new language, or stood for a language before
  have hlanguage : ∃ found,
      (highlighter.addLanguage language).languages.get? name = some found := by
    rw [get?_languages_addLanguage]
    by_cases hnew : name = language.name
    · exact ⟨language, if_pos hnew⟩
    · rw [get?_names_addLanguage] at hname
      split at hname
      · exact absurd (Option.some.inj hname).symm hnew
      · obtain ⟨found, hfound⟩ := h tag (Dictionary.mem_keys_iff.2 ⟨name, hname⟩)
        rw [languageForTag?, hname] at hfound
        exact ⟨found, by rw [if_neg hnew]; exact hfound⟩
  obtain ⟨found, hfound⟩ := hlanguage
  exact ⟨found, by rw [languageForTag?, hname]; exact hfound⟩

end Registered

/-! ## Where a highlighter comes from -/

/-- The ways to make a highlighter. -/
inductive Origin where
  /-- It knows no language. -/
  | empty
  /-- It knows the built-in languages. -/
  | builtin
  /-- It knows the built-in languages and follows settings. -/
  | ofSettings (settings : Settings)

/-- A new highlighter. -/
def Origin.highlighter : Origin → Highlighter
  | empty => Highlighter.empty
  | builtin => Highlighter.builtin
  | ofSettings settings => Highlighter.ofSettings settings

theorem sound_empty : Highlighter.empty.Sound := by
  intro tag hmem
  simp [Highlighter.empty, Highlighter.tags, Dictionary.keys] at hmem

theorem sound_builtin : Highlighter.builtin.Sound :=
  (sound_empty.addLanguage Language.php).addLanguage Language.bash

theorem Origin.sound (origin : Origin) : origin.highlighter.Sound := by
  cases origin with
  | empty => exact sound_empty
  | builtin => exact sound_builtin
  | ofSettings settings => exact sound_builtin

end Highlighter

end CodeMarkup
