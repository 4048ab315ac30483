import Mathlib.Data.List.Infix

/-!
# Replacing parts of a text

The whole-text replacement that reads a text once, from left to right.  What has been replaced is
not read again.

* `replaceEach` replaces the keys of several rules, `replaceAll` those of one.
* `replaceEach_flatMap` — in a text made of words it is enough to know what becomes of each word.
-/

namespace CodeMarkup

/-- A text in which every key of the rules is replaced by its value, from left to right.  Where
several keys begin at one place, the first of the rules counts. -/
def replaceEach (rules : List (List Char × List Char)) : List Char → List Char
  | [] => []
  | c :: rest =>
    match rules.find? fun rule => rule.1.isPrefixOf (c :: rest) with
    | some rule => rule.2 ++ replaceEach rules (rest.drop (rule.1.length - 1))
    | none => c :: replaceEach rules rest
termination_by text => text.length

/-- A text in which every occurrence of `key` is replaced by `value`. -/
def replaceAll (key value : List Char) : List Char → List Char := replaceEach [(key, value)]

theorem find?_eq_some_of_only {α : Type} {p : α → Bool} {xs : List α} {x : α} (hmem : x ∈ xs)
    (hx : p x = true) (honly : ∀ y ∈ xs, p y = true → y = x) : xs.find? p = some x := by
  cases hfind : xs.find? p with
  | none => exact absurd hx (List.find?_eq_none.1 hfind x hmem)
  | some y => rw [honly y (List.mem_of_find?_eq_some hfind) (List.find?_some hfind)]

section

variable {rules : List (List Char × List Char)}

@[simp] theorem replaceEach_nil : replaceEach rules [] = [] := by
  rw [replaceEach]

/-- A character at which no key begins stays. -/
theorem replaceEach_cons {c : Char} {rest : List Char}
    (h : ∀ rule ∈ rules, ¬ rule.1 <+: c :: rest) :
    replaceEach rules (c :: rest) = c :: replaceEach rules rest := by
  have hfind : (rules.find? fun rule => rule.1.isPrefixOf (c :: rest)) = none :=
    List.find?_eq_none.2 fun rule hmem => by simpa using h rule hmem
  rw [replaceEach, hfind]

/-- A key at which no other one begins is replaced. -/
theorem replaceEach_append {key value rest : List Char} (hkey : key ≠ [])
    (hmem : (key, value) ∈ rules)
    (honly : ∀ rule ∈ rules, rule.1 <+: key ++ rest → rule = (key, value)) :
    replaceEach rules (key ++ rest) = value ++ replaceEach rules rest := by
  cases key with
  | nil => exact absurd rfl hkey
  | cons c key =>
    have hfind : (rules.find? fun rule => rule.1.isPrefixOf (c :: (key ++ rest))) =
        some (c :: key, value) :=
      find?_eq_some_of_only hmem (by simp) fun rule hrule hprefix =>
        honly rule hrule (by simpa using hprefix)
    rw [List.cons_append, replaceEach, hfind]
    simp

/-- A word stays if it does not have the character with which every key begins. -/
theorem replaceEach_append_of_notMem {first : Char} {word : List Char}
    (hkeys : ∀ rule ∈ rules, ∃ key, rule.1 = first :: key) (hword : first ∉ word)
    (rest : List Char) :
    replaceEach rules (word ++ rest) = word ++ replaceEach rules rest := by
  induction word with
  | nil => rfl
  | cons c word ih =>
    rw [List.mem_cons, not_or] at hword
    have hnone : ∀ rule ∈ rules, ¬ rule.1 <+: c :: (word ++ rest) := by
      intro rule hmem hprefix
      obtain ⟨key, hkey⟩ := hkeys rule hmem
      rw [hkey, List.cons_prefix_cons] at hprefix
      exact hword.1 hprefix.1
    rw [List.cons_append, replaceEach_cons hnone, ih hword.2, List.cons_append]

/-- In a text made of words, each word is replaced by itself if it is so in front of any text. -/
theorem replaceEach_flatMap {α : Type} {word result : α → List Char}
    (h : ∀ x rest, replaceEach rules (word x ++ rest) = result x ++ replaceEach rules rest)
    (xs : List α) : replaceEach rules (xs.flatMap word) = xs.flatMap result := by
  induction xs with
  | nil => simp
  | cons x xs ih => rw [List.flatMap_cons, List.flatMap_cons, h, ih]

end

end CodeMarkup
