import Mathlib.Data.List.Basic
import CodeMarkup.Markup.Render
import CodeMarkup.Proofs.Markup.Escape

/-!
# Reading markup mark by mark

Markup is a row of marks: characters, each as it stands in markup, and the tags of spans.  No tag
and no entity begins where another mark stands, so the marks can be read back one by one, whatever
the text or the lead of the class names.

* `Mark.eq_of_write_isPrefix` — marks are unambiguous.
* `readMarks?` reads markup that has nothing but marks; `readMarks?_flatMap_write` is the round
  trip.
* `stripTags` takes the tags out and leaves the rest as it is.
-/

namespace CodeMarkup

/-- What markup is made of. -/
inductive Mark where
  /-- A character of the text. -/
  | char (c : Char)
  /-- The tag that opens the span of a token. -/
  | opens (c : TokenClass)
  /-- The tag that closes a span. -/
  | closes
  deriving DecidableEq, Repr

/-- What stands before the first `x` of a list is determined. -/
theorem eq_of_append_cons_eq {α : Type} {x : α} {as bs us vs : List α} (ha : x ∉ as) (hb : x ∉ bs)
    (h : as ++ x :: us = bs ++ x :: vs) : as = bs := by
  obtain ⟨between, rfl, hbetween⟩ | ⟨between, rfl, hbetween⟩ := List.append_eq_append_iff.1 h
  · cases between with
    | nil => simp
    | cons y between =>
      obtain rfl := (List.cons.inj hbetween).1
      simp at hb
  · cases between with
    | nil => simp
    | cons y between =>
      obtain rfl := (List.cons.inj hbetween).1
      simp at ha

namespace TokenClass

theorem mem_all (c : TokenClass) : c ∈ all := by
  cases c <;> decide

theorem quote_notMem_name (c : TokenClass) : '"' ∉ c.name.toList := by
  cases c <;> decide

theorem ofName?_name (c : TokenClass) : ofName? c.name = some c := by
  cases c <;> rfl

theorem name_injective : Function.Injective name := by
  intro a b h
  have hfound := ofName?_name a
  rw [h, ofName?_name b] at hfound
  exact (Option.some.inj hfound).symm

end TokenClass

theorem spanOpen_eq (lead : List Char) (c : TokenClass) :
    spanOpen lead c =
      '<' :: 's' :: (['p', 'a', 'n', ' ', 'c', 'l', 'a', 's', 's', '=', '"'] ++
        (lead ++ (c.name.toList ++ ['"', '>']))) := by
  unfold spanOpen TokenClass.cssClass
  simp

theorem spanClose_eq : spanClose = '<' :: '/' :: ['s', 'p', 'a', 'n', '>'] := by
  unfold spanClose
  simp

namespace Mark

/-- A mark as it stands in markup. -/
def write (lead : List Char) : Mark → List Char
  | char c => escapeChar c
  | opens c => spanOpen lead c
  | closes => spanClose

/-- The tags of spans. -/
def tags : List Mark := closes :: TokenClass.all.map opens

/-- The marks of which a single character in markup is only a part. -/
def special : List Mark := tags ++ reserved.map char

variable {lead rest : List Char} {m m' : Mark} {c : Char}

theorem opens_mem_tags (c : TokenClass) : opens c ∈ tags :=
  List.mem_cons_of_mem _ (List.mem_map_of_mem c.mem_all)

theorem char_mem_special : char c ∈ special ↔ c ∈ reserved := by
  simp [special, tags]

/-- Every tag starts with an angle bracket. -/
theorem write_eq_cons (h : m ∈ tags) (lead : List Char) :
    ∃ tail, m.write lead = '<' :: tail := by
  simp only [tags, List.mem_cons, List.mem_map] at h
  rcases h with rfl | ⟨c, -, rfl⟩
  · exact ⟨_, spanClose_eq⟩
  · exact ⟨_, spanOpen_eq lead c⟩

theorem write_ne_nil (lead : List Char) (m : Mark) : m.write lead ≠ [] := by
  cases m with
  | char c => exact escapeChar_ne_nil c
  | opens c => simp [write, spanOpen_eq]
  | closes => simp [write, spanClose_eq]

/-! ## No mark begins inside another one -/

/-- No tag begins where a character stands. -/
theorem not_write_isPrefix_char (hm : m ∈ tags) (c : Char) (rest : List Char) :
    ¬ m.write lead <+: escapeChar c ++ rest := by
  intro h
  obtain ⟨tail, hwrite⟩ := write_eq_cons hm lead
  obtain ⟨x, xs, hc⟩ := List.exists_cons_of_ne_nil (escapeChar_ne_nil c)
  rw [hwrite, hc, List.cons_append, List.cons_prefix_cons] at h
  -- The character would be written with an angle bracket in it.
  have hmem : '<' ∈ escapeChar c := by
    rw [hc, h.1]
    exact List.mem_cons_self
  exact notMem_escapeChar (by decide) (by decide) c hmem

/-- Only tags begin with an angle bracket. -/
theorem not_escapeChar_isPrefix (hm : m ∈ tags) (hc : c ∈ reserved) (rest : List Char) :
    ¬ escapeChar c <+: m.write lead ++ rest := by
  intro h
  obtain ⟨tail, hwrite⟩ := write_eq_cons hm lead
  obtain ⟨key, hkey, -⟩ := escapeChar_eq_cons hc
  rw [hwrite, hkey, List.cons_append, List.cons_prefix_cons] at h
  exact absurd h.1 (by decide)

/-- A tag that opens a span tells its class: the class name ends at the first quote behind the
lead. -/
theorem eq_of_spanOpen_isPrefix {a b : TokenClass}
    (h : spanOpen lead a <+: spanOpen lead b ++ rest) : a = b := by
  obtain ⟨after, h⟩ := h
  simp only [spanOpen_eq, List.cons_append, List.append_assoc, List.cons.injEq, true_and,
    List.append_cancel_left_eq] at h
  have hnames := eq_of_append_cons_eq a.quote_notMem_name b.quote_notMem_name h
  exact TokenClass.name_injective (String.toList_inj.1 hnames)

/-- **Marks are unambiguous.**  A tag or an entity begins only where this very mark stands. -/
theorem eq_of_write_isPrefix (hm : m ∈ special) (h : m.write lead <+: m'.write lead ++ rest) :
    m = m' := by
  cases m with
  | char x =>
    have hx := char_mem_special.1 hm
    cases m' with
    | char c => rw [eq_of_escapeChar_isPrefix hx h]
    | opens c => exact absurd h (not_escapeChar_isPrefix (opens_mem_tags c) hx rest)
    | closes => exact absurd h (not_escapeChar_isPrefix List.mem_cons_self hx rest)
  | opens a =>
    cases m' with
    | char c => exact absurd h (not_write_isPrefix_char (opens_mem_tags a) c rest)
    | opens b => rw [eq_of_spanOpen_isPrefix h]
    | closes => simp [write, spanOpen_eq, spanClose_eq] at h
  | closes =>
    cases m' with
    | char c => exact absurd h (not_write_isPrefix_char List.mem_cons_self c rest)
    | opens b => simp [write, spanOpen_eq, spanClose_eq] at h
    | closes => rfl

/-- The text that a mark stands for. -/
def text : Mark → List Char
  | char c => [c]
  | opens _ => []
  | closes => []

end Mark

/-! ## Reading -/

/-- The marks that markup is made of, if there is nothing else in it. -/
def readMarks? (lead : List Char) : List Char → Option (List Mark)
  | [] => some []
  | c :: rest =>
    match Mark.special.find? fun m => (m.write lead).isPrefixOf (c :: rest) with
    | some m => (readMarks? lead (rest.drop ((m.write lead).length - 1))).map (m :: ·)
    | none => if c ∈ reserved then none else (readMarks? lead rest).map (.char c :: ·)
termination_by markup => markup.length

theorem readMarks?_write_append (lead : List Char) (m : Mark) (rest : List Char) :
    readMarks? lead (m.write lead ++ rest) = (readMarks? lead rest).map (m :: ·) := by
  obtain ⟨x, xs, hwrite⟩ := List.exists_cons_of_ne_nil (m.write_ne_nil lead)
  by_cases hm : m ∈ Mark.special
  · have hfind : (Mark.special.find? fun m => (m.write lead).isPrefixOf (x :: (xs ++ rest))) =
        some m := by
      refine find?_eq_some_of_only hm ?_ fun m' hm' hprefix => ?_
      · simp [hwrite]
      · have hstart : m'.write lead <+: m.write lead ++ rest := by
          simpa [hwrite] using hprefix
        exact Mark.eq_of_write_isPrefix hm' hstart
    rw [hwrite, List.cons_append, readMarks?, hfind]
    simp [hwrite]
  · cases m with
    | char c =>
      have hc : c ∉ reserved := fun h => hm (Mark.char_mem_special.2 h)
      have hfind : (Mark.special.find? fun m => (m.write lead).isPrefixOf (c :: rest)) = none := by
        refine List.find?_eq_none.2 fun m' hm' hprefix => ?_
        have hstart : m'.write lead <+: (Mark.char c).write lead ++ rest := by
          simpa [Mark.write, escapeChar_of_notMem hc] using hprefix
        exact hm (Mark.eq_of_write_isPrefix hm' hstart ▸ hm')
      rw [Mark.write, escapeChar_of_notMem hc, List.singleton_append, readMarks?, hfind]
      simp [hc]
    | opens c => exact absurd (List.mem_append_left _ (Mark.opens_mem_tags c)) hm
    | closes => exact absurd (List.mem_append_left _ List.mem_cons_self) hm

/-- **Markup is read back mark by mark.** -/
theorem readMarks?_flatMap_write (lead : List Char) (marks : List Mark) :
    readMarks? lead (marks.flatMap (Mark.write lead)) = some marks := by
  induction marks with
  | nil => rw [List.flatMap_nil, readMarks?]
  | cons m marks ih => rw [List.flatMap_cons, readMarks?_write_append, ih, Option.map_some]

/-- Markup without the tags of spans. -/
def stripTags (lead : List Char) : List Char → List Char :=
  replaceEach (Mark.tags.map fun tag => (tag.write lead, []))

theorem stripTags_tag_append {tag : Mark} (h : tag ∈ Mark.tags) (lead rest : List Char) :
    stripTags lead (tag.write lead ++ rest) = stripTags lead rest := by
  have hrule : (tag.write lead, []) ∈ Mark.tags.map fun tag => (tag.write lead, ([] : List Char)) :=
    List.mem_map.2 ⟨tag, h, rfl⟩
  refine replaceEach_append (tag.write_ne_nil lead) hrule ?_
  intro rule hrule hprefix
  obtain ⟨tag', htag', rfl⟩ := List.mem_map.1 hrule
  rw [Mark.eq_of_write_isPrefix (List.mem_append_left _ htag') hprefix]

theorem stripTags_char_append (c : Char) (lead rest : List Char) :
    stripTags lead (escapeChar c ++ rest) = escapeChar c ++ stripTags lead rest := by
  have hnotMem : '<' ∉ escapeChar c := notMem_escapeChar (by decide) (by decide) c
  refine replaceEach_append_of_notMem ?_ hnotMem rest
  intro rule hrule
  obtain ⟨tag, htag, rfl⟩ := List.mem_map.1 hrule
  exact Mark.write_eq_cons htag lead

/-- Without its tags, markup is its escaped text. -/
theorem stripTags_flatMap_write (lead : List Char) (marks : List Mark) :
    stripTags lead (marks.flatMap (Mark.write lead)) = escape (marks.flatMap Mark.text) := by
  have hword : ∀ (m : Mark) rest,
      stripTags lead (m.write lead ++ rest) = escape m.text ++ stripTags lead rest := by
    intro m rest
    cases m with
    | char c => simpa [Mark.write, Mark.text, escape] using stripTags_char_append c lead rest
    | opens c => exact stripTags_tag_append (Mark.opens_mem_tags c) lead rest
    | closes => exact stripTags_tag_append List.mem_cons_self lead rest
  rw [stripTags, replaceEach_flatMap hword, escape, List.flatMap_assoc]
  rfl

end CodeMarkup
