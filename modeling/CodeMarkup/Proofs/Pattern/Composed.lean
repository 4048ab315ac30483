import CodeMarkup.Proofs.Pattern.Compiled

/-!
# Sequences, choices and repetitions

Patterns are built in a normal form: sequences are flat and their neighbouring texts are joined,
choices are flat.  The normal form leads where the parts lead.

* `Pattern.leads_sequence`, `Pattern.leads_choice` and `Pattern.leads_repetition` — the meaning of
  what is built, by that of its parts.
* `Pattern.Spells` — the texts that a pattern can match somewhere.  What a composed pattern spells
  is made of what its parts spell.
-/

namespace CodeMarkup.Pattern

variable {place further : Cursor}

/-! ## Sequences -/

/-- Patterns one after the other lead from one place to another. -/
def LeadsAll : List Pattern → Cursor → Cursor → Prop
  | [], p, q => p = q
  | part :: rest, p, q => ∃ r, part.Leads p r ∧ LeadsAll rest r q

theorem leadsAll_singleton {p : Pattern} : LeadsAll [p] place further ↔ p.Leads place further := by
  simp [LeadsAll]

theorem leadsAll_append {xs ys : List Pattern} :
    LeadsAll (xs ++ ys) place further ↔
      ∃ r, LeadsAll xs place r ∧ LeadsAll ys r further := by
  induction xs generalizing place with
  | nil => simp [LeadsAll]
  | cons x xs ih =>
    rw [List.cons_append]
    constructor
    · rintro ⟨r, hx, hrest⟩
      obtain ⟨s, hxs, hys⟩ := ih.1 hrest
      exact ⟨s, ⟨r, hx, hxs⟩, hys⟩
    · rintro ⟨s, ⟨r, hx, hxs⟩, hys⟩
      exact ⟨r, hx, ih.2 ⟨s, hxs, hys⟩⟩

theorem leadsAll_items (p : Pattern) : LeadsAll p.items place further ↔ p.Leads place further := by
  induction p generalizing place further with
  | cat p q ihp ihq =>
    rw [items, leadsAll_append]
    exact exists_congr fun r => and_congr ihp ihq
  | empty => exact Iff.rfl
  | literal | set | look | alt | times | group => exact leadsAll_singleton

theorem leads_ofItems (parts : List Pattern) :
    (ofItems parts).Leads place further ↔ LeadsAll parts place further := by
  fun_induction ofItems parts generalizing place with
  | case1 => exact Iff.rfl
  | case2 p => exact leadsAll_singleton.symm
  | case3 p rest hne ih => exact exists_congr fun r => and_congr_right' ih

theorem leadsAll_prepend (p : Pattern) (parts : List Pattern) :
    LeadsAll (prepend p parts) place further ↔ LeadsAll (p :: parts) place further := by
  unfold prepend
  split
  · rename_i text more rest
    simp only [LeadsAll, Leads, Cursor.passes_append_iff]
    constructor
    · rintro ⟨s, ⟨r, htext, hmore⟩, hrest⟩
      exact ⟨r, htext, s, hmore, hrest⟩
    · rintro ⟨r, htext, s, hmore, hrest⟩
      exact ⟨s, ⟨r, htext, hmore⟩, hrest⟩
  · exact Iff.rfl

theorem leadsAll_foldr_prepend (parts : List Pattern) :
    LeadsAll (parts.foldr prepend []) place further ↔ LeadsAll parts place further := by
  induction parts generalizing place with
  | nil => exact Iff.rfl
  | cons p parts ih =>
    rw [List.foldr_cons, leadsAll_prepend]
    exact exists_congr fun r => and_congr_right' ih

theorem leadsAll_flatMap_items (parts : List Pattern) :
    LeadsAll (parts.flatMap items) place further ↔ LeadsAll parts place further := by
  induction parts generalizing place with
  | nil => exact Iff.rfl
  | cons p parts ih =>
    rw [List.flatMap_cons, leadsAll_append]
    exact exists_congr fun r => and_congr (leadsAll_items p) ih

/-- A sequence leads where its parts lead one after the other. -/
theorem leads_sequence (parts : List Pattern) :
    (sequence parts).Leads place further ↔ LeadsAll parts place further := by
  rw [sequence, leads_ofItems, leadsAll_foldr_prepend, leadsAll_flatMap_items]

/-! ## Choices -/

theorem leads_branches (p : Pattern) :
    (∃ branch ∈ p.branches, branch.Leads place further) ↔ p.Leads place further := by
  induction p with
  | alt p q ihp ihq =>
    simp only [branches, List.mem_append, or_and_right, exists_or, ihp, ihq]
    exact Iff.rfl
  | empty | literal | set | look | cat | times | group => simp [branches]

theorem leads_ofBranches (parts : List Pattern) :
    (ofBranches parts).Leads place further ↔ ∃ part ∈ parts, part.Leads place further := by
  fun_induction ofBranches parts with
  | case1 => simp [Leads, CharSet.Steps, CharSet.mem]
  | case2 p => simp
  | case3 p rest hne ih => simp [Leads, ih]

/-- A choice leads where one of its parts leads, if its branches neither share a beginning nor are
united into a set. -/
theorem leads_choice {parts : List Pattern}
    (h : choice parts = ofBranches (parts.flatMap branches)) :
    (choice parts).Leads place further ↔ ∃ part ∈ parts, part.Leads place further := by
  rw [h, leads_ofBranches]
  constructor
  · rintro ⟨branch, hmem, hleads⟩
    obtain ⟨part, hpart, hbranch⟩ := List.mem_flatMap.1 hmem
    exact ⟨part, hpart, (leads_branches part).1 ⟨branch, hbranch, hleads⟩⟩
  · rintro ⟨part, hpart, hleads⟩
    obtain ⟨branch, hbranch, hleads⟩ := (leads_branches part).2 hleads
    exact ⟨branch, List.mem_flatMap.2 ⟨part, hpart, hbranch⟩, hleads⟩

/-! ## Repetitions -/

/-- A repetition of something that can match more than the empty text leads where so many rounds
lead. -/
theorem leads_repetition {body : Pattern} (h : body.onlyEmpty = false) (least : Nat)
    (most? : Option Nat) (greedy : Bool) :
    (repetition least most? greedy body).Leads place further ↔
      RoundsWithin body.Leads least most? place further := by
  unfold repetition
  simp only [h, Bool.false_eq_true, if_false, Prod.mk.injEq]
  split
  · rename_i hzero
    obtain ⟨rfl, rfl⟩ := hzero
    rw [roundsWithin_self_iff]
    exact Iff.rfl
  · split
    · rename_i hone
      obtain ⟨rfl, rfl⟩ := hone
      simp [roundsWithin_self_iff, Rounds]
    · exact Iff.rfl

/-! ## Texts -/

/-- A text that a pattern can match somewhere. -/
def Spells (p : Pattern) (text : List Char) : Prop :=
  ∃ place further, p.Leads place further ∧ place.Passes text further

theorem Leads.spells {p : Pattern} {text : List Char} (h : p.Leads place further)
    (htext : place.Passes text further) : p.Spells text :=
  ⟨place, further, h, htext⟩

section

variable {p : Pattern} {parts : List Pattern} {text : List Char}

theorem Spells.literal {word : List Char} (h : (literal word).Spells text) : text = word :=
  let ⟨_, _, hword, htext⟩ := h
  htext.unique hword

theorem Spells.set {s : CharSet} (h : (Pattern.set s).Spells text) :
    ∃ c, s.mem c = true ∧ text = [c] := by
  obtain ⟨place, further, ⟨c, rest, hrest, hmem, rfl⟩, htext⟩ := h
  exact ⟨c, hmem, htext.unique (.after hrest)⟩

theorem Spells.look {l : Look} (h : (Pattern.look l).Spells text) : text = [] := by
  obtain ⟨place, further, ⟨rfl, -⟩, htext⟩ := h
  exact htext.unique (.refl place)

/-- A sequence spells what its first part spells, followed by what the others spell. -/
theorem Spells.sequence_cons (h : (sequence (p :: parts)).Spells text) :
    ∃ head tail, text = head ++ tail ∧ p.Spells head ∧ (sequence parts).Spells tail := by
  obtain ⟨place, further, hleads, htext⟩ := h
  obtain ⟨r, hp, hparts⟩ := (leads_sequence _).1 hleads
  have hrest := (leads_sequence parts).2 hparts
  obtain ⟨head, hhead⟩ := hp.reaches
  obtain ⟨tail, htail⟩ := hrest.reaches
  exact ⟨head, tail, htext.unique (hhead.trans htail), hp.spells hhead, hrest.spells htail⟩

theorem Spells.sequence_nil (h : (sequence []).Spells text) : text = [] := by
  obtain ⟨place, further, hleads, htext⟩ := h
  obtain rfl : place = further := (leads_sequence []).1 hleads
  exact htext.unique (.refl place)

/-- A sequence that begins with a word spells texts that begin with it. -/
theorem Spells.sequence_literal {word : List Char}
    (h : (sequence (.literal word :: parts)).Spells text) : ∃ tail, text = word ++ tail := by
  obtain ⟨head, tail, rfl, hhead, -⟩ := h.sequence_cons
  exact ⟨tail, by rw [hhead.literal]⟩

theorem Spells.choice (h : (choice parts).Spells text)
    (hplain : choice parts = ofBranches (parts.flatMap branches)) :
    ∃ part ∈ parts, part.Spells text := by
  obtain ⟨place, further, hleads, htext⟩ := h
  obtain ⟨part, hmem, hpart⟩ := (leads_choice hplain).1 hleads
  exact ⟨part, hmem, hpart.spells htext⟩

/-- What is optional spells nothing or itself. -/
theorem Spells.optional (h : (optional p).Spells text) (hp : p.onlyEmpty = false) :
    text = [] ∨ p.Spells text := by
  obtain ⟨place, further, hleads, htext⟩ := h
  obtain ⟨n, -, hle, hrounds⟩ := (leads_repetition hp 0 (some 1) true).1 hleads
  have hn : n ≤ 1 := by simpa using hle
  cases n with
  | zero =>
    obtain rfl : place = further := hrounds
    exact .inl (htext.unique (.refl place))
  | succ n =>
    obtain rfl : n = 0 := by omega
    obtain ⟨middle, hround, rfl⟩ := hrounds
    exact .inr (hround.spells htext)

/-- What is repeated at least once spells the beginning. -/
theorem Spells.many1 (h : (many1 p).Spells text) (hp : p.onlyEmpty = false) :
    ∃ head tail, text = head ++ tail ∧ p.Spells head := by
  obtain ⟨place, further, hleads, htext⟩ := h
  obtain ⟨n, hle, -, hrounds⟩ := (leads_repetition hp 1 none true).1 hleads
  obtain ⟨k, rfl⟩ := Nat.exists_eq_add_of_le' hle
  obtain ⟨r, hround, hrest⟩ := hrounds
  obtain ⟨head, hhead⟩ := hround.reaches
  have hreaches : r.Reaches further :=
    reaches_of_reflTransGen (fun _ _ => Leads.reaches) (reflTransGen_iff_rounds.2 ⟨k, hrest⟩)
  obtain ⟨tail, htail⟩ := hreaches
  exact ⟨head, tail, htext.unique (hhead.trans htail), hround.spells hhead⟩

end

end CodeMarkup.Pattern
