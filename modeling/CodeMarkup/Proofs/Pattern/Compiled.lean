import CodeMarkup.Proofs.Pattern.Meaning

/-!
# The matcher of a pattern

Making a pattern ready to run keeps its meaning.  Marks are transparent, a repetition that has been
unrolled into copies, options and a loop leads where so many rounds lead, and it does not matter at
which point a part is built.

* `Matcher.Makes` — what is built at any point has a given meaning.
* `Matcher.ofPattern_leads` — the matcher of a pattern means what the pattern means.
-/

namespace CodeMarkup

open Relation

variable {R : Cursor → Cursor → Prop}

/-! ## Rounds -/

theorem rounds_add {m n : Nat} {p q : Cursor} :
    Rounds R (m + n) p q ↔ ∃ r, Rounds R m p r ∧ Rounds R n r q := by
  induction m generalizing p with
  | zero => simp [Rounds]
  | succ m ih =>
    rw [Nat.succ_add]
    constructor
    · rintro ⟨r, hround, hrest⟩
      obtain ⟨s, hm, hn⟩ := ih.1 hrest
      exact ⟨s, ⟨r, hround, hm⟩, hn⟩
    · rintro ⟨s, ⟨r, hround, hm⟩, hn⟩
      exact ⟨r, hround, ih.2 ⟨s, hm, hn⟩⟩

theorem rounds_succ_iff {n : Nat} {p q : Cursor} :
    Rounds R (n + 1) p q ↔ ∃ r, Rounds R n p r ∧ R r q := by
  rw [rounds_add]
  simp only [Rounds, exists_eq_right]

/-- Any number of rounds. -/
theorem reflTransGen_iff_rounds {p q : Cursor} :
    ReflTransGen R p q ↔ ∃ n, Rounds R n p q := by
  constructor
  · intro h
    induction h using ReflTransGen.head_induction_on with
    | refl => exact ⟨0, rfl⟩
    | head hround _ ih =>
      obtain ⟨n, hrest⟩ := ih
      exact ⟨n + 1, _, hround, hrest⟩
  · rintro ⟨n, h⟩
    induction n generalizing p with
    | zero =>
      obtain rfl : p = q := h
      exact .refl
    | succ n ih =>
      obtain ⟨r, hround, hrest⟩ := h
      exact .head hround (ih hrest)

/-- A fixed number of rounds. -/
theorem roundsWithin_self_iff {count : Nat} {p q : Cursor} :
    RoundsWithin R count (some count) p q ↔ Rounds R count p q := by
  simp only [RoundsWithin, Option.mem_some_iff, forall_eq', Nat.max_self]
  constructor
  · rintro ⟨n, hle, hge, h⟩
    exact Nat.le_antisymm hge hle ▸ h
  · intro h
    exact ⟨count, Nat.le_refl _, Nat.le_refl _, h⟩

/-- So many rounds, and then any number. -/
theorem rounds_reflTransGen_iff {count : Nat} {p q : Cursor} :
    (∃ r, Rounds R count p r ∧ ReflTransGen R r q) ↔ RoundsWithin R count none p q := by
  simp only [reflTransGen_iff_rounds, RoundsWithin]
  constructor
  · rintro ⟨r, hfirst, n, hrest⟩
    exact ⟨count + n, by omega, by simp, rounds_add.2 ⟨r, hfirst, hrest⟩⟩
  · rintro ⟨n, hle, -, h⟩
    obtain ⟨k, rfl⟩ := Nat.exists_eq_add_of_le hle
    obtain ⟨r, hfirst, hrest⟩ := rounds_add.1 h
    exact ⟨r, hfirst, k, hrest⟩

/-- So many rounds, and then up to some more. -/
theorem rounds_upTo_iff {least most : Nat} {p q : Cursor} :
    (∃ r, Rounds R least p r ∧ ∃ n, n ≤ most - least ∧ Rounds R n r q) ↔
      RoundsWithin R least (some most) p q := by
  simp only [RoundsWithin, Option.mem_some_iff, forall_eq']
  constructor
  · rintro ⟨r, hfirst, n, hle, hrest⟩
    exact ⟨least + n, by omega, by omega, rounds_add.2 ⟨r, hfirst, hrest⟩⟩
  · rintro ⟨n, hle, hmost, h⟩
    obtain ⟨k, rfl⟩ := Nat.exists_eq_add_of_le hle
    obtain ⟨r, hfirst, hrest⟩ := rounds_add.1 h
    exact ⟨r, hfirst, k, by omega, hrest⟩

/-! ## Characters -/

theorem CharSet.mem_single_iff {c d : Char} : (single c).mem d = true ↔ d = c := by
  simp only [single, mem, Bool.and_eq_true, decide_eq_true_eq]
  constructor
  · rintro ⟨hle, hge⟩
    exact Char.toNat_inj.1 (Nat.le_antisymm hge hle)
  · rintro rfl
    exact ⟨Nat.le_refl _, Nat.le_refl _⟩

theorem CharSet.steps_single_iff {c : Char} {p q : Cursor} :
    (CharSet.single c).Steps p q ↔ p.Passes [c] q := by
  rw [Cursor.passes_singleton_iff]
  constructor
  · rintro ⟨d, rest, hrest, hmem, rfl⟩
    obtain rfl := mem_single_iff.1 hmem
    exact ⟨rest, hrest, rfl⟩
  · rintro ⟨rest, hrest, rfl⟩
    exact ⟨c, rest, hrest, mem_single_iff.2 rfl, rfl⟩

namespace Matcher

/-! ## Parts -/

/-- What is built at any point has a given meaning. -/
def Makes (make : Point → Built) (R : Cursor → Cursor → Prop) : Prop :=
  ∀ point, (make point).matcher.Leads = R

theorem cat_leads (m n : Matcher) :
    (cat m n).Leads = fun p q => ∃ r, m.Leads p r ∧ n.Leads r q := rfl

theorem loop_leads (greedy : Bool) (m : Matcher) :
    (loop greedy m).Leads = ReflTransGen m.Leads := rfl

theorem cat_mark_leads (m : Matcher) (label : Nat) : (cat m (mark label)).Leads = m.Leads := by
  funext p q
  simp [Leads]

theorem mark_cat_leads (m : Matcher) (label : Nat) : (cat (mark label) m).Leads = m.Leads := by
  funext p q
  simp [Leads]

theorem join_leads (m n : Matcher) : (join m n).Leads = (cat m n).Leads := by
  funext p q
  unfold join
  split <;> simp [Leads]

theorem optional_leads (greedy : Bool) (m : Matcher) :
    (optional greedy m).Leads = fun p q => m.Leads p q ∨ p = q := by
  funext p q
  cases greedy <;> simp [optional, Leads, or_comm]

theorem marked_leads (wanted : Bool) (built : Built) :
    (Built.marked wanted built).matcher.Leads = built.matcher.Leads := by
  unfold Built.marked
  split
  · exact cat_mark_leads built.matcher built.point.label
  · rfl

theorem ofText_leads (text : List Char) :
    (ofText text).Leads = fun p q => p.Passes text q := by
  funext p q
  refine propext ?_
  fun_induction ofText text generalizing p with
  | case1 => exact Cursor.passes_nil_iff.symm
  | case2 c => rw [Leads, CharSet.steps_single_iff]
  | case3 c rest hne ih =>
    rw [Leads, Cursor.passes_cons_iff]
    exact exists_congr fun r => and_congr CharSet.steps_single_iff (ih r)

/-! ## Repetitions -/

section Repetitions

variable {make : Point → Built}

theorem copies_leads (h : Makes make R) (count : Nat) :
    Makes (copies make count) (Rounds R count) := by
  intro point
  induction count generalizing point with
  | zero => rfl
  | succ count ih =>
    rw [copies, join_leads]
    funext p q
    rw [Leads, h, ih]
    rfl

theorem upTo_leads (h : Makes make R) (greedy : Bool) (count : Nat) :
    Makes (upTo greedy make count) fun p q => ∃ n, n ≤ count ∧ Rounds R n p q := by
  intro point
  induction count generalizing point with
  | zero =>
    funext p q
    simp [upTo, Leads, Rounds]
  | succ count ih =>
    rw [upTo, optional_leads, join_leads]
    funext p q
    rw [Leads, h, ih]
    refine propext ⟨?_, ?_⟩
    · rintro (⟨r, hround, n, hle, hrest⟩ | rfl)
      · exact ⟨n + 1, by omega, r, hround, hrest⟩
      · exact ⟨0, by omega, rfl⟩
    · rintro ⟨n, hle, hrounds⟩
      cases n with
      | zero => exact .inr hrounds
      | succ n =>
        obtain ⟨r, hround, hrest⟩ := hrounds
        exact .inl ⟨r, hround, n, by omega, hrest⟩

theorem atLeastOnce_leads (h : Makes make R) (greedy : Bool) :
    Makes (atLeastOnce greedy make) fun p q => ∃ r, R p r ∧ ReflTransGen R r q := by
  intro point
  have hround : (cat (mark point.label) (make ⟨point.label + 1, .wide, 1⟩).matcher).Leads = R := by
    rw [mark_cat_leads, h]
  simp only [atLeastOnce]
  rw [cat_leads, loop_leads, hround]

theorem ofNullableTimes_leads (h : Makes make R) (least : Nat) (most? : Option Nat)
    (greedy : Bool) :
    Makes (ofNullableTimes least most? greedy make) (RoundsWithin R least most?) := by
  intro point
  funext p q
  unfold ofNullableTimes
  match most?, least with
  | none, 0 =>
    simp only [marked_leads, optional_leads, atLeastOnce_leads h greedy point]
    rw [← rounds_reflTransGen_iff]
    simp only [Rounds, exists_eq_left']
    rw [ReflTransGen.cases_head_iff (a := p), or_comm]
  | none, more + 1 =>
    simp only [marked_leads, join_leads, cat_leads, copies_leads h more point,
      atLeastOnce_leads h greedy _]
    rw [← rounds_reflTransGen_iff]
    simp only [rounds_succ_iff]
    refine propext ⟨?_, ?_⟩
    · rintro ⟨s, hmore, r, hround, hrest⟩
      exact ⟨r, ⟨s, hmore, hround⟩, hrest⟩
    · rintro ⟨r, ⟨s, hmore, hround⟩, hrest⟩
      exact ⟨s, hmore, r, hround, hrest⟩
  | some most, least =>
    simp only [marked_leads, join_leads, cat_leads, copies_leads h least point,
      upTo_leads h greedy _ _]
    rw [← rounds_upTo_iff]

theorem markedLoop_leads (h : Makes make R) (greedy : Bool) :
    Makes (markedLoop greedy make) (ReflTransGen R) := by
  intro point
  simp only [markedLoop]
  rw [mark_cat_leads, loop_leads, cat_mark_leads, h]

theorem plainLoop_leads (h : Makes make R) (greedy : Bool) :
    Makes (plainLoop greedy make) (ReflTransGen R) := by
  intro point
  have hbody := h { point with spread := .wide }
  simp only [plainLoop]
  split
  · rename_i s hset
    rw [← hbody, hset]
    rfl
  · rw [← hbody]
    rfl

theorem ofConsumingTimes_leads (h : Makes make R) (marks singleWay : Bool) (least : Nat)
    (most? : Option Nat) (greedy : Bool) :
    Makes (ofConsumingTimes marks singleWay least most? greedy make)
      (RoundsWithin R least most?) := by
  intro point
  funext p q
  cases most? with
  | none =>
    simp only [ofConsumingTimes, join_leads, cat_leads, copies_leads h least point]
    rw [← rounds_reflTransGen_iff]
    split
    · rw [plainLoop_leads h]
    · rw [markedLoop_leads h]
  | some most =>
    simp only [ofConsumingTimes, join_leads, cat_leads, copies_leads h least point]
    rw [← rounds_upTo_iff]
    split
    · rw [upTo_leads h]
    · split
      · rw [upTo_leads h]
      · rw [marked_leads, upTo_leads h]

end Repetitions

/-! ## Whole patterns -/

theorem build_leads (marks : Bool) (p : Pattern) : Makes (build marks p) p.Leads := by
  induction p generalizing marks with
  | empty => exact fun _ => rfl
  | literal text => exact fun _ => ofText_leads text
  | set s => exact fun _ => rfl
  | look l => exact fun _ => rfl
  | cat p q ihp ihq =>
    intro point
    simp only [build]
    rw [cat_leads, ihp, ihq]
    rfl
  | alt p q ihp ihq =>
    intro point
    have halt : ∀ point', (alt (build marks p point).matcher (build marks q point').matcher).Leads =
        (Pattern.alt p q).Leads := by
      intro point'
      funext place place'
      rw [Leads, ihp, ihq]
      rfl
    simp only [build]
    split
    · exact halt _
    · rw [marked_leads]
      exact halt _
  | times least most? greedy body ih =>
    intro point
    simp only [build]
    split
    · exact ofNullableTimes_leads (ih true) least most? greedy point
    · exact ofConsumingTimes_leads (ih marks) marks body.isSingleWay least most? greedy point
  | group index body ih => exact ih marks

/-- **The matcher of a pattern means what the pattern means.** -/
theorem ofPattern_leads (p : Pattern) : (ofPattern p).Leads = p.Leads :=
  build_leads false p {}

end Matcher

/-- A pattern leads from where its matcher matches to where the match ends. -/
theorem Pattern.leads_of_matchAt? {p : Pattern} {place stop : Cursor}
    (h : (Matcher.ofPattern p).matchAt? place = some stop) : p.Leads place stop := by
  rw [← Matcher.ofPattern_leads]
  exact Matcher.matchAt?_leads h

theorem Pattern.Leads.reaches {p : Pattern} {place further : Cursor} (h : p.Leads place further) :
    place.Reaches further := by
  rw [← Matcher.ofPattern_leads] at h
  exact Matcher.Leads.reaches h

end CodeMarkup
