import CodeMarkup.Proofs.Pattern.Compiled

/-!
# What a mark is followed by

An attempt gives up a way at a mark where a way has been before.  Nothing is lost if what follows
the mark is always the same.  What follows is described as a goal: from which places a match can
still be completed, and at what cost.  The cost counts the marks and the heads of loops on the way,
so that a way that comes back to a mark at one place costs more than the way from there.

* `Matcher.Way` — `Matcher.Leads` with the cost of the way (`Matcher.leads_iff_way`).
* `Matcher.before` — the goal of matching something first; `Beyond` — a goal costs at least so much.
* `Matcher.Fits` — each label of a matcher stands for one goal, wherever it is written.
* `Matcher.ofPattern_fits` — the labels of the matcher of a pattern do.
-/

namespace CodeMarkup

open Relation

/-! ## Ways and their cost -/

/-- Rounds of a loop.  Each arrival at its head costs one. -/
inductive Turns (R : Nat → Cursor → Cursor → Prop) : Nat → Cursor → Cursor → Prop
  /-- The loop is left. -/
  | leave (p : Cursor) : Turns R 1 p p
  /-- A round comes first. -/
  | round {a b : Nat} {p q r : Cursor} (hround : R a p q) (hrest : Turns R b q r) :
      Turns R (a + b + 1) p r

namespace Matcher

/-- A matcher has a way from one place to another that passes so many marks and heads of loops. -/
def Way : Matcher → Nat → Cursor → Cursor → Prop
  | empty, cost, p, q => cost = 0 ∧ p = q
  | set s, cost, p, q => cost = 0 ∧ s.Steps p q
  | look l, cost, p, q => cost = 0 ∧ p = q ∧ l.holds p.prev? p.peek? = true
  | mark _, cost, p, q => cost = 1 ∧ p = q
  | cat m n, cost, p, q => ∃ a b r, cost = a + b ∧ m.Way a p r ∧ n.Way b r q
  | alt m n, cost, p, q => m.Way cost p q ∨ n.Way cost p q
  | span _ s, cost, p, q => cost = 0 ∧ ReflTransGen s.Steps p q
  | loop _ body, cost, p, q => Turns body.Way cost p q

theorem turns_iff {R : Nat → Cursor → Cursor → Prop} {p q : Cursor} :
    (∃ cost, Turns R cost p q) ↔ ReflTransGen (fun p q => ∃ cost, R cost p q) p q := by
  constructor
  · rintro ⟨cost, h⟩
    induction h with
    | leave p => exact .refl
    | round hround _ ih => exact .head ⟨_, hround⟩ ih
  · intro h
    induction h using ReflTransGen.head_induction_on with
    | refl => exact ⟨1, .leave q⟩
    | head hround _ ih =>
      obtain ⟨a, hround⟩ := hround
      obtain ⟨b, hrest⟩ := ih
      exact ⟨a + b + 1, .round hround hrest⟩

/-- A matcher leads from one place to another if it has a way, at whatever cost. -/
theorem leads_iff_way {m : Matcher} {p q : Cursor} : m.Leads p q ↔ ∃ cost, m.Way cost p q := by
  induction m generalizing p q with
  | empty | set | look | mark | span => simp [Leads, Way]
  | cat m n ihm ihn =>
    simp only [Leads, Way, ihm, ihn]
    constructor
    · rintro ⟨r, ⟨a, hm⟩, b, hn⟩
      exact ⟨a + b, a, b, r, rfl, hm, hn⟩
    · rintro ⟨_, a, b, r, rfl, hm, hn⟩
      exact ⟨r, ⟨a, hm⟩, b, hn⟩
  | alt m n ihm ihn => simp only [Leads, Way, ihm, ihn, exists_or]
  | loop greedy body ih =>
    have hbody : body.Leads = fun p q => ∃ cost, body.Way cost p q := by
      funext p q
      exact propext ih
    simp only [Leads, Way, turns_iff, hbody]

/-! ## Goals -/

/-- What is still to be done: from which places it can be done, and at what cost. -/
abbrev Goal := Nat → Cursor → Prop

/-- A goal takes a cost of at least `bound` from a place, if it can be met at all. -/
def Beyond (G : Goal) (bound : Nat) (p : Cursor) : Prop := ∀ cost < bound, ¬ G cost p

/-- Either of two goals. -/
def Goal.or (G H : Goal) : Goal := fun cost p => G cost p ∨ H cost p

/-- First a match, and then a goal. -/
def before (m : Matcher) (G : Goal) : Goal :=
  fun cost p => ∃ a b q, cost = a + b ∧ m.Way a p q ∧ G b q

section Goals

variable {G H : Goal} {bound : Nat} {p : Cursor}

theorem Beyond.mono {less : Nat} (h : Beyond G bound p) (hle : less ≤ bound) : Beyond G less p :=
  fun cost hlt => h cost (Nat.lt_of_lt_of_le hlt hle)

/-- A goal that costs more than any cost it takes at least takes every cost at least. -/
theorem Beyond.of_later (h : ∀ less < bound, Beyond G less p → Beyond G (less + 1) p) :
    Beyond G bound p := by
  induction bound with
  | zero => exact fun cost hlt => absurd hlt (Nat.not_lt_zero cost)
  | succ bound ih =>
    exact h bound bound.lt_succ_self (ih fun less hlt => h less (Nat.lt_succ_of_lt hlt))

theorem beyond_or_iff : Beyond (G.or H) bound p ↔ Beyond G bound p ∧ Beyond H bound p := by
  simp only [Beyond, Goal.or, not_or]
  exact ⟨fun h => ⟨fun cost hlt => (h cost hlt).1, fun cost hlt => (h cost hlt).2⟩,
    fun h cost hlt => ⟨h.1 cost hlt, h.2 cost hlt⟩⟩

theorem empty_before : empty.before G = G := by
  funext cost p
  refine propext ⟨?_, fun hG => ⟨0, cost, p, (Nat.zero_add cost).symm, ⟨rfl, rfl⟩, hG⟩⟩
  rintro ⟨_, b, _, rfl, ⟨rfl, rfl⟩, hG⟩
  rwa [Nat.zero_add]

theorem cat_before (m n : Matcher) : (cat m n).before G = m.before (n.before G) := by
  funext cost p
  refine propext ⟨?_, ?_⟩
  · rintro ⟨_, c, q, rfl, ⟨a, b, r, rfl, hm, hn⟩, hG⟩
    exact ⟨a, b + c, r, Nat.add_assoc a b c, hm, b, c, q, rfl, hn, hG⟩
  · rintro ⟨a, _, r, rfl, hm, b, c, q, rfl, hn, hG⟩
    exact ⟨a + b, c, q, (Nat.add_assoc a b c).symm, ⟨a, b, r, rfl, hm, hn⟩, hG⟩

theorem alt_before (m n : Matcher) : (alt m n).before G = (m.before G).or (n.before G) := by
  funext cost p
  simp only [before, Way, Goal.or, or_and_right, and_or_left, exists_or]

/-- At the end of a text there is no character of a set. -/
theorem set_beyond_nil {s : CharSet} (hrest : p.rest = []) : Beyond ((set s).before G) bound p := by
  rintro _ - ⟨a, b, q, rfl, ⟨rfl, c, rest, hcons, -⟩, -⟩
  simp [hrest] at hcons

/-- A goal behind one character of a set. -/
theorem set_beyond_cons {s : CharSet} {c : Char} {rest : List Char} (hrest : p.rest = c :: rest)
    (h : s.mem c = true → Beyond G bound (p.after c rest)) :
    Beyond ((set s).before G) bound p := by
  rintro _ hlt ⟨a, b, q, rfl, ⟨rfl, d, rest', hcons, hmem, rfl⟩, hG⟩
  obtain ⟨rfl, rfl⟩ := List.cons.inj (hrest.symm.trans hcons)
  exact h hmem b (by omega) hG

/-- A goal at a place that meets a condition. -/
theorem look_beyond {l : Look} (h : l.holds p.prev? p.peek? = true → Beyond G bound p) :
    Beyond ((look l).before G) bound p := by
  rintro _ hlt ⟨a, b, q, rfl, ⟨rfl, rfl, hholds⟩, hG⟩
  exact h hholds b (by omega) hG

/-- Passing a mark adds to the cost. -/
theorem mark_beyond {label : Nat} (h : Beyond G bound p) :
    Beyond ((mark label).before G) (bound + 1) p := by
  rintro _ hlt ⟨a, b, q, rfl, ⟨rfl, rfl⟩, hG⟩
  exact h b (by omega) hG

/-- A goal behind a run of characters of a set, by the first of them. -/
theorem span_beyond {greedy : Bool} {s : CharSet} (hstay : Beyond G bound p)
    (hmove : Beyond ((set s).before ((span greedy s).before G)) bound p) :
    Beyond ((span greedy s).before G) bound p := by
  rintro _ hlt ⟨a, b, q, rfl, ⟨rfl, hsteps⟩, hG⟩
  rcases hsteps.cases_head with rfl | ⟨r, hstep, hsteps⟩
  · exact hstay b (by omega) hG
  · exact hmove (0 + b) hlt ⟨0, b, r, rfl, ⟨rfl, hstep⟩, 0, b, q, (Nat.zero_add b).symm,
      ⟨rfl, hsteps⟩, hG⟩

/-- A goal behind a loop, by its first round.  Arriving at the head adds to the cost. -/
theorem loop_beyond {greedy : Bool} {body : Matcher} (hleave : Beyond G bound p)
    (hround : Beyond (body.before ((loop greedy body).before G)) bound p) :
    Beyond ((loop greedy body).before G) (bound + 1) p := by
  rintro _ hlt ⟨a, b, q, rfl, hturns, hG⟩
  cases hturns with
  | leave => exact hleave b (by omega) hG
  | @round c d _ r _ hbody hrest =>
    exact hround (c + (d + b)) (by omega) ⟨c, d + b, r, rfl, hbody, d, b, q, rfl, hrest, hG⟩

/-- At the end of a text nothing is matched but the empty text. -/
theorem beyond_of_rest_nil {m : Matcher} (hrest : p.rest = []) (h : Beyond G bound p) :
    Beyond (m.before G) bound p := by
  rintro _ hlt ⟨a, b, q, rfl, hway, hG⟩
  have hreaches : p.Reaches q := (leads_iff_way.2 ⟨a, hway⟩).reaches
  rcases hreaches.eq_or_after with rfl | ⟨c, rest, hcons, -⟩
  · exact h b (by omega) hG
  · simp [hrest] at hcons

end Goals

/-! ## Labels -/

/-- Each label of a matcher, followed by a goal, stands for what `future` says: passing the mark,
and then the rest of the matcher and the goal. -/
def Fits (future : Nat → Goal) : Matcher → Goal → Prop
  | mark label, G => future label = (mark label).before G
  | cat m n, G => m.Fits future (n.before G) ∧ n.Fits future G
  | alt m n, G => m.Fits future G ∧ n.Fits future G
  | loop greedy body, G => body.Fits future ((loop greedy body).before G)
  | _, _ => True

/-- The labels of a matcher are numbers from `first` up to `last`, and each of them stands for one
goal: whatever says the right goals for these numbers fits. -/
def Labelled (m : Matcher) (first last : Nat) : Prop :=
  first ≤ last ∧ ∀ G, ∃ future : Nat → Goal, ∀ other : Nat → Goal,
    (∀ label, first ≤ label → label < last → other label = future label) → m.Fits other G

section Labels

variable {m n : Matcher} {first middle last : Nat}

theorem Labelled.widen {less more : Nat} (h : m.Labelled first last) (hless : less ≤ first)
    (hmore : last ≤ more) : m.Labelled less more := by
  obtain ⟨hle, hfits⟩ := h
  refine ⟨by omega, fun G => ?_⟩
  obtain ⟨future, hfuture⟩ := hfits G
  exact ⟨future, fun other hother => hfuture other fun label hfirst hlast =>
    hother label (by omega) (by omega)⟩

/-- Two matchers with different labels fit one assignment of goals. -/
theorem Labelled.both (hm : m.Labelled first middle) (hn : n.Labelled middle last) (G H : Goal) :
    ∃ future : Nat → Goal, ∀ other : Nat → Goal,
      (∀ label, first ≤ label → label < last → other label = future label) →
        m.Fits other G ∧ n.Fits other H := by
  obtain ⟨hfirst, hfitsm⟩ := hm
  obtain ⟨hlast, hfitsn⟩ := hn
  obtain ⟨futurem, hm⟩ := hfitsm G
  obtain ⟨futuren, hn⟩ := hfitsn H
  refine ⟨fun label => if label < middle then futurem label else futuren label,
    fun other hother => ⟨hm other fun label hge hlt => ?_, hn other fun label hge hlt => ?_⟩⟩
  · exact (hother label hge (by omega)).trans (if_pos hlt)
  · exact (hother label (by omega) hlt).trans (if_neg (by omega))

theorem Labelled.cat (hm : m.Labelled first middle) (hn : n.Labelled middle last) :
    (cat m n).Labelled first last :=
  ⟨Nat.le_trans hm.1 hn.1, fun G => hm.both hn (n.before G) G⟩

theorem Labelled.alt (hm : m.Labelled first middle) (hn : n.Labelled middle last) :
    (alt m n).Labelled first last :=
  ⟨Nat.le_trans hm.1 hn.1, fun G => hm.both hn G G⟩

theorem Labelled.loop {greedy : Bool} (h : m.Labelled first last) :
    (loop greedy m).Labelled first last :=
  ⟨h.1, fun G => h.2 ((Matcher.loop greedy m).before G)⟩

theorem labelled_empty (hle : first ≤ last) : empty.Labelled first last :=
  ⟨hle, fun G => ⟨fun _ => G, fun _ _ => trivial⟩⟩

theorem labelled_set (s : CharSet) (hle : first ≤ last) : (set s).Labelled first last :=
  ⟨hle, fun G => ⟨fun _ => G, fun _ _ => trivial⟩⟩

theorem labelled_look (l : Look) (hle : first ≤ last) : (look l).Labelled first last :=
  ⟨hle, fun G => ⟨fun _ => G, fun _ _ => trivial⟩⟩

theorem labelled_span (greedy : Bool) (s : CharSet) (hle : first ≤ last) :
    (span greedy s).Labelled first last :=
  ⟨hle, fun G => ⟨fun _ => G, fun _ _ => trivial⟩⟩

theorem labelled_mark (label : Nat) : (mark label).Labelled label (label + 1) :=
  ⟨Nat.le_succ label, fun G => ⟨fun _ => (mark label).before G, fun _ hother =>
    hother label (Nat.le_refl label) label.lt_succ_self⟩⟩

/-- A first round has the labels of the rounds of a loop, which follow it. -/
theorem Labelled.atLeastOnce {greedy : Bool} (h : m.Labelled first last) :
    (Matcher.cat m (Matcher.loop greedy m)).Labelled first last := by
  refine ⟨h.1, fun G => ?_⟩
  obtain ⟨future, hfuture⟩ := h.2 ((Matcher.loop greedy m).before G)
  exact ⟨future, fun other hother => ⟨hfuture other hother, hfuture other hother⟩⟩

/-- The mark before a loop is the mark at the end of every round. -/
theorem Labelled.markedLoop {greedy : Bool} {label : Nat} (h : m.Labelled (label + 1) last) :
    (Matcher.cat (mark label)
      (Matcher.loop greedy (Matcher.cat m (mark label)))).Labelled label last := by
  obtain ⟨hle, hfits⟩ := h
  refine ⟨by omega, fun G => ?_⟩
  let head : Goal :=
    (mark label).before ((Matcher.loop greedy (Matcher.cat m (mark label))).before G)
  obtain ⟨future, hfuture⟩ := hfits head
  refine ⟨fun other => if other = label then head else future other, fun other hother => ?_⟩
  have hhead : other label = head :=
    (hother label (Nat.le_refl label) (by omega)).trans (if_pos rfl)
  refine ⟨hhead, hfuture other fun number hge hlt => ?_, hhead⟩
  exact (hother number (by omega) hlt).trans (if_neg (by omega))

theorem Labelled.join (hm : m.Labelled first middle) (hn : n.Labelled middle last) :
    (join m n).Labelled first last := by
  unfold Matcher.join
  split
  · exact hn.widen hm.1 (Nat.le_refl last)
  · exact hm.widen (Nat.le_refl first) hn.1
  · exact hm.cat hn

theorem Labelled.optional (greedy : Bool) (h : m.Labelled first last) :
    (optional greedy m).Labelled first last := by
  unfold Matcher.optional
  split
  · exact h.alt (labelled_empty (Nat.le_refl last))
  · exact (labelled_empty (Nat.le_refl first)).alt h

theorem labelled_ofText (text : List Char) (label : Nat) : (ofText text).Labelled label label := by
  have hle := Nat.le_refl label
  fun_induction ofText text with
  | case1 => exact labelled_empty hle
  | case2 c => exact labelled_set _ hle
  | case3 c rest hne ih => exact (labelled_set _ hle).cat ih

end Labels

/-! ## Labels of what is built -/

/-- A built part has labels from one number up to that of the point behind it. -/
def Built.Numbered (built : Built) (label : Nat) : Prop :=
  built.matcher.Labelled label built.point.label

/-- What is built at any point has labels from that of the point on. -/
def Numbers (make : Point → Built) : Prop := ∀ point, (make point).Numbered point.label

theorem Built.Numbered.join {first rest : Built} {label : Nat} (hfirst : first.Numbered label)
    (hrest : rest.Numbered first.point.label) :
    Built.Numbered ⟨Matcher.join first.matcher rest.matcher, rest.point⟩ label :=
  Labelled.join hfirst hrest

theorem Built.Numbered.marked {built : Built} {label : Nat} (wanted : Bool)
    (h : built.Numbered label) : (built.marked wanted).Numbered label := by
  unfold Built.marked
  split
  · exact h.cat (labelled_mark built.point.label)
  · exact h

section Numbers

variable {make : Point → Built}

theorem numbers_copies (h : Numbers make) (count : Nat) : Numbers (copies make count) := by
  intro point
  induction count generalizing point with
  | zero => exact labelled_empty (Nat.le_refl point.label)
  | succ count ih => exact (h point).join (ih _)

theorem numbers_upTo (h : Numbers make) (greedy : Bool) (count : Nat) :
    Numbers (upTo greedy make count) := by
  intro point
  induction count generalizing point with
  | zero => exact labelled_empty (Nat.le_refl point.label)
  | succ count ih => exact ((h point).join (ih _)).optional greedy

theorem numbers_atLeastOnce (h : Numbers make) (greedy : Bool) :
    Numbers (atLeastOnce greedy make) :=
  fun point => ((labelled_mark point.label).cat (h ⟨point.label + 1, .wide, 1⟩)).atLeastOnce

theorem numbers_ofNullableTimes (h : Numbers make) (least : Nat) (most? : Option Nat)
    (greedy : Bool) : Numbers (ofNullableTimes least most? greedy make) := by
  intro point
  unfold ofNullableTimes
  match most?, least with
  | none, 0 =>
    refine Built.Numbered.marked true ?_
    exact (numbers_atLeastOnce h greedy point).optional greedy
  | none, more + 1 =>
    refine Built.Numbered.marked true ?_
    exact (numbers_copies h more point).join (numbers_atLeastOnce h greedy _)
  | some most, least =>
    exact (numbers_copies h least point).join
      (Built.Numbered.marked (least != most) (numbers_upTo h greedy (most - least) _))

theorem numbers_markedLoop (h : Numbers make) (greedy : Bool) : Numbers (markedLoop greedy make) :=
  fun point => (h ⟨point.label + 1, .wide, 1⟩).markedLoop

theorem numbers_plainLoop (h : Numbers make) (greedy : Bool) : Numbers (plainLoop greedy make) := by
  intro point
  have hbody := h { point with spread := .wide }
  simp only [plainLoop]
  split
  · exact labelled_span greedy _ hbody.1
  · exact hbody.loop

theorem numbers_ofConsumingTimes (h : Numbers make) (marks singleWay : Bool) (least : Nat)
    (most? : Option Nat) (greedy : Bool) :
    Numbers (ofConsumingTimes marks singleWay least most? greedy make) := by
  intro point
  refine (numbers_copies h least point).join ?_
  cases most? with
  | none =>
    simp only
    split
    · exact numbers_plainLoop h greedy _
    · exact numbers_markedLoop h greedy _
  | some most =>
    have hrest := numbers_upTo h greedy (most - least) (copies make least point).point
    simp only
    split
    · exact hrest
    · split
      · exact hrest
      · exact hrest.marked marks

end Numbers

theorem numbers_build (marks : Bool) (p : Pattern) : Numbers (build marks p) := by
  induction p generalizing marks with
  | empty => exact fun point => labelled_empty (Nat.le_refl point.label)
  | literal text => exact fun point => labelled_ofText text point.label
  | set s => exact fun point => labelled_set s (Nat.le_refl point.label)
  | look l => exact fun point => labelled_look l (Nat.le_refl point.label)
  | cat p q ihp ihq => exact fun point => (ihp marks point).cat (ihq marks _)
  | alt p q ihp ihq =>
    intro point
    have hboth := (ihp marks point).alt
      (ihq marks { point with label := (build marks p point).point.label })
    simp only [build]
    split
    · exact hboth
    · exact Built.Numbered.marked marks hboth
  | times least most? greedy body ih =>
    intro point
    simp only [build]
    split
    · exact numbers_ofNullableTimes (ih true) least most? greedy point
    · exact numbers_ofConsumingTimes (ih marks) marks body.isSingleWay least most? greedy point
  | group index body ih => exact ih marks

/-- Each label of the matcher of a pattern stands for one goal. -/
theorem ofPattern_fits (p : Pattern) (G : Goal) : ∃ future, (ofPattern p).Fits future G := by
  obtain ⟨future, hfuture⟩ := (numbers_build false p {}).2 G
  exact ⟨future, hfuture future fun _ _ _ => rfl⟩

end Matcher

end CodeMarkup
