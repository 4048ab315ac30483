import CodeMarkup.Proofs.Text.Lowercase

/-!
# The lower case of a piece of a text

A piece of a text is put into lower case in two ways: by itself, and as a part of the text.  Only a
capital sigma can tell the two apart, since it looks at its neighbours.  And only two of them can:
the one with nothing but case-ignorable characters before it in the piece, and the one with nothing
but those behind it.  Every other sigma finds both its neighbours within the piece.

* `lowercase_append_append` — the lower case of a text, from the lower case of its parts where they
  stand.
* `SigmaTurns` — one of the two sigmas at the edges of a piece changes its form.
* `lowercaseWithin_eq_iff` — a piece has one lower case in the text and by itself exactly if no
  sigma turns.
* `lowercase_isPrefix_drop_iff` — the same, said of the lower case of the whole text.
-/

namespace CodeMarkup

/-! ## A piece where it stands -/

/-- The lower case of a piece of a text where it stands: `after` follows it, and `before`, which is
given last character first, stands before it. -/
def lowercaseWithin (after before : List Char) : List Char → List Char
  | [] => []
  | c :: piece =>
    (if c.toNat == 0x3A3 then [lowerSigma before (piece ++ after)] else lowerForm c) ++
      lowercaseWithin after (c :: before) piece

/-- With nothing behind it, a piece stands as a text. -/
theorem lowercaseWithin_nil (before piece : List Char) :
    lowercaseWithin [] before piece = lowercaseAfter before piece := by
  induction piece generalizing before with
  | nil => rfl
  | cons c piece ih => rw [lowercaseWithin, lowercaseAfter, ih, List.append_nil]

theorem lowercaseAfter_append (before piece after : List Char) :
    lowercaseAfter before (piece ++ after) =
      lowercaseWithin after before piece ++ lowercaseAfter (piece.reverse ++ before) after := by
  induction piece generalizing before with
  | nil => rfl
  | cons c piece ih =>
    rw [List.cons_append, lowercaseAfter, ih, lowercaseWithin, List.append_assoc,
      List.reverse_cons, List.append_assoc, List.singleton_append]

/-- A text in lower case, cut into three parts. -/
theorem lowercase_append_append (before piece after : List Char) :
    lowercase (before ++ piece ++ after) =
      lowercaseWithin (piece ++ after) [] before ++
        (lowercaseWithin after before.reverse piece ++
          lowercaseAfter (piece.reverse ++ before.reverse) after) := by
  show lowercaseAfter [] (before ++ piece ++ after) = _
  rw [List.append_assoc, lowercaseAfter_append, List.append_nil, lowercaseAfter_append]

/-- A sigma has one lower-case letter wherever it stands, so the length of a lower case does not
depend on what stands around it. -/
theorem length_lowercaseWithin (after before after' before' piece : List Char) :
    (lowercaseWithin after before piece).length =
      (lowercaseWithin after' before' piece).length := by
  induction piece generalizing before before' with
  | nil => rfl
  | cons c piece ih =>
    rw [lowercaseWithin, lowercaseWithin, List.length_append, List.length_append,
      ih (c :: before) (c :: before')]
    by_cases hsigma : c.toNat = 0x3A3
    · simp [hsigma]
    · simp [hsigma]

/-! ## The sigmas of a piece -/

theorem toNat_eq_sigma_iff {c : Char} : c.toNat = 0x3A3 ↔ c = 'Σ' := by
  constructor
  · intro h
    exact Char.toNat_inj.1 h
  · intro h
    rw [h]
    rfl

theorem lowerSigma_eq_iff {before after before' after' : List Char} :
    lowerSigma before after = lowerSigma before' after' ↔
      (meetsCased before && !meetsCased after) = (meetsCased before' && !meetsCased after') := by
  have hne : Char.ofNat 0x3C2 ≠ Char.ofNat 0x3C3 := by decide
  unfold lowerSigma
  cases meetsCased before && !meetsCased after <;>
    cases meetsCased before' && !meetsCased after' <;> simp [hne, hne.symm]

/-- The sigmas of a piece are its first character, if that is one, and the sigmas of the rest. -/
theorem forall_sigma_cons {P : List Char → List Char → Prop} {c : Char} {piece : List Char} :
    (∀ lead rest, c :: piece = lead ++ 'Σ' :: rest → P lead rest) ↔
      (c = 'Σ' → P [] piece) ∧ ∀ lead rest, piece = lead ++ 'Σ' :: rest → P (c :: lead) rest := by
  constructor
  · intro h
    refine ⟨fun hc => h [] piece (by rw [hc]; rfl), fun lead rest hpiece => ?_⟩
    exact h (c :: lead) rest (by rw [hpiece]; rfl)
  · rintro ⟨hfirst, hlater⟩ lead rest hsplit
    cases lead with
    | nil =>
      obtain ⟨hc, rfl⟩ := List.cons.inj hsplit
      exact hfirst hc
    | cons d lead =>
      obtain ⟨rfl, hpiece⟩ := List.cons.inj hsplit
      exact hlater lead rest hpiece

/-- Two ways of standing give a piece one lower case if they give each of its sigmas one. -/
theorem lowercaseWithin_eq_lowercaseWithin_iff {after before after' before' piece : List Char} :
    lowercaseWithin after before piece = lowercaseWithin after' before' piece ↔
      ∀ lead rest, piece = lead ++ 'Σ' :: rest →
        lowerSigma (lead.reverse ++ before) (rest ++ after) =
          lowerSigma (lead.reverse ++ before') (rest ++ after') := by
  induction piece generalizing before before' with
  | nil => simp [lowercaseWithin]
  | cons c piece ih =>
    rw [forall_sigma_cons, lowercaseWithin, lowercaseWithin]
    by_cases hsigma : c = 'Σ'
    · subst hsigma
      simp [ih]
    · have hnat : c.toNat ≠ 0x3A3 := fun h => hsigma (toNat_eq_sigma_iff.1 h)
      simp [hsigma, hnat, ih]

/-! ## Sigmas at an edge -/

/-- What follows a capital sigma that begins a text, case-ignorable characters before it aside. -/
def afterSigma? (text : List Char) : Option (List Char) :=
  match text.dropWhile isCaseIgnorable with
  | [] => none
  | c :: rest => if c = 'Σ' then some rest else none

/-- By itself the first sigma of a piece does not end a word, and where it stands it does: the
letters of the word are in `before`, which is given last character first. -/
def turnsFinal (before piece after : List Char) : Bool :=
  (afterSigma? piece).any fun rest => meetsCased before && !meetsCased (rest ++ after)

/-- By itself the last sigma of a piece ends a word, and where it stands the word goes on. -/
def turnsMedial (piece after : List Char) : Bool :=
  (afterSigma? piece.reverse).any fun lead => meetsCased lead && meetsCased after

/-- A sigma at one of the edges of a piece has another form between `before` and `after` than it
has by itself. -/
def SigmaTurns (before piece after : List Char) : Prop :=
  turnsFinal before.reverse piece after = true ∨ turnsMedial piece after = true

instance (before piece after : List Char) : Decidable (SigmaTurns before piece after) :=
  inferInstanceAs (Decidable (_ ∨ _))

theorem isCaseIgnorable_sigma : isCaseIgnorable 'Σ' = false := by decide +kernel

theorem afterSigma?_eq_some_iff {text rest : List Char} :
    afterSigma? text = some rest ↔
      ∃ lead, text = lead ++ 'Σ' :: rest ∧ ∀ c ∈ lead, isCaseIgnorable c = true := by
  constructor
  · intro h
    have hsplit := (List.takeWhile_append_dropWhile (p := isCaseIgnorable) (l := text)).symm
    unfold afterSigma? at h
    split at h
    · cases h
    · rename_i c later hdrop
      by_cases hsigma : c = 'Σ'
      · obtain rfl : later = rest := by simpa [hsigma] using h
        rw [hdrop, hsigma] at hsplit
        exact ⟨text.takeWhile isCaseIgnorable, hsplit, fun c hc => List.mem_takeWhile_imp hc⟩
      · simp [hsigma] at h
  · rintro ⟨lead, rfl, hlead⟩
    rw [afterSigma?, List.dropWhile_append_of_pos hlead,
      List.dropWhile_cons_of_neg (by simp [isCaseIgnorable_sigma])]
    rfl

theorem turnsFinal_iff {before piece after : List Char} :
    turnsFinal before piece after = true ↔
      ∃ lead rest, piece = lead ++ 'Σ' :: rest ∧ (∀ c ∈ lead, isCaseIgnorable c = true) ∧
        meetsCased before = true ∧ meetsCased (rest ++ after) = false := by
  rw [turnsFinal, Option.any_eq_true]
  constructor
  · rintro ⟨rest, hrest, hmeets⟩
    obtain ⟨lead, hpiece, hlead⟩ := afterSigma?_eq_some_iff.1 hrest
    exact ⟨lead, rest, hpiece, hlead, by simpa using hmeets⟩
  · rintro ⟨lead, rest, hpiece, hlead, hmeets⟩
    exact ⟨rest, afterSigma?_eq_some_iff.2 ⟨lead, hpiece, hlead⟩, by simpa using hmeets⟩

theorem turnsMedial_iff {piece after : List Char} :
    turnsMedial piece after = true ↔
      ∃ lead rest, piece = lead ++ 'Σ' :: rest ∧ (∀ c ∈ rest, isCaseIgnorable c = true) ∧
        meetsCased lead.reverse = true ∧ meetsCased after = true := by
  rw [turnsMedial, Option.any_eq_true]
  constructor
  · rintro ⟨lead, hlead, hmeets⟩
    obtain ⟨rest, hpiece, hrest⟩ := afterSigma?_eq_some_iff.1 hlead
    refine ⟨lead.reverse, rest.reverse, ?_, by simpa using hrest, by simpa using hmeets⟩
    simpa using congrArg List.reverse hpiece
  · rintro ⟨lead, rest, rfl, hrest, hmeets⟩
    refine ⟨lead.reverse, afterSigma?_eq_some_iff.2 ⟨rest.reverse, by simp, ?_⟩,
      by simpa using hmeets⟩
    simpa using hrest

/-- Only a text of case-ignorable characters lets a sigma look past it. -/
theorem meetsCased_append (text beyond : List Char) :
    meetsCased (text ++ beyond) =
      if text.all isCaseIgnorable then meetsCased beyond else meetsCased text := by
  induction text with
  | nil => rfl
  | cons c text ih =>
    rw [List.cons_append, meetsCased_cons, meetsCased_cons, ih]
    by_cases hc : isCaseIgnorable c = true
    · simp [hc]
    · simp [hc]

theorem meetsCased_of_all {text : List Char} (h : text.all isCaseIgnorable = true) :
    meetsCased text = false := by
  have hnil := meetsCased_append text []
  rw [List.append_nil, if_pos h] at hnil
  exact hnil

/-- A sigma has two forms only if it stands at an edge: with no letter of its word before it in the
piece, or with none behind it. -/
theorem lowerSigma_append_eq_iff {before lead rest after : List Char} :
    lowerSigma (lead ++ before) (rest ++ after) = lowerSigma lead rest ↔
      ¬ (lead.all isCaseIgnorable = true ∧ meetsCased before = true ∧
          meetsCased (rest ++ after) = false) ∧
        ¬ (rest.all isCaseIgnorable = true ∧ meetsCased lead = true ∧
          meetsCased after = true) := by
  rw [lowerSigma_eq_iff, meetsCased_append, meetsCased_append]
  by_cases hlead : lead.all isCaseIgnorable = true
  · have hnone := meetsCased_of_all hlead
    simp [hlead, hnone]
  · by_cases hrest : rest.all isCaseIgnorable = true
    · have hnone := meetsCased_of_all hrest
      simp [hlead, hrest, hnone]
    · simp [hlead, hrest]

/-- **A piece keeps its lower case exactly if no sigma turns.** -/
theorem lowercaseWithin_eq_iff {before piece after : List Char} :
    lowercaseWithin after before.reverse piece = lowercase piece ↔
      ¬ SigmaTurns before piece after := by
  rw [lowercase, ← lowercaseWithin_nil, lowercaseWithin_eq_lowercaseWithin_iff, SigmaTurns,
    not_or, turnsFinal_iff, turnsMedial_iff]
  simp only [List.append_nil, lowerSigma_append_eq_iff, List.all_reverse, List.all_eq_true]
  constructor
  · intro h
    constructor
    · rintro ⟨lead, rest, hpiece, hlead, hmeets⟩
      exact (h lead rest hpiece).1 ⟨hlead, hmeets⟩
    · rintro ⟨lead, rest, hpiece, hrest, hmeets⟩
      exact (h lead rest hpiece).2 ⟨hrest, hmeets⟩
  · rintro ⟨hfinal, hmedial⟩ lead rest hpiece
    exact ⟨fun ⟨hlead, hmeets⟩ => hfinal ⟨lead, rest, hpiece, hlead, hmeets⟩,
      fun ⟨hrest, hmeets⟩ => hmedial ⟨lead, rest, hpiece, hrest, hmeets⟩⟩

/-- **A piece is found where it stands exactly if no sigma turns**: the lower case of the text goes
on with that of the piece, behind the lower case of what stands before it. -/
theorem lowercase_isPrefix_drop_iff {before piece after : List Char} :
    lowercase piece <+:
        (lowercase (before ++ piece ++ after)).drop (lowercase before).length ↔
      ¬ SigmaTurns before piece after := by
  have hbefore : (lowercaseWithin (piece ++ after) [] before).length =
      (lowercase before).length := by
    rw [length_lowercaseWithin _ _ [] [], lowercaseWithin_nil]
    rfl
  have hpiece : (lowercaseWithin after before.reverse piece).length =
      (lowercase piece).length := by
    rw [length_lowercaseWithin _ _ [] [], lowercaseWithin_nil]
    rfl
  rw [lowercase_append_append, List.drop_left' hbefore, ← lowercaseWithin_eq_iff]
  constructor
  · rintro ⟨tail, htail⟩
    exact (List.append_inj htail hpiece.symm).1.symm
  · intro h
    rw [h]
    exact List.prefix_append _ _

/-- A piece is found in lower case wherever it stands with no sigma turning. -/
theorem lowercase_isInfix_of_not_sigmaTurns {before piece after : List Char}
    (h : ¬ SigmaTurns before piece after) :
    lowercase piece <:+: lowercase (before ++ piece ++ after) :=
  (lowercase_isPrefix_drop_iff.2 h).isInfix.trans (List.drop_suffix _ _).isInfix

/-- In a piece without a capital sigma none turns. -/
theorem not_sigmaTurns_of_notMem {before piece after : List Char} (h : 'Σ' ∉ piece) :
    ¬ SigmaTurns before piece after := by
  rw [SigmaTurns, not_or, turnsFinal_iff, turnsMedial_iff]
  constructor
  · rintro ⟨lead, rest, rfl, -⟩
    simp at h
  · rintro ⟨lead, rest, rfl, -⟩
    simp at h

end CodeMarkup
