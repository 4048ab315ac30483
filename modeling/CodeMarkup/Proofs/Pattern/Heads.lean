import CodeMarkup.Proofs.Pattern.Compiled

/-!
# How matches begin

Of many patterns it is known with which characters their matches begin.  Such a pattern consumes
something wherever it matches, and two of them whose characters differ never match at one place.

* `Pattern.Leads.eq_of_onlyEmpty` — a pattern that can match nothing but the empty text stays where
  it is.
* `Pattern.Leads.peek?_of_heads?` — the characters that are given for a pattern are those with which
  it begins.
* `Pattern.Excludes` — two patterns never match at one place; `Pattern.excludes_of_apart` says it of
  those that are known to begin with other characters.
-/

namespace CodeMarkup

variable {place further : Cursor}

/-- Rounds that stay where they are stay there together. -/
theorem eq_of_rounds {R : Cursor → Cursor → Prop} (hR : ∀ p q, R p q → p = q) {n : Nat}
    (h : Rounds R n place further) : place = further := by
  induction n generalizing place with
  | zero => exact h
  | succ n ih =>
    obtain ⟨r, hround, hrest⟩ := h
    exact (hR _ _ hround).trans (ih hrest)

namespace Pattern

/-- A pattern that can match nothing but the empty text stays where it is. -/
theorem Leads.eq_of_onlyEmpty {p : Pattern} (hp : p.onlyEmpty = true)
    (h : p.Leads place further) : place = further := by
  induction p generalizing place further with
  | empty => exact h
  | literal text =>
    simp only [onlyEmpty, List.isEmpty_iff] at hp
    subst hp
    exact Cursor.passes_nil_iff.1 h
  | set s => simp [onlyEmpty] at hp
  | look l => exact h.1
  | cat p q ihp ihq =>
    simp only [onlyEmpty, Bool.and_eq_true] at hp
    obtain ⟨r, hfirst, hrest⟩ := h
    exact (ihp hp.1 hfirst).trans (ihq hp.2 hrest)
  | alt p q ihp ihq =>
    simp only [onlyEmpty, Bool.and_eq_true] at hp
    rcases h with hfirst | hrest
    · exact ihp hp.1 hfirst
    · exact ihq hp.2 hrest
  | times least most? greedy body ih =>
    obtain ⟨n, -, -, hrounds⟩ := h
    exact eq_of_rounds (fun _ _ => ih hp) hrounds
  | group index body ih => exact ih hp h

/-- **The characters given for a pattern are those with which its matches begin.** -/
theorem Leads.peek?_of_heads? {p : Pattern} {s : CharSet} (hs : p.heads? = some s)
    (h : p.Leads place further) : ∃ c, place.peek? = some c ∧ s.mem c = true := by
  induction p generalizing s place further with
  | empty | look l => simp [heads?] at hs
  | literal text =>
    cases text with
    | nil => simp [heads?] at hs
    | cons c text =>
      obtain rfl : CharSet.single c = s := by simpa [heads?] using hs
      exact ⟨c, by rw [Cursor.peek?, h.rest_eq]; rfl, CharSet.mem_single_iff.2 rfl⟩
  | set t =>
    obtain rfl : t = s := by simpa [heads?] using hs
    obtain ⟨c, rest, hrest, hmem, -⟩ := h
    exact ⟨c, by rw [Cursor.peek?, hrest]; rfl, hmem⟩
  | cat p q ihp ihq =>
    obtain ⟨r, hfirst, hrest⟩ := h
    simp only [heads?] at hs
    split at hs
    · -- the first part stays at the place, so that the second one begins there
      rename_i honly
      obtain rfl := hfirst.eq_of_onlyEmpty honly
      exact ihq hs hrest
    · exact ihp hs hfirst
  | alt p q ihp ihq =>
    simp only [heads?, Option.bind_eq_bind, Option.bind_eq_some_iff] at hs
    obtain ⟨left, hleft, right, hright, hs⟩ := hs
    obtain rfl : CharSet.union left right = s := by
      split at hs
      · exact Option.some.inj hs
      · cases hs
    rcases h with hfirst | hrest
    · obtain ⟨c, hpeek, hmem⟩ := ihp hleft hfirst
      exact ⟨c, hpeek, by simp [CharSet.mem, hmem]⟩
    · obtain ⟨c, hpeek, hmem⟩ := ihq hright hrest
      exact ⟨c, hpeek, by simp [CharSet.mem, hmem]⟩
  | times least most? greedy body ih =>
    cases least with
    | zero => simp [heads?] at hs
    | succ least =>
      obtain ⟨n, hle, -, hrounds⟩ := h
      obtain ⟨k, rfl⟩ := Nat.exists_eq_add_of_le' (Nat.le_trans (Nat.le_add_left 1 least) hle)
      obtain ⟨r, hround, -⟩ := hrounds
      exact ih hs hround
  | group index body ih => exact ih hs h

end Pattern

/-! ## Patterns that begin with other characters -/

/-- A set that names its members one by one names them all. -/
theorem CharSet.mem_of_chars? {s : CharSet} {chars : List Char} {c : Char}
    (h : s.chars? = some chars) (hmem : s.mem c = true) : c ∈ chars := by
  induction s generalizing chars with
  | none => simp [mem] at hmem
  | range first last =>
    simp only [chars?] at h
    split at h
    · rename_i hsame
      cases h
      rw [← hsame] at hmem
      exact List.mem_singleton.2 (mem_single_iff.1 hmem)
    · cases h
  | union s t ihs iht =>
    simp only [chars?, Option.bind_eq_bind, Option.bind_eq_some_iff] at h
    obtain ⟨left, hleft, right, hright, hboth⟩ := h
    cases hboth
    simp only [mem, Bool.or_eq_true] at hmem
    rcases hmem with hs | ht
    · exact List.mem_append_left right (ihs hleft hs)
    · exact List.mem_append_right left (iht hright ht)
  | digit | blank | word | compl | inter | caseless | asciiCaseless => simp [chars?] at h

/-- Sets that are known to have no member in common have none. -/
theorem CharSet.not_mem_of_apart {s t : CharSet} (h : s.apart t = true) {c : Char}
    (hs : s.mem c = true) : t.mem c = false := by
  unfold apart at h
  split at h
  · rename_i chars hchars
    simp only [Bool.not_eq_true', List.any_eq_false] at h
    simpa using h c (mem_of_chars? hchars hs)
  · rename_i chars hnone hchars
    simp only [Bool.not_eq_true', List.any_eq_false] at h
    cases ht : t.mem c with
    | false => rfl
    | true => exact absurd hs (h c (mem_of_chars? hchars ht))
  · cases h

namespace Pattern

/-- Two patterns never match at one place. -/
def Excludes (p q : Pattern) : Prop :=
  ∀ ⦃place further beyond⦄, p.Leads place further → ¬ q.Leads place beyond

theorem excludes_of_apart {p q : Pattern} (h : p.apart q = true) : p.Excludes q := by
  unfold apart at h
  split at h
  · rename_i s t hs ht
    intro place further beyond hp hq
    obtain ⟨c, hpeek, hc⟩ := hp.peek?_of_heads? hs
    obtain ⟨d, hpeek', hd⟩ := hq.peek?_of_heads? ht
    obtain rfl : c = d := Option.some.inj (hpeek.symm.trans hpeek')
    simp [CharSet.not_mem_of_apart h hc] at hd
  · cases h

end Pattern

end CodeMarkup
