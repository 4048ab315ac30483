import CodeMarkup.Proofs.Grammar.Accepted
import CodeMarkup.Proofs.Pattern.Heads
import CodeMarkup.Proofs.Scan.TokenAt

/-!
# Ties

Where several categories of a grammar have a match at one place, their order decides.  In a grammar
whose categories exclude each other it never does, and it can be changed without any effect.

* `Grammar.NeverTies` — at most one category has a match that starts at an offset.
* `Category.Excludes` — two categories never match at one place.
* `scan_eq_of_perm` — without ties the order of the categories does not matter.
-/

namespace CodeMarkup

/-- At every offset of every source at most one category of a grammar has a match that starts
there. -/
def Grammar.NeverTies (grammar : Grammar) : Prop :=
  ∀ (source : List Char) (offset i j : Nat) (p q : Category) (stop stop' : Nat),
    grammar.categories[i]? = some p → grammar.categories[j]? = some q →
      p.findAt? source offset = some (offset, stop) →
        q.findAt? source offset = some (offset, stop') → i = j

/-! ## Categories that exclude each other -/

namespace Category

/-- Two categories never match at one place. -/
def Excludes (p q : Category) : Prop :=
  ∀ ⦃place stop stop'⦄, p.matcher.matchAt? place = some stop →
    q.matcher.matchAt? place ≠ some stop'

/-- Patterns that exclude each other make categories that do. -/
theorem excludes_of_patterns {p q : Pattern} (h : p.Excludes q) (name other : String) :
    (ofPattern name p).Excludes (ofPattern other q) :=
  fun _ _ _ hp hq => h (Pattern.leads_of_matchAt? hp) (Pattern.leads_of_matchAt? hq)

end Category

variable {grammar other : Grammar}

/-- Of categories that exclude each other, one at most matches at a place. -/
theorem Grammar.index_eq_of_matchAt? (h : grammar.categories.Pairwise Category.Excludes)
    {i j : Nat} {p q : Category} (hp : grammar.categories[i]? = some p)
    (hq : grammar.categories[j]? = some q) {place stop stop' : Cursor}
    (hmatch : p.matcher.matchAt? place = some stop)
    (hmatch' : q.matcher.matchAt? place = some stop') : i = j := by
  obtain ⟨hi, rfl⟩ := List.getElem?_eq_some_iff.1 hp
  obtain ⟨hj, rfl⟩ := List.getElem?_eq_some_iff.1 hq
  rcases Nat.lt_trichotomy i j with hlt | heq | hgt
  · exact absurd hmatch' (List.pairwise_iff_getElem.1 h i j hi hj hlt hmatch)
  · exact heq
  · exact absurd hmatch (List.pairwise_iff_getElem.1 h j i hj hi hgt hmatch')

/-- Of categories that exclude each other, whichever has a token makes that of the grammar. -/
theorem Grammar.tokenAt?_eq_some_of_mem (h : grammar.categories.Pairwise Category.Excludes)
    {category : Category} (hmem : category ∈ grammar.categories) {place stop : Cursor}
    (htoken : category.matcher.tokenAt? place = some stop) :
    grammar.tokenAt? place = some stop := by
  cases hgrammar : grammar.tokenAt? place with
  | none => simp [tokenAt?_eq_none_iff.1 hgrammar category hmem] at htoken
  | some stop' =>
    obtain ⟨other, hother, htoken'⟩ := exists_of_tokenAt? hgrammar
    obtain ⟨i, hi⟩ := List.getElem?_of_mem hmem
    obtain ⟨j, hj⟩ := List.getElem?_of_mem hother
    obtain rfl := index_eq_of_matchAt? h hi hj (Matcher.tokenAt?_eq_some_iff.1 htoken).1
      (Matcher.tokenAt?_eq_some_iff.1 htoken').1
    obtain rfl := Option.some.inj (hi.symm.trans hj)
    rw [← htoken', htoken]

theorem Grammar.neverTies_of_pairwise (h : grammar.categories.Pairwise Category.Excludes) :
    grammar.NeverTies := by
  intro source offset i j p q last last' hp hq hfind hfind'
  obtain ⟨place, stop, hplace, hmatch, hoffset, -⟩ := Category.exists_of_findAt? hfind
  obtain ⟨place', stop', hplace', hmatch', hoffset', -⟩ := Category.exists_of_findAt? hfind'
  obtain rfl : place = place' := hplace.eq_of_offset hplace' (hoffset.trans hoffset'.symm)
  exact index_eq_of_matchAt? h hp hq hmatch hmatch'

/-! ## The order of the categories -/

/-- Without ties, what a segment says of its source does not depend on the order of the
categories. -/
theorem Segment.Meets.of_perm {classifier : Classifier} {source : List Char} {segment : Segment}
    (h : segment.Meets other classifier source) (hties : grammar.NeverTies)
    (hperm : other.categories.Perm grammar.categories) :
    segment.Meets grammar classifier source := by
  cases segment with
  | gap first last =>
    intro offset hboundary hfirst hlast category hmem
    exact h offset hboundary hfirst hlast category (hperm.mem_iff.2 hmem)
  | token first last class? =>
    obtain ⟨⟨i, category, hi, htoken, -⟩, hclass⟩ := h
    obtain ⟨j, hj⟩ := List.getElem?_of_mem (hperm.mem_iff.1 (List.mem_of_getElem? hi))
    refine ⟨⟨j, category, hj, htoken, fun k earlier hk hearlier stop htoken' => ?_⟩, hclass⟩
    have heq := hties source first k j earlier category stop last hearlier hj htoken'.1 htoken.1
    exact Nat.ne_of_lt hk heq

/-- **Without ties the order of the categories does not matter.** -/
theorem scan_eq_of_perm (hties : grammar.NeverTies)
    (hperm : other.categories.Perm grammar.categories) (classifier : Classifier)
    (source : List Char) : scan other classifier source = scan grammar classifier source := by
  have hmeets := (scan_run other classifier source).meets (.start other source)
  refine (covers_scan other classifier source).unique (covers_scan grammar classifier source)
    (fun segment hmem => (hmeets segment hmem).of_perm hties hperm) ?_
  exact (scan_run grammar classifier source).meets (.start grammar source)

end CodeMarkup
