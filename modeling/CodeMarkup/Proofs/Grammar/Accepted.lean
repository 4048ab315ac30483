import CodeMarkup.Grammar.Basic
import CodeMarkup.Proofs.Pattern.Empty
import CodeMarkup.Proofs.Pattern.FirstMatch

/-!
# Empty matches of accepted categories

A category is accepted if its pattern has no empty match in a few sample texts.  The first sample is
the empty text, and an empty match in it is never hidden by a match before.  So an accepted category
matches the empty text nowhere, except at the edge of a word if its pattern asks for one: the
samples have such edges, but an empty match there can stand right behind another match, which hides
it.

This holds of every pattern, written or not.  Categories that are read are a case of it, under all
flags and with all tables of properties.

* `Category.EmptyAtEdgesOnly` — where an accepted category can find the empty text
  (`Category.emptyAtEdgesOnly_of_accept`).
* `Category.readWith_eq_ok_iff`, `Grammar.mem_categories_iff` — the categories that are read, alone
  or in a grammar, are accepted ones.
* `Grammar.text_ne_nil_of_find?` — a grammar never finds the empty text.
-/

namespace CodeMarkup

/-- An edge of a word lies at an offset of a text. -/
def IsWordEdge (text : List Char) (offset : Nat) : Prop :=
  ∃ place, (Cursor.start text).Reaches place ∧ place.offset = offset ∧ place.AtWordEdge

/-! ## What the check establishes -/

/-- In the empty text there is nothing that could hide an empty match. -/
theorem Matcher.matchAt?_start_nil {m : Matcher} (h : m.matchesEmptyIn [] = false) :
    m.matchAt? (.start []) = none := by
  cases hmatch : m.matchAt? (.start []) with
  | none => rfl
  | some stop =>
    have hfind : m.find? (.start []) = some (.start [], stop) := by
      simp [find?, findFrom, Cursor.start] at hmatch ⊢
      simp [hmatch]
    have hstop : stop = .start [] := by
      rcases (matchAt?_reaches hmatch).eq_or_after with heq | ⟨c, rest, hcons, -⟩
      · exact heq.symm
      · cases hcons
    subst hstop
    simp [matchesEmptyIn, allMatches, matchesWithin, hfind] at h

namespace Category

variable {name : String} {p : Pattern} {category : Category}

/-- A category is accepted if its pattern has no empty match in a sample. -/
theorem accept_eq_ok_iff : accept name p = .ok category ↔
    category = ofPattern name p ∧
      ∀ sample ∈ samples, category.matcher.matchesEmptyIn sample.toList = false := by
  unfold accept
  dsimp only
  split
  · rename_i hsome
    simp only [reduceCtorEq, false_iff, not_and]
    rintro rfl hsamples
    obtain ⟨sample, hmem, hempty⟩ := List.any_eq_true.1 hsome
    simp [hsamples sample hmem] at hempty
  · rename_i hnone
    simp only [List.any_eq_true, not_exists, not_and, Bool.not_eq_true] at hnone
    simp only [Except.ok.injEq]
    constructor
    · rintro rfl
      exact ⟨rfl, hnone⟩
    · rintro ⟨rfl, -⟩
      rfl

/-- The pattern of an accepted category does not match the empty text as a whole. -/
theorem not_leads_of_accept (h : accept name p = .ok category) :
    ¬ p.Leads (.start []) (.start []) := by
  obtain ⟨rfl, hsamples⟩ := accept_eq_ok_iff.1 h
  have hempty := Matcher.matchAt?_start_nil (hsamples "" (by decide))
  exact Pattern.matchAt?_eq_none_iff.1 hempty _

/-- A category is read if its pattern can be read and is accepted. -/
theorem readWith_eq_ok_iff {flags : Written.Flags} {written : List Char} :
    readWith flags name written = .ok category ↔
      ∃ p, Pattern.readWith? flags written = some p ∧ accept name p = .ok category := by
  unfold readWith
  cases Pattern.readWith? flags written with
  | none => simp
  | some p => simp

/-- What a category finds is a match at a place of the text. -/
theorem exists_of_findAt? {text : List Char} {offset first last : Nat}
    (h : category.findAt? text offset = some (first, last)) :
    ∃ start stop, (Cursor.start text).Reaches start ∧ category.matcher.matchAt? start = some stop ∧
      start.offset = first ∧ stop.offset = last := by
  simp only [findAt?, bind, Option.bind_eq_some_iff] at h
  obtain ⟨place, hplace, ⟨start, stop⟩, hfind, heq⟩ := h
  cases heq
  have hfirst := category.matcher.find?_isFirst place
  rw [hfind] at hfirst
  exact ⟨start, stop, (Cursor.seek?_reaches hplace).trans hfirst.1, hfirst.2.1, rfl, rfl⟩

/-- A category finds the empty text only at edges of words, and only if its pattern asks for
such an edge. -/
def EmptyAtEdgesOnly (category : Category) (p : Pattern) : Prop :=
  ∀ text offset first last, category.findAt? text offset = some (first, last) →
    first < last ∨ first = last ∧ p.asksEdge = true ∧ IsWordEdge text first

theorem emptyAtEdgesOnly_of_accept (h : accept name p = .ok category) :
    category.EmptyAtEdgesOnly p := by
  have hempty := not_leads_of_accept h
  obtain ⟨rfl, -⟩ := accept_eq_ok_iff.1 h
  intro text offset first last hfind
  obtain ⟨start, stop, hstart, hmatch, rfl, rfl⟩ := exists_of_findAt? hfind
  have hleads := Pattern.leads_of_matchAt? hmatch
  rcases Nat.lt_or_eq_of_le hleads.reaches.offset_le with hlt | heq
  · exact .inl hlt
  · obtain rfl : start = stop := hleads.reaches.eq_of_offset_eq heq
    rcases Pattern.leads_start_nil hleads with hnil | ⟨hasks, hedge⟩
    · exact absurd hnil hempty
    · exact .inr ⟨rfl, hasks, start, hstart, rfl, hedge⟩

end Category

/-! ## Grammars -/

/-- Reading the members of a list succeeds if and only if each of them can be read. -/
theorem mapM_eq_ok_iff {α β ε : Type} {f : α → Except ε β} {xs : List α} {ys : List β} :
    xs.mapM f = .ok ys ↔ xs.map f = ys.map .ok := by
  induction xs generalizing ys with
  | nil => cases ys <;> simp [pure, Except.pure]
  | cons x xs ih =>
    rw [List.mapM_cons, List.map_cons]
    cases hx : f x with
    | error e => cases ys <;> simp [bind, Except.bind]
    | ok y =>
      cases hxs : xs.mapM f with
      | error e =>
        simp only [hxs, reduceCtorEq, false_iff] at ih
        cases ys <;> simp [bind, Except.bind, ih]
      | ok rest =>
        simp only [hxs, Except.ok.injEq] at ih
        cases ys <;> simp [bind, Except.bind, pure, Except.pure, ← ih]

/-- Between two places something is matched. -/
theorem GrammarMatch.text_ne_nil {found : GrammarMatch} (h : found.start.Reaches found.stop)
    (hlt : found.start.offset < found.stop.offset) : found.text ≠ [] := by
  obtain ⟨passed, h⟩ := h
  have hlength : found.stop.offset - found.start.offset = utf8Length passed := by
    rw [h.offset_eq]
    omega
  rw [text, hlength, h.rest_eq, takeBytes_append]
  rintro rfl
  simp at hlength
  omega

namespace Grammar

/-- The categories of a grammar that can be read are those of its rules. -/
theorem mem_categories_iff {flags : Written.Flags} {rules : List (String × List Char)}
    {grammar : Grammar} (h : readWith flags rules = .ok grammar) {category : Category} :
    category ∈ grammar.categories ↔
      ∃ rule ∈ rules, Category.readWith flags rule.1 rule.2 = .ok category := by
  simp only [readWith, bind, Except.bind] at h
  split at h
  · cases h
  · rename_i categories hcategories
    cases h
    have hmap := mapM_eq_ok_iff.1 hcategories
    calc category ∈ categories
      _ ↔ Except.ok category ∈ categories.map (Except.ok (ε := CategoryError)) := by simp
      _ ↔ Except.ok category ∈ rules.map fun rule => Category.readWith flags rule.1 rule.2 := by
        rw [hmap]
      _ ↔ ∃ rule ∈ rules, Category.readWith flags rule.1 rule.2 = .ok category := List.mem_map

variable {grammar : Grammar} {place : Cursor}

theorem text_ne_nil_of_better {best? : Option GrammarMatch} (entry : Category × Nat)
    (hbest : ∀ best ∈ best?, best.text ≠ []) :
    ∀ best ∈ better place best? entry, best.text ≠ [] := by
  intro best hmem
  unfold better at hmem
  split at hmem
  · exact hbest best hmem
  · rename_i start stop hfind
    split at hmem
    · exact hbest best hmem
    · rename_i hne
      have hfirst := entry.1.matcher.find?_isFirst place
      rw [hfind] at hfirst
      have hreaches := Matcher.matchAt?_reaches hfirst.2.1
      have hnew : GrammarMatch.text ⟨start, stop, entry.2⟩ ≠ [] := by
        have hne : start.offset ≠ stop.offset := by simpa using hne
        exact GrammarMatch.text_ne_nil hreaches (Nat.lt_of_le_of_ne hreaches.offset_le hne)
      split at hmem
      · cases hmem
        exact hnew
      · split at hmem
        · cases hmem
          exact hnew
        · exact hbest best hmem

/-- A grammar finds no empty match, whether a category does or not. -/
theorem text_ne_nil_of_find? {found : GrammarMatch} (h : grammar.find? place = some found) :
    found.text ≠ [] := by
  have hfold : ∀ best ∈ grammar.find? place, best.text ≠ [] :=
    List.foldlRecOn (motive := fun best? : Option GrammarMatch => ∀ best ∈ best?, best.text ≠ [])
      _ _ (by simp)
      fun best? hbest entry _ => text_ne_nil_of_better entry hbest
  exact hfold found h

theorem text_ne_nil_of_findAt? {text : List Char} {offset : Nat} {found : GrammarMatch}
    (h : grammar.findAt? text offset = some found) : found.text ≠ [] := by
  obtain ⟨place, -, hfind⟩ := Option.bind_eq_some_iff.1 h
  exact text_ne_nil_of_find? hfind

end Grammar

/-! ## What the check achieves -/

/-- Some letters, or else an edge of a word.  In each sample the edges stand beside the letters. -/
def Pattern.lettersOrEdge : Pattern :=
  .alt (.set (.ofChars ['a', 'b', '0'])) (.look (.word false .either))

theorem Pattern.read?_lettersOrEdge :
    Pattern.read? true "[ab0]|\\b".toList = some lettersOrEdge := by
  decide +kernel

theorem Category.accept_lettersOrEdge :
    accept "edge" .lettersOrEdge = .ok (.ofPattern "edge" .lettersOrEdge) :=
  accept_eq_ok_iff.2 ⟨rfl, by decide +kernel⟩

theorem Category.read_lettersOrEdge :
    read "edge" "[ab0]|\\b".toList = .ok (.ofPattern "edge" .lettersOrEdge) :=
  readWith_eq_ok_iff.2 ⟨_, Pattern.read?_lettersOrEdge, accept_lettersOrEdge⟩

/-- Before another letter the edge is found. -/
theorem Category.findAt?_lettersOrEdge :
    (ofPattern "edge" .lettersOrEdge).findAt? "x".toList 0 = some (0, 0) := by
  decide +kernel

/-- **What the check on empty matches achieves.**  A category that is accepted finds the empty text
only at edges of words, and only if its pattern asks for them.  So does a category that is read,
whatever the flags and the tables of properties.  A grammar with the category never finds the empty
text. -/
theorem accepted_empty_at_edges_only (name : String) (category : Category) :
    (∀ p, Category.accept name p = .ok category → category.EmptyAtEdgesOnly p) ∧
      ∀ flags written, Category.readWith flags name written = .ok category →
        (∃ p, Pattern.readWith? flags written = some p ∧ category.EmptyAtEdgesOnly p) ∧
        ∀ rules grammar, (name, written) ∈ rules → Grammar.readWith flags rules = .ok grammar →
          category ∈ grammar.categories ∧
          ∀ text offset found, grammar.findAt? text offset = some found → found.text ≠ [] := by
  refine ⟨fun p => Category.emptyAtEdgesOnly_of_accept, fun flags written hread => ?_⟩
  obtain ⟨p, hp, haccept⟩ := Category.readWith_eq_ok_iff.1 hread
  refine ⟨⟨p, hp, Category.emptyAtEdgesOnly_of_accept haccept⟩, ?_⟩
  intro rules grammar hrule hgrammar
  have hmem := (Grammar.mem_categories_iff hgrammar).2 ⟨_, hrule, hread⟩
  exact ⟨hmem, fun text offset found => Grammar.text_ne_nil_of_findAt?⟩

/-- A category that is accepted and finds an empty text; a grammar with it does not. -/
theorem accepted_empty_at_edges_only_letter :
    ∃ category p grammar, Category.read "edge" "[ab0]|\\b".toList = .ok category ∧
      Pattern.read? true "[ab0]|\\b".toList = some p ∧
      category.findAt? "x".toList 0 = some (0, 0) ∧ p.asksEdge = true ∧ IsWordEdge "x".toList 0 ∧
      Grammar.read [("edge", "[ab0]|\\b".toList)] = .ok grammar ∧
      (grammar.findAt? "xa".toList 1).isSome = true ∧
      ∀ found ∈ grammar.findAt? "xa".toList 1, found.text ≠ [] := by
  let category : Category := .ofPattern "edge" .lettersOrEdge
  have hread : Category.read "edge" "[ab0]|\\b".toList = .ok category :=
    Category.read_lettersOrEdge
  have hgrammar : Grammar.read [("edge", "[ab0]|\\b".toList)] = .ok ⟨[category]⟩ := by
    rw [Category.read] at hread
    simp only [Grammar.read, Grammar.readWith, List.mapM_cons, List.mapM_nil, hread]
    rfl
  obtain ⟨haccepted, hreads⟩ := accepted_empty_at_edges_only "edge" category
  obtain ⟨-, hgrammars⟩ := hreads _ _ hread
  obtain ⟨-, hmatches⟩ := hgrammars _ _ List.mem_cons_self hgrammar
  have hfind := Category.findAt?_lettersOrEdge
  rcases haccepted _ Category.accept_lettersOrEdge _ _ _ _ hfind with hlt | ⟨-, hasks, hedge⟩
  · exact absurd hlt (Nat.lt_irrefl 0)
  · exact ⟨_, _, _, hread, Pattern.read?_lettersOrEdge, hfind, hasks, hedge, hgrammar,
      by decide +kernel, hmatches "xa".toList 1⟩

/-- An accepted category can find the empty text. -/
theorem accepted_finds_empty :
    ¬ ∀ name written category, Category.read name written = .ok category →
      ∀ text offset first last, category.findAt? text offset = some (first, last) →
        first < last := by
  intro h
  have hlt := h _ _ _ Category.read_lettersOrEdge _ _ _ _ Category.findAt?_lettersOrEdge
  exact absurd hlt (Nat.lt_irrefl 0)

/-- So can one whose pattern names a property, here with a table that knows the ASCII letters. -/
example :
    let letters : Written.Properties := fun name =>
      if name = ['L'] then some (.ofRanges [('A', 'Z'), ('a', 'z')]) else none
    let read := Category.readWith { multiLine := true, properties := letters } "edge"
      "[\\pL0]|\\b".toList
    read.toOption.bind (fun category => category.findAt? "_".toList 0) = some (0, 0) := by
  decide +kernel

end CodeMarkup
