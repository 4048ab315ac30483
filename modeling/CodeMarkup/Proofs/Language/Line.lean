import CodeMarkup.Proofs.Language.Comment
import CodeMarkup.Proofs.Language.Ties
import CodeMarkup.Proofs.Markup.Reading
import CodeMarkup.Proofs.Pattern.Alike
import CodeMarkup.Proofs.Pattern.Quoted

/-!
# Lines by themselves

Only what is open at the end of a line can reach into the next one: a string, a comment with two
ends, an expansion in braces.  Where nothing of the kind has been left in a gap, two texts with a
line end between them are highlighted like each of them alone.

Both sides of the line end have to be compared with a text of their own.  Behind it a match sees a
line end where it saw nothing, which makes no difference for the edges of words; in front of it a
match sees a line end where its text was over, and takes it for the end.

* `Language.SeparatesLines` — the property, for the texts that can open something.
* `Matcher.KeepsToLine` — a line end behind a text does not change the tokens of a matcher in it.
* `Grammar.Linewise` — what a grammar needs; `Reading.append_line` is the step over the line end.
* `Language.builtin_separatesLines` — the main result.
-/

namespace CodeMarkup

variable {openers : List String} {place other stop : Cursor} {b : List Char}

/-- Two texts with a line end between them are highlighted like each of them alone, if no gap of the
first one contains one of the texts that open something. -/
def Language.SeparatesLines (language : Language) (openers : List String) : Prop :=
  ∀ lead a b, (∀ first last,
      Segment.gap first last ∈ scan language.grammar language.classifier a →
        ∀ opener ∈ openers, ¬ opener.toList <:+: slice a first last) →
    language.highlight lead (a ++ '\n' :: b) =
      language.highlight lead a ++ '\n' :: language.highlight lead b

/-- None of the texts that open something stands at a place. -/
def Cursor.OpensNothing (openers : List String) (place : Cursor) : Prop :=
  ∀ opener ∈ openers, ¬ opener.toList <+: place.rest

/-! ## Matchers and the end of a line -/

/-- A line end behind a text, and whatever follows it, does not change the tokens of a matcher in
the text.  A place without one stays so only if nothing is opened there. -/
structure Matcher.KeepsToLine (openers : List String) (m : Matcher) : Prop where
  token_kept : ∀ {place other stop : Cursor} {b : List Char}, place.Alike 0 ('\n' :: b) other →
    m.tokenAt? place = some stop →
      ∃ stop', m.tokenAt? other = some stop' ∧ stop.Alike 0 ('\n' :: b) stop'
  none_kept : ∀ {place other : Cursor} {b : List Char}, place.Alike 0 ('\n' :: b) other →
    place.OpensNothing openers → m.tokenAt? place = none → m.tokenAt? other = none

/-- A text without a line end that begins what goes on behind a line end begins the line. -/
theorem isPrefix_of_append_line {word rest : List Char} (h : word <+: rest ++ '\n' :: b)
    (hword : '\n' ∉ word) : word <+: rest := by
  rcases List.prefix_or_prefix_of_prefix h (List.prefix_append rest _) with hbegins | ⟨more, rfl⟩
  · exact hbegins
  · cases more with
    | nil => simp
    | cons c more =>
      have hmore : c :: more <+: '\n' :: b := by simpa using h
      obtain rfl : c = '\n' := (List.cons_prefix_cons.1 hmore).1
      exact absurd (by simp) hword

/-- Where nothing is opened, a line end behind the text opens nothing either. -/
theorem Cursor.OpensNothing.lineEnd_mem (h : place.OpensNothing openers)
    (hplace : place.Alike 0 ('\n' :: b) other) {text : List Char} (hpasses : other.Passes text stop)
    {opener : String} (hopener : opener ∈ openers) (hbegins : opener.toList <+: text) :
    '\n' ∈ opener.toList := by
  by_cases hline : '\n' ∈ opener.toList
  · exact hline
  · have hrest : opener.toList <+: place.rest ++ '\n' :: b := by
      rw [← hplace.rest_eq, hpasses.rest_eq]
      exact hbegins.trans (List.prefix_append text _)
    exact absurd (isPrefix_of_append_line hrest hline) (h opener hopener)

namespace Matcher

variable {m : Matcher} {p : Pattern} {shape : List Char → List Char → Prop}

/-- A matcher that takes a line end for the end of the text opens nothing. -/
theorem keepsToLine_of_takesForEnd (hm : m.takesForEnd (some '\n') = true)
    (openers : List String) : m.KeepsToLine openers where
  token_kept := by
    intro place other stop b hplace htoken
    have hrel := tokenAt?_alike hplace hm
    rw [htoken] at hrel
    exact exists_of_rel_some hrel
  none_kept := by
    intro place other b hplace _ hnone
    have hrel := tokenAt?_alike hplace hm
    rw [hnone] at hrel
    exact eq_none_of_rel_none hrel

/-- The tokens of a shape in which a line end behind them has no part are kept. -/
theorem token_kept_of_shape (hp : p.HasShape shape)
    (hkept : ∀ {text behind b}, shape text behind → shape text (behind ++ '\n' :: b))
    (hplace : place.Alike 0 ('\n' :: b) other) (htoken : (ofPattern p).tokenAt? place = some stop) :
    ∃ stop', (ofPattern p).tokenAt? other = some stop' ∧ stop.Alike 0 ('\n' :: b) stop' := by
  obtain ⟨text, hpasses, hshape⟩ := (hp place stop).1 htoken
  obtain ⟨stop', hpasses', hstop⟩ := hplace.passes hpasses
  refine ⟨stop', (hp other stop').2 ⟨text, hpasses', ?_⟩, hstop⟩
  rw [hstop.rest_eq]
  exact hkept hshape

/-- A matcher all of whose tokens open something keeps to a line if what follows the line has no
part in their shape. -/
theorem keepsToLine_of_shape (hp : p.HasShape shape)
    (hkept : ∀ {text behind b}, shape text behind → shape text (behind ++ '\n' :: b))
    (hopens : ∀ {text behind}, shape text behind →
      ∃ opener ∈ openers, opener.toList <+: text ∧ '\n' ∉ opener.toList) :
    (ofPattern p).KeepsToLine openers where
  token_kept := token_kept_of_shape hp hkept
  none_kept := by
    intro place other b hplace hbare _
    cases htoken : (ofPattern p).tokenAt? other with
    | none => rfl
    | some stop' =>
      obtain ⟨text, hpasses, hshape⟩ := (hp other stop').1 htoken
      obtain ⟨opener, hmem, hbegins, hline⟩ := hopens hshape
      exact absurd (hbare.lineEnd_mem hplace hpasses hmem hbegins) hline

end Matcher

/-! ## Grammars and the end of a line -/

/-- What a grammar needs for lines to be read by themselves. -/
structure Grammar.Linewise (grammar : Grammar) (openers : List String) : Prop where
  /-- At most one category has a token at a place. -/
  excludes : grammar.categories.Pairwise Category.Excludes
  /-- The conditions are on ASCII words. -/
  sameEdges : ∀ category ∈ grammar.categories, category.matcher.takesForEnd none = true
  keepsToLine : ∀ category ∈ grammar.categories, category.matcher.KeepsToLine openers
  /-- No token begins at a line end, and none inside what opens something. -/
  plain : ∀ c ∈ '\n' :: openers.flatMap fun opener => opener.toList.tail,
    ∀ place : Cursor, place.peek? = some c → grammar.tokenAt? place = none

namespace Grammar.Linewise

variable {grammar : Grammar} (h : grammar.Linewise openers)
include h

theorem token_kept (hplace : place.Alike 0 ('\n' :: b) other)
    (htoken : grammar.tokenAt? place = some stop) :
    ∃ stop', grammar.tokenAt? other = some stop' ∧ stop.Alike 0 ('\n' :: b) stop' := by
  obtain ⟨category, hmem, htoken⟩ := exists_of_tokenAt? htoken
  obtain ⟨stop', htoken', hstop⟩ := (h.keepsToLine category hmem).token_kept hplace htoken
  exact ⟨stop', tokenAt?_eq_some_of_mem h.excludes hmem htoken', hstop⟩

theorem none_kept (hplace : place.Alike 0 ('\n' :: b) other) (hbare : place.OpensNothing openers)
    (hnone : grammar.tokenAt? place = none) : grammar.tokenAt? other = none := by
  rw [tokenAt?_eq_none_iff] at hnone ⊢
  intro category hmem
  exact (h.keepsToLine category hmem).none_kept hplace hbare (hnone category hmem)

/-- Where the text stands makes no difference for the tokens in it. -/
theorem tokenAt?_alike {shift : Nat} (hplace : place.Alike shift [] other) :
    Option.Rel (Cursor.Alike shift []) (grammar.tokenAt? place) (grammar.tokenAt? other) :=
  findSome?_rel fun category hmem => Matcher.tokenAt?_alike hplace (h.sameEdges category hmem)

end Grammar.Linewise

/-! ## Reading over the end of a line -/

namespace Reading

variable {grammar : Grammar} {classifier : Classifier} {bare : Cursor → Prop}
  {pieces pieces' : List Piece}

/-- What is read does not depend on where the text stands. -/
theorem shift {shift : Nat} (hgrammar : grammar.Linewise openers)
    (h : Reading grammar classifier bare place pieces) (hplace : place.Alike shift [] other) :
    Reading grammar classifier (fun _ => True) other pieces := by
  induction h generalizing other with
  | atEnd hrest =>
    refine .atEnd ?_
    rw [hplace.rest_eq, hrest, List.nil_append]
  | @plain place c rest pieces hrest hnone _ _ ih =>
    have hother : other.rest = c :: (rest ++ []) := by
      rw [hplace.rest_eq, hrest, List.cons_append]
    have hrel := hgrammar.tokenAt?_alike hplace
    rw [hnone] at hrel
    exact .plain hother (eq_none_of_rel_none hrel) trivial (ih (hplace.after c rest))
  | @token place stop text pieces htoken htext _ ih =>
    have hrel := hgrammar.tokenAt?_alike hplace
    rw [htoken] at hrel
    obtain ⟨stop', htoken', hstop⟩ := exists_of_rel_some hrel
    have htext' := hplace.passes_of_reaches htext (Grammar.tokenAt?_reaches htoken').1 hstop
    exact .token htoken' htext' (ih hstop)

/-- A text in whose gaps nothing is opened is read in front of a line end as it is by itself, and
what is behind the line end as well. -/
theorem append_line (hgrammar : grammar.Linewise openers)
    (h : Reading grammar classifier (Cursor.OpensNothing openers) place pieces)
    (hplace : place.Alike 0 ('\n' :: b) other)
    (hbehind : Reading grammar classifier bare (.start b) pieces') :
    Reading grammar classifier (fun _ => True) other (pieces ++ ⟨none, ['\n']⟩ :: pieces') := by
  induction h generalizing other with
  | atEnd hrest =>
    have hother : other.rest = '\n' :: b := by
      rw [hplace.rest_eq, hrest, List.nil_append]
    have hpeek : other.peek? = some '\n' := by rw [Cursor.peek?, hother]; rfl
    have hstart : (Cursor.start b).Alike (other.after '\n' b).offset [] (other.after '\n' b) :=
      ⟨(Nat.zero_add _).symm, (List.append_nil b).symm, rfl⟩
    exact .plain hother (hgrammar.plain '\n' (by simp) other hpeek) trivial
      (hbehind.shift hgrammar hstart)
  | @plain place c rest pieces hrest hnone hbare _ ih =>
    have hother : other.rest = c :: (rest ++ '\n' :: b) := by
      rw [hplace.rest_eq, hrest, List.cons_append]
    exact .plain hother (hgrammar.none_kept hplace hbare hnone) trivial (ih (hplace.after c rest))
  | @token place stop text pieces htoken htext _ ih =>
    obtain ⟨stop', htoken', hstop⟩ := hgrammar.token_kept hplace htoken
    have htext' := hplace.passes_of_reaches htext (Grammar.tokenAt?_reaches htoken').1 hstop
    exact .token htoken' htext' (ih hstop)

end Reading

namespace Language

open Pattern

/-- In a language with such a grammar lines are by themselves. -/
theorem separatesLines_of_linewise {language : Language}
    (h : language.grammar.Linewise openers) : language.SeparatesLines openers := by
  intro lead a b hgaps
  obtain ⟨before, hbefore⟩ : ∃ pieces, Reading language.grammar language.classifier
      (Cursor.OpensNothing openers) (.start a) pieces := by
    refine exists_reading fun first last hmem place hplace hfirst hlast opener hopener => ?_
    refine not_isPrefix_of_gap_mem_scan hmem (hgaps first last hmem opener hopener) ?_ hplace
      hfirst hlast
    intro c hc q hpeek
    have hmem : c ∈ openers.flatMap fun opener => opener.toList.tail :=
      List.mem_flatMap.2 ⟨opener, hopener, hc⟩
    exact h.plain c (List.mem_cons_of_mem _ hmem) q hpeek
  obtain ⟨behind, hbehind⟩ : ∃ pieces, Reading language.grammar language.classifier
      (fun _ => True) (.start b) pieces :=
    exists_reading (by simp)
  have hstart : (Cursor.start a).Alike 0 ('\n' :: b) (.start (a ++ '\n' :: b)) := ⟨rfl, rfl, rfl⟩
  have hboth := hbefore.append_line h hstart hbehind
  simp only [highlight]
  rw [highlight_eq_of_reading hboth, highlight_eq_of_reading hbefore,
    highlight_eq_of_reading hbehind, List.flatMap_append, List.flatMap_cons]
  rfl

/-- No token begins with a character with which none of the patterns begins. -/
theorem tokenAt?_of_heads {grammar : Grammar} {named : List (String × Pattern)}
    (hgrammar : grammar.categories = named.map fun pair => .ofPattern pair.1 pair.2) {c : Char}
    (hheads : ∀ pair ∈ named, pair.2.heads?.any (fun s => !s.mem c) = true)
    (hpeek : place.peek? = some c) : grammar.tokenAt? place = none := by
  rw [Grammar.tokenAt?_eq_none_iff, hgrammar]
  intro category hmem
  obtain ⟨pair, hpair, rfl⟩ := List.mem_map.1 hmem
  cases htoken : (Category.ofPattern pair.1 pair.2).matcher.tokenAt? place with
  | none => rfl
  | some stop =>
    obtain ⟨s, hs, hnot⟩ := (Option.any_eq_true _ _).1 (hheads pair hpair)
    obtain ⟨d, hd, hmem⟩ := (leads_of_tokenAt? htoken).peek?_of_heads? hs
    obtain rfl : c = d := Option.some.inj (hpeek.symm.trans hd)
    simp [hmem] at hnot

/-! ## The patterns of the built-in languages -/

/-- A string literal opens with its quote. -/
theorem keepsToLine_stringLiteral (hopeners : ["\"", "'"] ⊆ openers) :
    (Matcher.ofPattern stringLiteral).KeepsToLine openers := by
  refine Matcher.keepsToLine_of_shape stringLiteral_hasShape (fun h => h) ?_
  rintro _ _ ⟨quote, hquote, inner, -, rfl⟩
  simp only [stringQuotes, List.mem_cons, List.not_mem_nil, or_false] at hquote
  rcases hquote with rfl | rfl
  · exact ⟨"\"", hopeners (by simp), ⟨_, rfl⟩, by decide⟩
  · exact ⟨"'", hopeners (by simp), ⟨_, rfl⟩, by decide⟩

/-- A grammar is read line by line if it has string literals and one more pattern that opens
something, and no token begins with certain characters. -/
theorem linewise_of_named {grammar : Grammar} (named : List (String × Pattern))
    (hgrammar : grammar.categories = named.map fun pair => .ofPattern pair.1 pair.2)
    (hexcludes : grammar.categories.Pairwise Category.Excludes)
    (hopeners : ["\"", "'"] ⊆ openers) {p : Pattern}
    (hp : (Matcher.ofPattern p).KeepsToLine openers)
    (hkinds : ∀ pair ∈ named, pair.2 = stringLiteral ∨ pair.2 = p ∨
      (Matcher.ofPattern pair.2).takesForEnd (some '\n') = true)
    (hedges : ∀ pair ∈ named, (Matcher.ofPattern pair.2).takesForEnd none = true)
    (hheads : ('\n' :: openers.flatMap fun opener => opener.toList.tail).all (fun c =>
      named.all fun pair => pair.2.heads?.any fun s => !s.mem c) = true) :
    grammar.Linewise openers where
  excludes := hexcludes
  sameEdges := by
    rw [hgrammar]
    exact List.forall_mem_map.2 hedges
  keepsToLine := by
    rw [hgrammar]
    refine List.forall_mem_map.2 fun pair hmem => ?_
    rcases hkinds pair hmem with hstring | hpair | hline
    · rw [hstring]
      exact keepsToLine_stringLiteral hopeners
    · rw [hpair]
      exact hp
    · exact Matcher.keepsToLine_of_takesForEnd hline openers
  plain := by
    intro c hc place hpeek
    have hnamed := List.all_eq_true.1 (List.all_eq_true.1 hheads c hc)
    exact tokenAt?_of_heads hgrammar hnamed hpeek

theorem Php.keepsToLine_blockComment (hopeners : "/*" ∈ openers) :
    (Matcher.ofPattern Php.blockComment).KeepsToLine openers := by
  refine Matcher.keepsToLine_of_shape Php.blockComment_hasShape (fun h => h.append _) ?_
  rintro _ _ ⟨inner, rfl, -⟩
  exact ⟨"/*", hopeners, List.prefix_append _ _, by decide⟩

/-- An expansion in braces opens with them, and a name is over where the line is. -/
theorem Bash.keepsToLine_expansion (hopeners : "$\x7b" ∈ openers) :
    (Matcher.ofPattern Bash.expansion).KeepsToLine openers where
  token_kept := by
    refine Matcher.token_kept_of_shape Bash.expansion_hasShape ?_
    rintro text behind b (⟨hbraces, hne⟩ | hname)
    · exact .inl ⟨hbraces.append _, hne⟩
    · exact .inr (hname.append rfl)
  none_kept := by
    intro place other b hplace hbare hnone
    cases htoken : (Matcher.ofPattern Bash.expansion).tokenAt? other with
    | none => rfl
    | some stop' =>
      obtain ⟨text, hpasses, ⟨⟨inner, rfl, -⟩, -⟩ | hname⟩ :=
        (Bash.expansion_hasShape other stop').1 htoken
      · have hbegins := List.prefix_append "$\x7b".toList (inner ++ ['\x7d'])
        exact absurd (hbare.lineEnd_mem hplace hpasses hopeners hbegins) (by decide)
      · -- the same name stands in front of the line end
        have hdollar := (dollarName_hasShape other stop').2 ⟨text, hpasses, hname⟩
        have hkeeps : (Matcher.ofPattern dollarName).KeepsToLine openers :=
          Matcher.keepsToLine_of_takesForEnd (by decide +kernel) openers
        cases hfound : (Matcher.ofPattern dollarName).tokenAt? place with
        | none => simp [hkeeps.none_kept hplace hbare hfound] at hdollar
        | some stop =>
          obtain ⟨text, hpasses, hshape⟩ := (dollarName_hasShape place stop).1 hfound
          simp [(Bash.expansion_hasShape place stop).2 ⟨text, hpasses, .inr hshape⟩] at hnone

/-! ## The built-in languages -/

/-- **Lines affect each other only through what is open.**  Two texts with a line end between them
are highlighted like each of them alone, if no gap of the first one contains a quote, nor what opens
a comment of PHP with two ends, nor in Bash a dollar sign with a brace. -/
theorem builtin_separatesLines :
    php.SeparatesLines ["\"", "'", "/*"] ∧ bash.SeparatesLines ["\"", "'", "$\x7b"] := by
  constructor
  · refine separatesLines_of_linewise (linewise_of_named Php.named rfl Php.pairwise_excludes
      (by simp) (Php.keepsToLine_blockComment (by simp)) ?_ ?_ ?_)
    all_goals decide +kernel
  · refine separatesLines_of_linewise (linewise_of_named Bash.named rfl Bash.pairwise_excludes
      (by simp) (Bash.keepsToLine_expansion (by simp)) ?_ ?_ ?_)
    all_goals decide +kernel

/-- A quote in a comment that is closed opens nothing, and the second line may leave one open. -/
theorem builtin_separatesLines_comment :
    php.highlight "hl-".toList "/*'*/ x\n'".toList =
      php.highlight "hl-".toList "/*'*/ x".toList ++
        '\n' :: php.highlight "hl-".toList "'".toList := by
  have hscan : scan php.grammar php.classifier "/*'*/ x".toList =
      [.token 0 5 (some .comment), .gap 5 7] := by
    decide +kernel
  have hopens : ∀ opener ∈ ["\"", "'", "/*"],
      ¬ opener.toList <:+: slice "/*'*/ x".toList 5 7 := by
    decide +kernel
  refine builtin_separatesLines.1 _ "/*'*/ x".toList "'".toList fun first last hmem => ?_
  rw [hscan] at hmem
  obtain ⟨rfl, rfl⟩ : first = 5 ∧ last = 7 := by simpa using hmem
  exact hopens

/-- A quote that is left open reaches over the end of its line. -/
example : bash.highlight [] "'\n'".toList ≠
    bash.highlight [] ['\''] ++ '\n' :: bash.highlight [] ['\''] := by
  decide +kernel

end Language

end CodeMarkup
