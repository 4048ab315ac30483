import CodeMarkup.Proofs.Language.Comment
import CodeMarkup.Proofs.Language.Ties
import CodeMarkup.Proofs.Pattern.Quoted

/-!
# Words are never split

Where two segments meet, a run of ASCII word characters is cut in two cases only: the long opening
tag of PHP has no edge behind it, and a low line ends the name of a long option.  Every other token
begins and ends where no word goes on, be it by an edge, by its last character or because it runs as
far as it can; and since one of two neighbours is a token, gaps cut no word either.

* `Cursor.InWord` — a place inside a run of ASCII word characters.
* `Pattern.StartsWhole` and `Pattern.EndsWhole` — the tokens of a pattern do not begin, or do not
  end, at such a place.
* `Language.KeepsWords` — no two neighbours of a scan meet at such a place.
* `Language.builtin_keepsWords` — the main result.
-/

namespace CodeMarkup

variable {place stop : Cursor} {text behind : List Char}

/-- A place inside a run of ASCII word characters. -/
def Cursor.InWord (place : Cursor) : Prop :=
  place.prev?.any isAsciiWord = true ∧ place.peek?.any isAsciiWord = true

/-- Behind a character that is no word character no word goes on. -/
theorem Cursor.Passes.not_inWord (h : place.Passes text stop) {c : Char}
    (hlast : text.getLast? = some c) (hc : isAsciiWord c = false) : ¬ stop.InWord := by
  rintro ⟨hprev, -⟩
  rw [h.prev_eq, hlast] at hprev
  simp [hc] at hprev

/-! ## Where tokens begin and end -/

namespace Pattern

/-- No token of a pattern begins inside a word. -/
def StartsWhole (p : Pattern) : Prop :=
  ∀ ⦃place stop⦄, p.Leads place stop → ¬ place.InWord

/-- No token of a pattern ends inside a word. -/
def EndsWhole (p : Pattern) : Prop :=
  ∀ ⦃place stop⦄, (Matcher.ofPattern p).tokenAt? place = some stop → ¬ stop.InWord

theorem not_inWord_of_asciiEdge (h : asciiEdge.Leads place stop) :
    place = stop ∧ ¬ stop.InWord := by
  obtain ⟨rfl, hne⟩ := leads_asciiEdge_iff.1 h
  refine ⟨rfl, ?_⟩
  rintro ⟨hprev, hpeek⟩
  exact hne (hprev.trans hpeek.symm)

/-- What begins with a character that is no word character begins whole. -/
theorem startsWhole_of_heads {p : Pattern} {s : CharSet} {chars : List Char}
    (hs : p.heads? = some s) (hchars : s.chars? = some chars)
    (h : chars.all (!isAsciiWord ·) = true) : p.StartsWhole := by
  rintro place stop hleads ⟨-, hpeek⟩
  obtain ⟨c, hc, hmem⟩ := hleads.peek?_of_heads? hs
  have hnot : isAsciiWord c = false := by
    simpa using List.all_eq_true.1 h c (CharSet.mem_of_chars? hchars hmem)
  simp [hc, hnot] at hpeek

/-- What begins at an edge begins whole. -/
theorem startsWhole_of_edge (parts : List Pattern) :
    (sequence (asciiEdge :: parts)).StartsWhole := by
  intro place stop hleads
  obtain ⟨middle, hedge, -⟩ := (leads_sequence _).1 hleads
  obtain ⟨rfl, hnot⟩ := not_inWord_of_asciiEdge hedge
  exact hnot

/-- The last part of a sequence leads to where the sequence does. -/
theorem Leads.last {parts : List Pattern} {p : Pattern} (h : (sequence parts).Leads place stop)
    (hlast : parts.getLast? = some p) : ∃ middle, p.Leads middle stop := by
  obtain ⟨before, rfl⟩ := List.getLast?_eq_some_iff.1 hlast
  obtain ⟨middle, -, hleads⟩ := leadsAll_append.1 ((leads_sequence _).1 h)
  exact ⟨middle, leadsAll_singleton.1 hleads⟩

/-- What ends at an edge ends whole. -/
theorem endsWhole_of_edge {parts : List Pattern} (hlast : parts.getLast? = some asciiEdge) :
    (sequence parts).EndsWhole := by
  intro place stop htoken
  obtain ⟨middle, hedge⟩ := (leads_of_tokenAt? htoken).last hlast
  exact (not_inWord_of_asciiEdge hedge).2

/-- What spells only texts that end with no word character ends whole. -/
theorem endsWhole_of_spells {p : Pattern}
    (h : ∀ text, p.Spells text → ∃ c, text.getLast? = some c ∧ isAsciiWord c = false) :
    p.EndsWhole := by
  intro place stop htoken
  have hleads := leads_of_tokenAt? htoken
  obtain ⟨text, htext⟩ := hleads.reaches
  obtain ⟨c, hlast, hc⟩ := h text (hleads.spells htext)
  exact htext.not_inWord hlast hc

/-- What runs as far as no word goes on ends whole. -/
theorem HasShape.endsWhole {p : Pattern} {shape : List Char → List Char → Prop}
    (hp : p.HasShape shape)
    (h : ∀ text behind, shape text behind → behind.head?.any isAsciiWord = false ∨
      ∃ c, text.getLast? = some c ∧ isAsciiWord c = false) : p.EndsWhole := by
  intro place stop htoken
  obtain ⟨text, htext, hshape⟩ := (hp place stop).1 htoken
  rcases h text stop.rest hshape with hbehind | ⟨c, hlast, hc⟩
  · rintro ⟨-, hpeek⟩
    simp [Cursor.peek?, hbehind] at hpeek
  · exact htext.not_inWord hlast hc

end Pattern

/-! ## Tokens that both languages have -/

theorem LineComment.ends_whole {openers : List String} (h : LineComment openers text behind) :
    behind.head?.any isAsciiWord = false := by
  rcases h.ends with rfl | ⟨rest, rfl⟩
  · rfl
  · rfl

theorem Enclosed.ends_whole {opener close : List Char} (h : Enclosed opener close text behind)
    {c : Char} (hlast : close.getLast? = some c) : text.getLast? = some c := by
  obtain ⟨inner, rfl, -⟩ := h
  simp [List.getLast?_append, hlast]

theorem Pattern.endsWhole_hashComment : hashComment.EndsWhole := by
  refine hashComment_hasShape.endsWhole fun text behind h => .inl ?_
  exact (h.lineComment "#" (List.mem_singleton_self _) (by decide)).ends_whole

theorem Pattern.endsWhole_dollarName : dollarName.EndsWhole :=
  dollarName_hasShape.endsWhole fun _ _ h => .inl h.variable.ends

theorem Pattern.endsWhole_stringLiteral : stringLiteral.EndsWhole := by
  have hquotes : stringQuotes.all (!isAsciiWord ·) = true := by decide
  refine stringLiteral_hasShape.endsWhole ?_
  rintro text behind ⟨quote, hquote, inner, -, rfl⟩
  have hnot : isAsciiWord quote = false := by simpa using List.all_eq_true.1 hquotes quote hquote
  exact .inr ⟨quote, by simp [List.getLast?_cons], hnot⟩

namespace Language

open Pattern

/-! ## Languages -/

/-- Where two segments meet, a run of ASCII word characters is cut only in excepted cases: by the
class and the text of the left segment and by the first character of the right one. -/
def KeepsWords (language : Language)
    (excepted : Option TokenClass → List Char → Option Char → Prop) : Prop :=
  ∀ source, (scan language.grammar language.classifier source).IsChain fun left right =>
    (left.text source).getLast?.any isAsciiWord = true →
      (right.text source).head?.any isAsciiWord = true →
        excepted left.class? (left.text source) (right.text source).head?

/-- A language keeps words if its tokens begin whole and end whole but for the excepted cases. -/
theorem keepsWords_of_named {language : Language} {named : List (String × Pattern)}
    {excepted : Option TokenClass → List Char → Option Char → Prop}
    (hnamed : language.grammar.categories = named.map fun pair => .ofPattern pair.1 pair.2)
    (hstarts : ∀ pair ∈ named, pair.2.StartsWhole)
    (hends : ∀ pair ∈ named, ∀ place stop text,
      (Matcher.ofPattern pair.2).tokenAt? place = some stop → place.Passes text stop →
        stop.InWord → excepted (language.classifier.classify text) text stop.peek?) :
    language.KeepsWords excepted := by
  have hpattern : ∀ {place stop}, language.grammar.tokenAt? place = some stop →
      ∃ pair ∈ named, (Matcher.ofPattern pair.2).tokenAt? place = some stop := by
    intro place stop htoken
    obtain ⟨category, hmem, htoken⟩ := Grammar.exists_of_tokenAt? htoken
    rw [hnamed] at hmem
    obtain ⟨pair, hpair, rfl⟩ := List.mem_map.1 hmem
    exact ⟨pair, hpair, htoken⟩
  intro source
  have hcovers := covers_scan language.grammar language.classifier source
  refine hcovers.isChain fun left hleft right hright hmeet hgaps hbefore hbehind => ?_
  -- the two segments meet at one place, which is inside a word
  obtain ⟨q, hq, hoffset, hprev, hpeek⟩ := hcovers.exists_between hleft hright hmeet
  have hword : q.InWord := ⟨hprev ▸ hbefore, hpeek ▸ hbehind⟩
  cases left with
  | gap first last =>
    cases right with
    | gap start end' => exact absurd ⟨rfl, rfl⟩ hgaps
    | token start end' class? =>
      obtain ⟨place, stop, -, hplace, hstart, -, -, -, htoken, -⟩ := token_of_mem_scan hright
      obtain rfl : place = q := hplace.eq_of_offset hq (hstart.trans hoffset.symm)
      obtain ⟨pair, hpair, htoken⟩ := hpattern htoken
      exact absurd hword (hstarts pair hpair (leads_of_tokenAt? htoken))
  | token first last class? =>
    obtain ⟨place, stop, text, hplace, -, hlast, hpasses, hslice, htoken, rfl⟩ :=
      token_of_mem_scan hleft
    have hstop : stop.offset = q.offset := (hlast.trans hmeet).trans hoffset.symm
    obtain rfl : stop = q := (hplace.trans ⟨text, hpasses⟩).eq_of_offset hq hstop
    obtain ⟨pair, hpair, htoken⟩ := hpattern htoken
    have hexcepted := hends pair hpair place stop text htoken hpasses hword
    rw [hpeek] at hexcepted
    rw [Segment.text, Segment.start, Segment.stop, hslice]
    exact hexcepted

/-! ## PHP -/

namespace Php

theorem startsWhole_named : ∀ pair ∈ named, pair.2.StartsWhole := by
  intro pair hmem
  simp only [named, List.mem_cons, List.not_mem_nil, or_false] at hmem
  rcases hmem with rfl | rfl | rfl | rfl | rfl | rfl | rfl | rfl
  all_goals first
    | exact startsWhole_of_heads rfl rfl (by decide)
    | exact startsWhole_of_edge _

/-- Of the three tags only the long opening one ends with a word character. -/
theorem spells_tag (h : tag.Spells text) :
    text = "<?php".toList ∨ text = "<?".toList ∨ text = "?>".toList := by
  obtain ⟨part, hpart, hspells⟩ := h.choice (by decide)
  simp only [List.mem_cons, List.not_mem_nil, or_false] at hpart
  rcases hpart with rfl | rfl
  · obtain ⟨head, more, rfl, hhead, hmore⟩ := hspells.sequence_cons
    obtain ⟨name, rest, rfl, hname, hrest⟩ := hmore.sequence_cons
    rw [hhead.literal, hrest.sequence_nil]
    rcases hname.optional rfl with rfl | hname
    · exact .inr (.inl rfl)
    · rw [hname.literal]
      exact .inl rfl
  · exact .inr (.inr hspells.literal)

theorem endsWhole_blockComment : blockComment.EndsWhole :=
  blockComment_hasShape.endsWhole fun _ _ h => .inr ⟨'/', h.ends_whole rfl, by decide⟩

theorem endsWhole_lineComment : lineComment.EndsWhole := by
  refine lineComment_hasShape.endsWhole fun text behind h => .inl ?_
  rcases h with h | h
  · exact (h.lineComment "//" (List.mem_singleton_self _) (by decide)).ends_whole
  · exact (h.lineComment "#" (List.mem_singleton_self _) (by decide)).ends_whole

theorem endsWhole_operator : (anyOf (operators.map String.toList)).EndsWhole := by
  refine endsWhole_of_spells fun text hspells => ?_
  obtain ⟨word, hword, rfl⟩ := hspells.mem_words (by decide)
  have hwords : ∀ word ∈ operators, ∃ c, word.toList.getLast? = some c ∧ isAsciiWord c = false := by
    intro word hword
    simp only [operators, List.mem_cons, List.not_mem_nil, or_false] at hword
    rcases hword with rfl | rfl | rfl
    all_goals exact ⟨_, rfl, by decide⟩
  exact hwords word hword

/-- A token of PHP that ends inside a word is the long opening tag. -/
theorem eq_of_inWord {pair : String × Pattern} (hmem : pair ∈ named)
    (htoken : (Matcher.ofPattern pair.2).tokenAt? place = some stop)
    (htext : place.Passes text stop) (hword : stop.InWord) : text = "<?php".toList := by
  simp only [named, List.mem_cons, List.not_mem_nil, or_false] at hmem
  rcases hmem with rfl | rfl | rfl | rfl | rfl | rfl | rfl | rfl
  · rcases spells_tag ((leads_of_tokenAt? htoken).spells htext) with rfl | rfl | rfl
    · rfl
    · exact absurd hword (htext.not_inWord rfl (by decide))
    · exact absurd hword (htext.not_inWord rfl (by decide))
  · exact absurd hword (endsWhole_blockComment htoken)
  · exact absurd hword (endsWhole_lineComment htoken)
  · exact absurd hword (endsWhole_stringLiteral htoken)
  · exact absurd hword (endsWhole_dollarName htoken)
  · exact absurd hword (endsWhole_of_edge rfl htoken)
  · exact absurd hword (endsWhole_operator htoken)
  · exact absurd hword (endsWhole_of_edge rfl htoken)

end Php

/-! ## Bash -/

namespace Bash

theorem startsWhole_named : ∀ pair ∈ named, pair.2.StartsWhole := by
  intro pair hmem
  simp only [named, List.mem_cons, List.not_mem_nil, or_false] at hmem
  rcases hmem with rfl | rfl | rfl | rfl | rfl | rfl
  all_goals first
    | exact startsWhole_of_heads rfl rfl (by decide)
    | exact startsWhole_of_edge _

theorem endsWhole_expansion : expansion.EndsWhole := by
  refine expansion_hasShape.endsWhole fun text behind h => ?_
  rcases h with ⟨hbraces, -⟩ | hname
  · exact .inr ⟨'\x7d', hbraces.ends_whole rfl, by decide⟩
  · exact .inl hname.variable.ends

/-- The characters of the name of a long option. -/
def optionSet : CharSet := .ofRanges [('A', 'Z'), ('a', 'z'), ('0', '9'), ('-', '-')]

theorem option_hasShape : option.HasShape (NameAfter "--".toList optionSet optionSet) :=
  hasShape_of_endsBy (Matcher.endsBy_nameAfter "--".toList optionSet optionSet)
    (fun hpasses h => h.leads_many1 hpasses) (fun heq h h' => h.unique heq h') fun h => h.ne_nil

/-- The only ASCII word character that is not in the name of a long option is the low line. -/
theorem eq_low_line {c : Char} (hword : isAsciiWord c = true) (hnot : optionSet.mem c = false) :
    c = '_' := by
  rw [← mem_nameSet] at hword
  simp only [nameSet, optionSet, CharSet.ofRanges, CharSet.unions, CharSet.mem, List.map_cons,
    List.map_nil, Bool.or_eq_true, Bool.or_eq_false_iff] at hword hnot
  obtain ⟨hupper, hlower, hdigit, -⟩ := hnot
  simp only [hupper, hlower, hdigit, Bool.false_eq_true, false_or] at hword
  exact (CharSet.mem_single_iff.1 hword)

/-- A long option that ends inside a word ends before a low line. -/
theorem peek?_of_option (htoken : (Matcher.ofPattern option).tokenAt? place = some stop)
    (htext : place.Passes text stop) (hword : stop.InWord) :
    "--".toList <+: text ∧ stop.peek? = some '_' := by
  obtain ⟨text', htext', c, hc, run, rfl, hrun⟩ := (option_hasShape place stop).1 htoken
  obtain rfl := htext.unique htext'
  refine ⟨⟨[c] ++ run, by simp⟩, ?_⟩
  obtain ⟨-, hpeek⟩ := hword
  cases hnext : stop.peek? with
  | none => simp [hnext] at hpeek
  | some d =>
    have hends := hrun.ends
    rw [← Cursor.peek?, hnext] at hends
    rw [hnext] at hpeek
    rw [eq_low_line hpeek hends]

/-- A token of Bash that ends inside a word is a long option before a low line. -/
theorem option_of_inWord {pair : String × Pattern} (hmem : pair ∈ named)
    (htoken : (Matcher.ofPattern pair.2).tokenAt? place = some stop)
    (htext : place.Passes text stop) (hword : stop.InWord) :
    "--".toList <+: text ∧ stop.peek? = some '_' := by
  simp only [named, List.mem_cons, List.not_mem_nil, or_false] at hmem
  rcases hmem with rfl | rfl | rfl | rfl | rfl | rfl
  · exact absurd hword (endsWhole_hashComment htoken)
  · exact absurd hword (endsWhole_stringLiteral htoken)
  · exact absurd hword (endsWhole_expansion htoken)
  · exact peek?_of_option htoken htext hword
  · exact absurd hword (endsWhole_of_edge rfl htoken)
  · exact absurd hword (endsWhole_of_edge rfl htoken)

end Bash

/-! ## The built-in languages -/

/-- **Words are never split.**  Under the built-in languages no two neighbouring segments meet
between two ASCII word characters, unless the left one is the long opening tag of PHP, or a long
option of Bash before a low line. -/
theorem builtin_keepsWords :
    (php.KeepsWords fun class? text _ => class? = some .tag ∧ text = "<?php".toList) ∧
      bash.KeepsWords fun class? _ next? => class? = some .flag ∧ next? = some '_' := by
  constructor
  · refine keepsWords_of_named rfl Php.startsWhole_named ?_
    intro pair hmem place stop text htoken htext hword
    obtain rfl := Php.eq_of_inWord hmem htoken htext hword
    exact ⟨rfl, rfl⟩
  · refine keepsWords_of_named rfl Bash.startsWhole_named ?_
    intro pair hmem place stop text htoken htext hword
    obtain ⟨⟨name, rfl⟩, hnext⟩ := Bash.option_of_inWord hmem htoken htext hword
    exact ⟨rfl, hnext⟩

/-- The long tag cuts a word, and so does a low line behind an option, but not behind a variable. -/
example : scan php.grammar php.classifier "<?phpx $a_b".toList =
      [.token 0 5 (some .tag), .gap 5 7, .token 7 11 (some .var)] ∧
    scan bash.grammar bash.classifier "--a_b".toList =
      [.token 0 3 (some .flag), .gap 3 5] := by decide +kernel

end Language

end CodeMarkup
