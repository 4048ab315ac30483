import Mathlib.Data.List.Nodup
import CodeMarkup.Proofs.Language.Recovery
import CodeMarkup.Proofs.Pattern.Extent
import CodeMarkup.Proofs.Pattern.Heads
import CodeMarkup.Proofs.Pattern.Word

/-!
# Reserved words

The reserved words and the commands of the built-in languages are highlighted where they stand alone
and no token that started before covers them, and nowhere else.  Many of them begin with others; the
edge behind the word decides.  Nothing else in the two languages begins where such a word can stand.

* `Language.HighlightsAlone` — the words of a list are highlighted exactly where they stand alone.
* `Matcher.tokenAt?_wholeWord_eq_some_iff` — the token of a choice of words is the one that stands
  alone.
* `Category.Spares` — a category has no token where a word of a list stands alone.
* `Language.Reserves.highlightsAlone` — what a language needs for its words.
-/

namespace CodeMarkup

/-- The words of a list are highlighted in a class exactly where they stand alone and no token that
started before covers them, and every token of the class is one of them. -/
def Language.HighlightsAlone (language : Language) (words : List String) (c : TokenClass) : Prop :=
  (∀ (source : List Char) (offset : Nat), ∀ word ∈ words,
    Segment.token offset (offset + utf8Length word.toList) (some c) ∈
          scan language.grammar language.classifier source ∧
        slice source offset (offset + utf8Length word.toList) = word.toList ↔
      StandsAlone source word.toList offset ∧
        ∀ first last class?, Segment.token first last class? ∈
          scan language.grammar language.classifier source → ¬ (first < offset ∧ offset < last)) ∧
  ∀ (source : List Char) (first last : Nat),
    Segment.token first last (some c) ∈ scan language.grammar language.classifier source →
      ∃ word ∈ words, slice source first last = word.toList

/-! ## Tokens of a choice of words -/

theorem IsWordList.ne_nil {words : List String} (h : IsWordList words) {word : String}
    (hword : word ∈ words) : word.toList ≠ [] := by
  intro hnil
  have hhead := h.heads word hword
  simp [hnil] at hhead

/-- **The token of a choice of words is the word that stands alone.** -/
theorem Matcher.tokenAt?_wholeWord_eq_some_iff {words : List String} (hlist : IsWordList words)
    (happart : ToldApart words) {place stop : Cursor} :
    (Matcher.ofPattern (.wholeWord words)).tokenAt? place = some stop ↔
      ∃ word ∈ words, place.Alone word.toList stop := by
  refine Pattern.tokenAt?_eq_some_iff_of_leads (Pattern.leads_wholeWord_iff hlist) ?_ ?_
  · rintro place stop beyond ⟨word, hword, halone⟩ ⟨word', hword', halone'⟩
    -- two words that stand alone at one place are the same word
    obtain rfl : word = word' := halone.word_unique happart hword hword' halone'
    exact halone.passes.stop_unique halone'.passes
  · rintro place stop ⟨word, hword, halone⟩
    exact halone.passes.offset_lt (hlist.ne_nil hword)

/-! ## Categories beside the words -/

/-- A category has no token where a word of a list stands alone. -/
def Category.Spares (category : Category) (words : List String) : Prop :=
  ∀ place further, ∀ word ∈ words, place.Alone word.toList further →
    category.matcher.tokenAt? place = none

/-- What begins with other characters spares the words. -/
theorem Category.spares_of_heads {name : String} {p : Pattern} {s : CharSet} {words : List String}
    (hs : p.heads? = some s)
    (hwords : ∀ word ∈ words, word.toList.head?.any (fun c => !s.mem c) = true) :
    (Category.ofPattern name p).Spares words := by
  intro place further word hword halone
  refine Matcher.tokenAt?_eq_none (Pattern.matchAt?_eq_none_iff.2 fun stop hleads => ?_)
  obtain ⟨c, hpeek, hmem⟩ := hleads.peek?_of_heads? hs
  have hhead := hwords word hword
  cases htext : word.toList with
  | nil => simp [htext] at hhead
  | cons d text =>
    rw [Cursor.peek?, halone.passes.rest_eq, htext] at hpeek
    obtain rfl : d = c := by simpa using hpeek
    simp [htext, hmem] at hhead

/-- Different words that are told apart never stand alone at one place. -/
theorem Pattern.excludes_words {words others : List String} (hwords : IsWordList words)
    (hothers : IsWordList others) (happart : ToldApart (words ++ others))
    (hdisjoint : ∀ word ∈ others, word ∉ words) :
    (wholeWord words).Excludes (wholeWord others) := by
  intro place further beyond hleads hleads'
  obtain ⟨word, hword, halone⟩ := (leads_wholeWord_iff hwords).1 hleads
  obtain ⟨other, hother, halone'⟩ := (leads_wholeWord_iff hothers).1 hleads'
  have heq : word = other :=
    halone.word_unique happart (List.mem_append_left _ hword) (List.mem_append_right _ hother)
      halone'
  exact hdisjoint other hother (heq ▸ hword)

/-- Words that never stand alone where others do spare them. -/
theorem Category.spares_of_excludes {name : String} {p : Pattern} {words : List String}
    (hlist : IsWordList words) (h : p.Excludes (.wholeWord words)) :
    (Category.ofPattern name p).Spares words := by
  intro place further word hword halone
  refine Matcher.tokenAt?_eq_none (Pattern.matchAt?_eq_none_iff.2 fun stop hleads => ?_)
  exact h hleads ((Pattern.leads_wholeWord_iff hlist).2 ⟨word, hword, halone⟩)

/-! ## Languages with words -/

/-- A language reserves the words of a list for a class: it has a category for them, no category
before that one has a token where a word of the list stands alone, and the class is that of the
words and of nothing else. -/
structure Language.Reserves (language : Language) (words : List String) (c : TokenClass) :
    Prop where
  list : IsWordList words
  apart : ToldApart words
  /-- The category of the words comes after categories that spare them. -/
  category : ∃ before name after,
    language.grammar.categories = before ++ .ofPattern name (.wholeWord words) :: after ∧
      (∀ earlier ∈ before, earlier.Spares words) ∧
      ∀ source first last,
        Segment.token first last (some c) ∈ scan language.grammar language.classifier source →
          language.grammar.Makes source first last (.ofPattern name (.wholeWord words))
  /-- The words have the class. -/
  classify : ∀ word ∈ words, language.classifier.classify word.toList = some c

namespace Language.Reserves

variable {language : Language} {words : List String} {c : TokenClass} {source : List Char}

/-- A token of the class is a word that stands alone. -/
theorem alone_of_mem (h : language.Reserves words c) {first last : Nat}
    (hmem : Segment.token first last (some c) ∈
      scan language.grammar language.classifier source) :
    ∃ word ∈ words, slice source first last = word.toList ∧
      StandsAlone source word.toList first := by
  obtain ⟨before, name, after, -, -, hmakes⟩ := h.category
  obtain ⟨i, -, htoken, -⟩ := hmakes source first last hmem
  obtain ⟨hfirst, -⟩ := (covers_scan language.grammar language.classifier source).boundaries _ hmem
  obtain ⟨place, hplace, rfl⟩ := Cursor.isBoundary_iff.1 hfirst
  obtain ⟨stop, hstop, rfl⟩ := (Category.hasToken_iff hplace).1 htoken
  obtain ⟨word, hword, halone⟩ :=
    (Matcher.tokenAt?_wholeWord_eq_some_iff h.list h.apart).1 hstop
  exact ⟨word, hword, slice_of_passes hplace halone.passes,
    standsAlone_iff.2 ⟨place, stop, hplace, rfl, halone⟩⟩

/-- A word that stands alone is the token of the language there, unless it is covered. -/
theorem mem_of_alone (h : language.Reserves words c) {word : String} (hword : word ∈ words)
    {offset : Nat} (hstands : StandsAlone source word.toList offset)
    (hfree : ∀ first last class?, Segment.token first last class? ∈
      scan language.grammar language.classifier source → ¬ (first < offset ∧ offset < last)) :
    Segment.token offset (offset + utf8Length word.toList) (some c) ∈
        scan language.grammar language.classifier source ∧
      slice source offset (offset + utf8Length word.toList) = word.toList := by
  obtain ⟨before, name, after, hcategories, hspares, -⟩ := h.category
  obtain ⟨place, further, hplace, rfl, halone⟩ := standsAlone_iff.1 hstands
  have hslice := slice_of_passes hplace halone.passes
  let category : Category := .ofPattern name (.wholeWord words)
  have hindex : language.grammar.categories[before.length]? = some category := by
    rw [hcategories]
    simp [category]
  have hfurther : category.matcher.tokenAt? place = some further :=
    (Matcher.tokenAt?_wholeWord_eq_some_iff h.list h.apart).2 ⟨word, hword, halone⟩
  have htoken : category.HasToken source place.offset further.offset :=
    (Category.hasToken_iff hplace).2 ⟨further, hfurther, rfl⟩
  have hearlier : ∀ (j : Nat) (earlier : Category), j < before.length →
      language.grammar.categories[j]? = some earlier →
        ∀ stop, ¬ earlier.HasToken source place.offset stop := by
    intro j earlier hj hindex stop hother
    rw [hcategories, List.getElem?_append_left hj] at hindex
    obtain ⟨found, hfound, -⟩ := (Category.hasToken_iff hplace).1 hother
    simp [hspares earlier (List.mem_of_getElem? hindex) place further word hword halone] at hfound
  have hmeets : (Segment.token place.offset further.offset (some c)).Meets language.grammar
      language.classifier source :=
    ⟨⟨before.length, category, hindex, htoken, hearlier⟩, by rw [hslice, h.classify word hword]⟩
  have hmem := mem_scan_of_meets hmeets hplace.isBoundary hfree
  rw [halone.passes.offset_eq] at hmem hslice
  exact ⟨hmem, hslice⟩

/-- The words that a language reserves are highlighted exactly where they stand alone. -/
theorem highlightsAlone (h : language.Reserves words c) : language.HighlightsAlone words c := by
  refine ⟨fun source offset word hword => ⟨?_, ?_⟩, fun source first last hmem => ?_⟩
  · rintro ⟨hmem, htext⟩
    obtain ⟨word', hword', htext', halone⟩ := h.alone_of_mem hmem
    obtain rfl : word = word' := String.toList_inj.1 (htext.symm.trans htext')
    refine ⟨halone, fun first last class? hother hbetween => ?_⟩
    have hcontiguous := (covers_scan language.grammar language.classifier source).contiguous
    have hlt := hcontiguous.lt_of_mem _ hmem
    rcases hcontiguous.eq_or_apart hmem hother with heq | happart
    · obtain ⟨rfl, -⟩ := Segment.token.inj heq
      exact Nat.lt_irrefl _ hbetween.1
    · simp only [Segment.start, Segment.stop] at happart hlt
      omega
  · rintro ⟨halone, hfree⟩
    exact h.mem_of_alone hword halone hfree
  · obtain ⟨word, hword, htext, -⟩ := h.alone_of_mem hmem
    exact ⟨word, hword, htext⟩

end Language.Reserves

namespace Language

open Pattern

/-! ## The words of the built-in languages -/

/-- A class that one category alone has is made by this category. -/
theorem Recovers.makes {language : Language} {classes : List (String × TokenClass)}
    {leftover : String} (h : language.Recovers classes leftover) {c : TokenClass}
    {category : Category} (hclass : ∀ pair ∈ classes, pair.2 = c → pair.1 = category.name)
    (hnames : (language.grammar.categories.map Category.name).Nodup)
    (hcategory : category ∈ language.grammar.categories)
    {source : List Char} {first last : Nat}
    (hmem : Segment.token first last (some c) ∈
      scan language.grammar language.classifier source) :
    language.grammar.Makes source first last category := by
  obtain ⟨made, c', hmakes, hpair, hc, -⟩ := h source first last (some c) hmem
  obtain ⟨i, hi, -⟩ := id hmakes
  have hname := hclass _ hpair (Option.some.inj hc).symm
  have hmade := List.inj_on_of_nodup_map hnames (List.mem_of_getElem? hi) hcategory hname
  exact hmade ▸ hmakes

namespace Php

theorem isWordList_keywords : IsWordList keywords :=
  ⟨by decide, by decide +kernel, by decide +kernel⟩

theorem toldApart_keywords : ToldApart keywords := by decide +kernel

/-- What comes before the reserved words of PHP begins with other characters. -/
theorem spares_keywords : ∀ category ∈ php.grammar.categories.take 5, category.Spares keywords := by
  intro category hmem
  simp only [php, grammar, List.take, List.mem_cons, List.not_mem_nil, or_false] at hmem
  rcases hmem with rfl | rfl | rfl | rfl | rfl
  all_goals exact Category.spares_of_heads rfl (by decide)

theorem reserves_keywords : php.Reserves keywords .keyword where
  list := isWordList_keywords
  apart := toldApart_keywords
  category := ⟨php.grammar.categories.take 5, "keyword", php.grammar.categories.drop 6, rfl,
    spares_keywords, fun _ _ _ hmem =>
      (recovers_of_sorts php_sorts).makes (by decide) (by decide)
        (List.mem_of_getElem? (i := 5) rfl) hmem⟩
  classify := by decide

end Php

namespace Bash

theorem isWordList_keywords : IsWordList keywords := ⟨by decide, by decide, by decide⟩

theorem isWordList_commands : IsWordList commands := ⟨by decide, by decide, by decide⟩

/-- No reserved word of Bash and no command is told from another one by its beginning alone. -/
theorem toldApart_words : ToldApart (keywords ++ commands) := by decide +kernel

theorem toldApart_keywords : ToldApart keywords := by decide +kernel

theorem toldApart_commands : ToldApart commands := by decide +kernel

/-- What comes before the reserved words of Bash begins with other characters. -/
theorem spares_keywords :
    ∀ category ∈ bash.grammar.categories.take 4, category.Spares keywords := by
  intro category hmem
  simp only [bash, grammar, List.take, List.mem_cons, List.not_mem_nil, or_false] at hmem
  rcases hmem with rfl | rfl | rfl | rfl
  all_goals exact Category.spares_of_heads rfl (by decide)

theorem reserves_keywords : bash.Reserves keywords .keyword where
  list := isWordList_keywords
  apart := toldApart_keywords
  category := ⟨bash.grammar.categories.take 4, "keyword", bash.grammar.categories.drop 5, rfl,
    spares_keywords, fun _ _ _ hmem =>
      (recovers_of_sorts bash_sorts).makes (by decide) (by decide)
        (List.mem_of_getElem? (i := 4) rfl) hmem⟩
  classify := by decide

theorem excludes_commands : (wholeWord keywords).Excludes (wholeWord commands) :=
  excludes_words isWordList_keywords isWordList_commands toldApart_words (by decide)

/-- What comes before the commands begins with other characters or is a reserved word. -/
theorem spares_commands :
    ∀ category ∈ bash.grammar.categories.take 5, category.Spares commands := by
  intro category hmem
  simp only [bash, grammar, List.take, List.mem_cons, List.not_mem_nil, or_false] at hmem
  rcases hmem with rfl | rfl | rfl | rfl | rfl
  case inr.inr.inr.inr =>
    exact Category.spares_of_excludes isWordList_commands excludes_commands
  all_goals exact Category.spares_of_heads rfl (by decide)

theorem reserves_commands : bash.Reserves commands .func where
  list := isWordList_commands
  apart := toldApart_commands
  category := ⟨bash.grammar.categories.take 5, "command", bash.grammar.categories.drop 6, rfl,
    spares_commands, fun _ _ _ hmem =>
      (recovers_of_sorts bash_sorts).makes (by decide) (by decide)
        (List.mem_of_getElem? (i := 5) rfl) hmem⟩
  classify := by decide

end Bash

/-- **Reserved words are highlighted exactly where they stand alone.**  Under the built-in languages
a reserved word or a command is a token of its class if and only if it is written in the source with
no ASCII word character joined to it and no token that started before covers it.  There is no other
token of these classes, and PHP has no commands. -/
theorem builtin_words_alone :
    php.HighlightsAlone Php.keywords .keyword ∧
      (∀ source first last,
        Segment.token first last (some .func) ∉ scan php.grammar php.classifier source) ∧
      bash.HighlightsAlone Bash.keywords .keyword ∧ bash.HighlightsAlone Bash.commands .func := by
  refine ⟨Php.reserves_keywords.highlightsAlone, fun source first last hmem => ?_,
    Bash.reserves_keywords.highlightsAlone, Bash.reserves_commands.highlightsAlone⟩
  obtain ⟨category, c, -, hpair, hc, -⟩ := recovers_of_sorts php_sorts source first last _ hmem
  obtain rfl : TokenClass.func = c := Option.some.inj hc
  have hclasses : ∀ pair ∈ Php.classes, pair.2 ≠ .func := by decide
  exact hclasses _ hpair rfl

/-- Of words that begin alike the edge decides, and a low line is not an edge. -/
example : scan bash.grammar bash.classifier "done do_".toList =
    [.token 0 4 (some .keyword), .gap 4 8] := by decide +kernel

end Language

end CodeMarkup
