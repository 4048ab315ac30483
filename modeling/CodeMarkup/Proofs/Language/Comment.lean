import CodeMarkup.Proofs.Language.Recovery
import CodeMarkup.Proofs.Pattern.Shape
import CodeMarkup.Proofs.Scan.TokenAt

/-!
# The extent of comments and variables

A comment goes to the end of its line or up to the first closing text, whatever it contains, and a
variable goes as far as its name or up to the first closing brace.  What opens one of them and
stands in a gap is never closed.

* `LineComment`, `Enclosed` and `Variable` — the shapes of these tokens.
* `Language.TokensHave` and `Language.GapsLeave` — what the tokens of a class look like, and what
  follows each place of a gap.
* `Language.builtin_comments` — both for the built-in languages.
-/

namespace CodeMarkup

variable {text behind : List Char}

/-! ## The shapes of tokens -/

/-- One of several opening texts, and everything up to the end of the line. -/
structure LineComment (openers : List String) (text behind : List Char) : Prop where
  opens : ∃ opener ∈ openers, opener.toList <+: text
  noLineEnd : '\n' ∉ text
  /-- The end of the line or of the source follows. -/
  ends : behind = [] ∨ ∃ rest, behind = '\n' :: rest

/-- A dollar sign and a name of ASCII word characters, as far as they go. -/
structure Variable (text behind : List Char) : Prop where
  named : ∃ name, text = '$' :: name ∧ name ≠ [] ∧ ∀ c ∈ name, isAsciiWord c = true
  ends : behind.head?.any isAsciiWord = false

/-- The characters of a line. -/
def lineSet : CharSet := .noneOf ['\n']

theorem mem_lineSet {c : Char} : lineSet.mem c = true ↔ c ≠ '\n' := by
  simp [lineSet, CharSet.mem_noneOf]

theorem RunAfter.lineComment {openers : List String} (opener : String)
    (h : RunAfter opener.toList lineSet text behind) (hopener : opener ∈ openers)
    (hline : '\n' ∉ opener.toList) : LineComment openers text behind := by
  obtain ⟨run, rfl, hmem, hends⟩ := h
  refine ⟨⟨opener, hopener, run, rfl⟩, ?_, ?_⟩
  · intro hin
    rcases List.mem_append.1 hin with hin | hin
    · exact hline hin
    · exact mem_lineSet.1 (hmem _ hin) rfl
  · cases behind with
    | nil => exact .inl rfl
    | cons c rest =>
      by_cases hc : c = '\n'
      · exact .inr ⟨rest, by rw [hc]⟩
      · simp [mem_lineSet.2 hc] at hends

/-- The characters with which the name of a variable begins. -/
def nameStart : CharSet := .ofRanges [('A', 'Z'), ('a', 'z'), ('_', '_')]

/-- The characters of the name of a variable. -/
def nameSet : CharSet := .ofRanges [('A', 'Z'), ('a', 'z'), ('0', '9'), ('_', '_')]

/-- A name is made of ASCII word characters. -/
theorem mem_nameSet : nameSet.mem = isAsciiWord := by
  funext c
  have hlow : c = '_' ↔ c.toNat = 95 := by
    rw [← Char.toNat_inj]
    rfl
  have hword : isAsciiWord c =
      (decide (65 ≤ c.toNat ∧ c.toNat ≤ 90) || decide (97 ≤ c.toNat) && decide (c.toNat ≤ 122) ||
        decide (48 ≤ c.toNat) && decide (c.toNat ≤ 57) || c == '_') := rfl
  rw [Bool.eq_iff_iff, hword]
  simp [nameSet, CharSet.ofRanges, CharSet.unions, CharSet.mem, hlow]
  omega

theorem mem_nameSet_of_nameStart {c : Char} (h : nameStart.mem c = true) :
    nameSet.mem c = true := by
  simp only [nameStart, nameSet, CharSet.ofRanges, CharSet.unions, CharSet.mem, List.map_cons,
    List.map_nil, Bool.or_eq_true] at h ⊢
  tauto

theorem NameAfter.variable (h : NameAfter ['$'] nameStart nameSet text behind) :
    Variable text behind := by
  obtain ⟨c, hc, run, rfl, hmem, hends⟩ := h
  have hword := mem_nameSet_of_nameStart hc
  rw [mem_nameSet] at hmem hends hword
  exact ⟨⟨c :: run, rfl, by simp, List.forall_mem_cons.2 ⟨hword, hmem⟩⟩, hends⟩

namespace Pattern

theorem hashComment_hasShape : hashComment.HasShape (RunAfter ['#'] lineSet) :=
  hasShape_of_endsBy (Matcher.endsBy_runAfter ['#'] lineSet)
    (fun hpasses hrun => hrun.leads hpasses) (fun heq h h' => h.unique heq h')
    fun h => h.ne_nil (by simp)

theorem dollarName_hasShape : dollarName.HasShape (NameAfter ['$'] nameStart nameSet) :=
  hasShape_of_endsBy (Matcher.endsBy_nameAfter ['$'] nameStart nameSet)
    (fun hpasses hname => hname.leads hpasses) (fun heq h h' => h.unique heq h')
    fun h => h.ne_nil

end Pattern

namespace Language

/-! ## Languages -/

/-- The tokens of a class have a shape, by their text and what follows it. -/
def TokensHave (language : Language) (c : TokenClass) (shape : List Char → List Char → Prop) :
    Prop :=
  ∀ (source : List Char) (first last : Nat),
    Segment.token first last (some c) ∈ scan language.grammar language.classifier source →
      ∃ before text behind, source = before ++ (text ++ behind) ∧ utf8Length before = first ∧
        utf8Length (before ++ text) = last ∧ shape text behind

/-- From each place in a gap on, what is left of the source meets a condition. -/
def GapsLeave (language : Language) (condition : List Char → Prop) : Prop :=
  ∀ (source : List Char) (first last : Nat),
    Segment.gap first last ∈ scan language.grammar language.classifier source →
      ∀ before rest, source = before ++ rest → first ≤ utf8Length before →
        utf8Length before < last → condition rest

/-- The tokens of a class have the shape that those of all its categories have. -/
theorem Recovers.tokensHave {language : Language} {classes : List (String × TokenClass)}
    {leftover : String} (h : language.Recovers classes leftover) {c : TokenClass}
    {shape : List Char → List Char → Prop}
    (hshape : ∀ category ∈ language.grammar.categories, (category.name, c) ∈ classes →
      ∀ place stop, category.matcher.tokenAt? place = some stop →
        ∃ text, place.Passes text stop ∧ shape text stop.rest) :
    language.TokensHave c shape := by
  intro source first last hmem
  obtain ⟨category, c', ⟨i, hi, htoken, -⟩, hpair, hc, -⟩ := h source first last _ hmem
  obtain rfl : c = c' := Option.some.inj hc
  obtain ⟨hfirst, -⟩ := (covers_scan language.grammar language.classifier source).boundaries _ hmem
  obtain ⟨place, stop, -, ⟨before, hbefore⟩, rfl, rfl, -, -, hstop⟩ := htoken.exists_passes hfirst
  obtain ⟨text, htext, hmeets⟩ :=
    hshape category (List.mem_of_getElem? hi) hpair place stop hstop
  obtain ⟨hsource, hoffset, -⟩ := Cursor.passes_start_iff.1 hbefore
  obtain ⟨-, hlast, -⟩ := Cursor.passes_start_iff.1 (hbefore.trans htext)
  exact ⟨before, text, stop.rest, htext.rest_eq ▸ hsource, hoffset.symm, hlast.symm, hmeets⟩

/-- The tokens of a class whose categories have one pattern are as the shape of the pattern says. -/
theorem Recovers.tokensHave_of_hasShape {language : Language} {classes : List (String × TokenClass)}
    {leftover : String} (h : language.Recovers classes leftover) {c : TokenClass} {p : Pattern}
    {shape meant : List Char → List Char → Prop} (hp : p.HasShape shape)
    (hpattern : ∀ category ∈ language.grammar.categories, (category.name, c) ∈ classes →
      category.matcher = .ofPattern p)
    (hmeant : ∀ {text behind}, shape text behind → meant text behind) :
    language.TokensHave c meant := by
  refine h.tokensHave fun category hmem hclass place stop htoken => ?_
  rw [hpattern category hmem hclass] at htoken
  obtain ⟨text, hpasses, hshape⟩ := (hp place stop).1 htoken
  exact ⟨text, hpasses, hmeant hshape⟩

/-- What holds wherever no category has a token holds from each place in a gap on. -/
theorem gapsLeave_of_tokenAt? {language : Language} {condition : List Char → Prop}
    (h : ∀ place : Cursor, (∀ category ∈ language.grammar.categories,
      category.matcher.tokenAt? place = none) → condition place.rest) :
    language.GapsLeave condition := by
  intro source first last hmem before rest hsource hfirst hlast
  let place : Cursor := ⟨utf8Length before, before.getLast?, rest⟩
  have hplace : (Cursor.start source).Reaches place :=
    ⟨before, Cursor.passes_start_iff.2 ⟨hsource, rfl, rfl⟩⟩
  have hnone := tokenAt?_of_gap_mem_scan hmem hplace hfirst hlast
  exact h place (Grammar.tokenAt?_eq_none_iff.1 hnone)

open Pattern

/-! ## PHP -/

namespace Php

/-- Both kinds of line comments go to the end of the line. -/
theorem lineComment_hasShape : lineComment.HasShape fun text behind =>
    RunAfter "//".toList lineSet text behind ∨
      RunAfter ['#'] lineSet text behind := by
  refine hasShape_of_endsBy ?_ ?_ ?_ ?_
  · refine ((Matcher.endsBy_runAfter "//".toList lineSet).alt
      (Matcher.endsBy_runAfter ['#'] lineSet)).imp ?_
    rintro place stop (⟨text, hpasses, hrun⟩ | ⟨text, hpasses, hrun⟩)
    · exact ⟨text, hpasses, .inl hrun⟩
    · exact ⟨text, hpasses, .inr hrun⟩
  · intro place stop text hpasses hrun
    rw [lineComment, leads_choice (by decide)]
    rcases hrun with hrun | hrun
    · exact ⟨_, List.mem_cons_self, hrun.leads hpasses⟩
    · exact ⟨_, List.mem_cons_of_mem _ List.mem_cons_self, hrun.leads hpasses⟩
  · -- a slash does not open what a number sign opens
    rintro text behind other beyond heq (h | h) (h' | h')
    · exact h.unique heq h'
    · obtain ⟨run, rfl, -⟩ := h
      obtain ⟨run', rfl, -⟩ := h'
      simp at heq
    · obtain ⟨run, rfl, -⟩ := h
      obtain ⟨run', rfl, -⟩ := h'
      simp at heq
    · exact h.unique heq h'
  · rintro text behind (h | h)
    · exact h.ne_nil (by simp)
    · exact h.ne_nil (by simp)

theorem blockComment_hasShape : blockComment.HasShape (Enclosed "/*".toList "*/".toList) := by
  have hall : ∀ c, (CharSet.union .blank (.compl .blank)).mem c = true := by
    intro c
    simp [CharSet.mem]
  exact hasShape_of_endsBy (Matcher.endsBy_enclosed "/*".toList "*/".toList _)
    (fun hpasses h => h.leads hall hpasses) (fun heq h h' => h.unique heq h')
    fun h => h.ne_nil (by simp)

end Php

/-! ## Bash -/

namespace Bash

/-- A brace does not begin a name. -/
theorem ne_of_enclosed_of_nameAfter {other beyond : List Char}
    (h : Enclosed "$\x7b".toList ['\x7d'] text behind)
    (h' : NameAfter ['$'] nameStart nameSet other beyond) : text ++ behind ≠ other ++ beyond := by
  obtain ⟨inner, rfl, -⟩ := h
  obtain ⟨c, hc, run, rfl, -⟩ := h'
  intro heq
  obtain rfl : '\x7b' = c := (List.cons.inj (List.cons.inj heq).2).1
  exact absurd hc (by decide)

/-- What is in braces goes up to the first closing one, and a name as far as it can. -/
theorem expansion_hasShape : expansion.HasShape fun text behind =>
    Enclosed "$\x7b".toList ['\x7d'] text behind ∧ text ≠ "$\x7b\x7d".toList ∨
      NameAfter ['$'] nameStart nameSet text behind := by
  refine hasShape_of_endsBy ?_ ?_ ?_ ?_
  · refine ((endsBy_leads (sequence [literal "$\x7b".toList, many1 (set (.noneOf ['\x7d'])),
      literal ['\x7d']])).alt (Matcher.endsBy_nameAfter ['$'] nameStart nameSet)).imp ?_
    rintro place stop (hbraces | ⟨text, hpasses, hname⟩)
    · obtain ⟨text, hpasses, hbraces, hne⟩ := leads_enclosed_iff.1 hbraces
      exact ⟨text, hpasses, .inl ⟨hbraces, hne⟩⟩
    · exact ⟨text, hpasses, .inr hname⟩
  · intro place stop text hpasses h
    rw [expansion, leads_choice (by decide)]
    rcases h with ⟨hbraces, hne⟩ | hname
    · exact ⟨_, List.mem_cons_self, leads_enclosed_iff.2 ⟨text, hpasses, hbraces, hne⟩⟩
    · exact ⟨_, List.mem_cons_of_mem _ List.mem_cons_self, hname.leads hpasses⟩
  · rintro text behind other beyond heq (⟨h, -⟩ | h) (⟨h', -⟩ | h')
    · exact h.unique heq h'
    · exact absurd heq (ne_of_enclosed_of_nameAfter h h')
    · exact absurd heq.symm (ne_of_enclosed_of_nameAfter h' h)
    · exact h.unique heq h'
  · rintro text behind (⟨h, -⟩ | h)
    · exact h.ne_nil (by simp)
    · exact h.ne_nil

end Bash

/-! ## The built-in languages -/

/-- What is left open from a place in a gap of PHP on: a comment of one line cannot be, and one with
two ends is never closed. -/
def Php.LeavesOpen (rest : List Char) : Prop :=
  ¬ "#".toList <+: rest ∧ ¬ "//".toList <+: rest ∧
    ∀ more, rest = "/*".toList ++ more → ¬ "*/".toList <:+: more

/-- What is left open from a place in a gap of Bash on: a comment cannot be, and braces behind a
dollar sign have nothing in them or are never closed. -/
def Bash.LeavesOpen (rest : List Char) : Prop :=
  ¬ "#".toList <+: rest ∧
    ∀ more, rest = "$\x7b".toList ++ more → "\x7d".toList <+: more ∨ '\x7d' ∉ more

theorem php_comments : php.TokensHave .comment fun text behind =>
    LineComment ["//", "#"] text behind ∨ Enclosed "/*".toList "*/".toList text behind := by
  have hkinds : ∀ category ∈ php.grammar.categories, (category.name, TokenClass.comment) ∈
      Php.classes → category.matcher = .ofPattern Php.blockComment ∨
        category.matcher = .ofPattern Php.lineComment := by
    decide +kernel
  refine (recovers_of_sorts php_sorts).tokensHave ?_
  intro category hmem hclass place stop htoken
  rcases hkinds category hmem hclass with hblock | hline
  · rw [hblock] at htoken
    obtain ⟨text, hpasses, hblock⟩ := (Php.blockComment_hasShape place stop).1 htoken
    exact ⟨text, hpasses, .inr hblock⟩
  · rw [hline] at htoken
    obtain ⟨text, hpasses, hline | hline⟩ := (Php.lineComment_hasShape place stop).1 htoken
    · exact ⟨text, hpasses, .inl (hline.lineComment "//" (by simp) (by decide))⟩
    · exact ⟨text, hpasses, .inl (hline.lineComment "#" (by simp) (by decide))⟩

theorem php_variables : php.TokensHave .var Variable := by
  refine (recovers_of_sorts php_sorts).tokensHave_of_hasShape dollarName_hasShape ?_ ?_
  · decide +kernel
  · exact NameAfter.variable

theorem bash_comments : bash.TokensHave .comment (LineComment ["#"]) := by
  refine (recovers_of_sorts bash_sorts).tokensHave_of_hasShape hashComment_hasShape ?_ ?_
  · decide +kernel
  · intro text behind hline
    exact hline.lineComment "#" (by simp) (by decide)

theorem bash_variables : bash.TokensHave .var fun text behind =>
    Enclosed "$\x7b".toList "\x7d".toList text behind ∧ text ≠ "$\x7b\x7d".toList ∨
      Variable text behind := by
  refine (recovers_of_sorts bash_sorts).tokensHave_of_hasShape Bash.expansion_hasShape ?_ ?_
  · decide +kernel
  · rintro text behind (hbraces | hname)
    · exact .inl hbraces
    · exact .inr hname.variable

theorem php_gaps : php.GapsLeave Php.LeavesOpen := by
  refine gapsLeave_of_tokenAt? fun place hnone => ?_
  have hline := hnone _ (List.mem_of_getElem? (i := 2) rfl)
  have hblock := hnone _ (List.mem_of_getElem? (i := 1) rfl)
  refine ⟨fun hhash => ?_, fun hslashes => ?_, fun more hmore hclose => ?_⟩
  · obtain ⟨text, behind, hrest, hrun⟩ := RunAfter.exists_of lineSet hhash
    exact Php.lineComment_hasShape.not_shape hline hrest (.inr hrun)
  · obtain ⟨text, behind, hrest, hrun⟩ := RunAfter.exists_of lineSet hslashes
    exact Php.lineComment_hasShape.not_shape hline hrest (.inl hrun)
  · obtain ⟨text, behind, hrest, henclosed⟩ := Enclosed.exists_of "/*".toList hclose
    exact Php.blockComment_hasShape.not_shape hblock (hmore.trans hrest) henclosed

theorem bash_gaps : bash.GapsLeave Bash.LeavesOpen := by
  refine gapsLeave_of_tokenAt? fun place hnone => ?_
  have hcomment := hnone _ (List.mem_of_getElem? (i := 0) rfl)
  have hexpansion := hnone _ (List.mem_of_getElem? (i := 2) rfl)
  refine ⟨fun hhash => ?_, fun more hmore => ?_⟩
  · obtain ⟨text, behind, hrest, hrun⟩ := RunAfter.exists_of lineSet hhash
    exact hashComment_hasShape.not_shape hcomment hrest hrun
  · by_cases hclose : '\x7d' ∈ more
    · left
      have hinfix : "\x7d".toList <:+: more := by
        obtain ⟨inner, outer, rfl⟩ := List.append_of_mem hclose
        exact ⟨inner, outer, by simp⟩
      obtain ⟨text, behind, hrest, henclosed⟩ := Enclosed.exists_of "$\x7b".toList hinfix
      by_cases hempty : text = "$\x7b\x7d".toList
      · -- nothing is in the braces, since what is enclosed would be a token
        rw [hempty] at hrest
        have hmore' : more = "\x7d".toList ++ behind := by simpa using hrest
        exact ⟨behind, hmore'.symm⟩
      · exact absurd (.inl ⟨henclosed, hempty⟩)
          (Bash.expansion_hasShape.not_shape hexpansion (hmore.trans hrest))
    · exact .inr hclose

/-- **Comments and expansions have exactly their extent.**  Under the built-in languages a comment
up to the end of a line ends there, and any other comment and any expansion in braces with the first
text that closes it; every other variable ends where its name does.  In a gap nothing opens a
comment up to the end of a line, and what opens anything else is never closed. -/
theorem builtin_comments :
    (php.TokensHave .comment fun text behind =>
        LineComment ["//", "#"] text behind ∨ Enclosed "/*".toList "*/".toList text behind) ∧
      php.TokensHave .var Variable ∧ php.GapsLeave Php.LeavesOpen ∧
      bash.TokensHave .comment (LineComment ["#"]) ∧
      (bash.TokensHave .var fun text behind =>
        Enclosed "$\x7b".toList "\x7d".toList text behind ∧ text ≠ "$\x7b\x7d".toList ∨
          Variable text behind) ∧
      bash.GapsLeave Bash.LeavesOpen :=
  ⟨php_comments, php_variables, php_gaps, bash_comments, bash_variables, bash_gaps⟩

/-- A quote in a comment opens no string, and a comment that is never closed stays in a gap. -/
example : scan php.grammar php.classifier "//\"\n/*/ $a".toList =
    [.token 0 3 (some .comment), .gap 3 8, .token 8 10 (some .var)] := by decide +kernel

end Language

end CodeMarkup
