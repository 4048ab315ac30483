import Mathlib.Tactic.FinCases
import Mathlib.Tactic.IntervalCases
import CodeMarkup.Language.Builtin
import CodeMarkup.Proofs.Pattern.Composed
import CodeMarkup.Proofs.Scan.Preference

/-!
# Classes recover categories

A classifier sees only the text of a token, not the category that made it.  For the built-in
languages the text is enough: what a category can match begins like nothing that an earlier rule
asks for, so that the rules find the class of the category again.

* `Category.HasToken.spells` — the text of a token is one that the pattern of its category spells.
* `Classifier.Decides` — a rule, and not the fallback, gives a text its class.
* `Language.Recovers` — the class of every token is that of the category that made it.
-/

namespace CodeMarkup

/-! ## The text of a token -/

/-- The text of a token is one that the pattern of its category spells. -/
theorem Category.HasToken.spells {name : String} {p : Pattern} {source : List Char}
    {first last : Nat} (h : (Category.ofPattern name p).HasToken source first last)
    (hfirst : IsBoundary source first) : p.Spells (slice source first last) := by
  obtain ⟨place, stop, text, -, -, -, htext, hslice, htoken⟩ := h.exists_passes hfirst
  rw [hslice]
  exact (Pattern.leads_of_matchAt? (Matcher.tokenAt?_eq_some_iff.1 htoken).1).spells htext

/-! ## Rules and the fallback -/

namespace Classifier

/-- A rule gives a text its class. -/
def Decides (classifier : Classifier) (text : List Char) (c : TokenClass) : Prop :=
  ∃ test, classifier.rules.find? (fun rule => rule.1.holds text) = some (test, some c)

/-- A text is left to the fallback: it meets the test of no rule. -/
def Leaves (classifier : Classifier) (text : List Char) : Prop :=
  ∀ rule ∈ classifier.rules, rule.1.holds text = false

variable {classifier : Classifier} {text : List Char} {c : TokenClass}

theorem Decides.classify_eq (h : classifier.Decides text c) :
    classifier.classify text = some c := by
  obtain ⟨test, hfind⟩ := h
  rw [classify, hfind]

theorem Decides.not_leaves (h : classifier.Decides text c) : ¬ classifier.Leaves text := by
  obtain ⟨test, hfind⟩ := h
  intro hleaves
  have hmem := List.mem_of_find?_eq_some hfind
  have hholds := List.find?_some hfind
  simp [hleaves _ hmem] at hholds

end Classifier

/-! ## Languages -/

/-- A category made the token between two offsets: it has a match there, and no category declared
before it has one where the token starts. -/
def Grammar.Makes (grammar : Grammar) (source : List Char) (first last : Nat)
    (category : Category) : Prop :=
  ∃ i, grammar.categories[i]? = some category ∧ category.HasToken source first last ∧
    ∀ (j : Nat) (earlier : Category), j < i → grammar.categories[j]? = some earlier →
      ∀ stop, ¬ earlier.HasToken source first stop

/-- Every token of a language has the class that `classes` gives the category that made it, and a
token is left to the fallback only if `leftover` made it. -/
def Language.Recovers (language : Language) (classes : List (String × TokenClass))
    (leftover : String) : Prop :=
  ∀ (source : List Char) (first last : Nat) (class? : Option TokenClass),
    .token first last class? ∈ scan language.grammar language.classifier source →
      ∃ category c, language.grammar.Makes source first last category ∧
        (category.name, c) ∈ classes ∧ class? = some c ∧
        (language.classifier.Leaves (slice source first last) → category.name = leftover)

/-- What a category has to meet: it has a pattern and a class, and each text of the pattern is given
the class, by a rule if the category is not the one left over. -/
def Language.Sorts (language : Language) (classes : List (String × TokenClass)) (leftover : String)
    (category : Category) : Prop :=
  ∃ p c, category = .ofPattern category.name p ∧ (category.name, c) ∈ classes ∧
    ∀ text, p.Spells text → language.classifier.Decides text c ∨
      category.name = leftover ∧ language.classifier.classify text = some c

theorem Language.recovers_of_sorts {language : Language} {classes : List (String × TokenClass)}
    {leftover : String}
    (h : ∀ category ∈ language.grammar.categories, language.Sorts classes leftover category) :
    language.Recovers classes leftover := by
  intro source first last class? hmem
  have hrun := scan_run language.grammar language.classifier source
  obtain ⟨⟨i, category, hi, htoken, hearlier⟩, rfl⟩ := hrun.meets (.start _ source) _ hmem
  obtain ⟨hfirst, -⟩ := (covers_scan language.grammar language.classifier source).boundaries _ hmem
  obtain ⟨p, c, hp, hclass, htexts⟩ := h category (List.mem_of_getElem? hi)
  have hspells : p.Spells (slice source first last) := by
    rw [hp] at htoken
    exact htoken.spells hfirst
  refine ⟨category, c, ⟨i, hi, htoken, hearlier⟩, hclass, ?_⟩
  rcases htexts _ hspells with hdecides | ⟨hname, hclassify⟩
  · exact ⟨hdecides.classify_eq, fun hleaves => absurd hleaves hdecides.not_leaves⟩
  · exact ⟨hclassify, fun _ => hname⟩

/-! ## Patterns that languages share -/

namespace Pattern

variable {text : List Char}

/-- A choice of words spells the words, if its branches are kept as they are. -/
theorem Spells.mem_words {words : List String}
    (h : (Pattern.anyOf (words.map String.toList)).Spells text)
    (hplain : Pattern.anyOf (words.map String.toList) =
      ofBranches (((words.map String.toList).map .literal).flatMap branches)) :
    ∃ word ∈ words, text = word.toList := by
  obtain ⟨part, hpart, hspells⟩ := h.choice hplain
  rw [List.map_map] at hpart
  obtain ⟨word, hword, rfl⟩ := List.mem_map.1 hpart
  exact ⟨word, hword, hspells.literal⟩

/-- The edges around a word add nothing to its text. -/
theorem Spells.mem_wholeWord {words : List String} (h : (Pattern.wholeWord words).Spells text)
    (hplain : Pattern.anyOf (words.map String.toList) =
      ofBranches (((words.map String.toList).map .literal).flatMap branches)) :
    ∃ word ∈ words, text = word.toList := by
  obtain ⟨edge, afterEdge, rfl, hedge, hafterEdge⟩ := h.sequence_cons
  obtain ⟨middle, afterWord, rfl, hmiddle, hafterWord⟩ := hafterEdge.sequence_cons
  obtain ⟨edge', nothing, rfl, hedge', hnothing⟩ := hafterWord.sequence_cons
  obtain ⟨word, hword, rfl⟩ := hmiddle.mem_words hplain
  refine ⟨word, hword, ?_⟩
  rw [hedge.look, hedge'.look, hnothing.sequence_nil, List.nil_append, List.append_nil,
    List.append_nil]

/-- A string literal begins with a quote. -/
theorem Spells.quote_cons (h : Pattern.stringLiteral.Spells text) :
    ∃ tail, text = '"' :: tail ∨ text = '\'' :: tail := by
  obtain ⟨part, hpart, hspells⟩ := h.choice (by decide)
  simp only [List.mem_cons, List.not_mem_nil, or_false] at hpart
  rcases hpart with rfl | rfl
  · obtain ⟨tail, rfl⟩ := hspells.sequence_literal
    exact ⟨tail, .inl rfl⟩
  · obtain ⟨tail, rfl⟩ := hspells.sequence_literal
    exact ⟨tail, .inr rfl⟩

end Pattern

namespace Language

open Pattern

variable {text : List Char}

/-! ## PHP -/

namespace Php

/-- The classes of the categories of PHP. -/
def classes : List (String × TokenClass) :=
  [("tag", .tag), ("block_comment", .comment), ("line_comment", .comment), ("string", .string),
    ("variable", .var), ("keyword", .keyword), ("operator", .op), ("number", .number)]

theorem decides_tag (h : tag.Spells text) : classifier.Decides text .tag := by
  obtain ⟨part, hpart, hspells⟩ := h.choice (by decide)
  simp only [List.mem_cons, List.not_mem_nil, or_false] at hpart
  rcases hpart with rfl | rfl
  · obtain ⟨tail, rfl⟩ := hspells.sequence_literal
    exact ⟨_, rfl⟩
  · obtain rfl := hspells.literal
    exact ⟨_, rfl⟩

theorem decides_blockComment (h : blockComment.Spells text) :
    classifier.Decides text .comment := by
  obtain ⟨tail, rfl⟩ := h.sequence_literal
  exact ⟨_, rfl⟩

theorem decides_lineComment (h : lineComment.Spells text) : classifier.Decides text .comment := by
  obtain ⟨part, hpart, hspells⟩ := h.choice (by decide)
  simp only [List.mem_cons, List.not_mem_nil, or_false] at hpart
  rcases hpart with rfl | rfl
  all_goals
    obtain ⟨tail, rfl⟩ := hspells.sequence_literal
    exact ⟨_, rfl⟩

theorem decides_string (h : stringLiteral.Spells text) : classifier.Decides text .string := by
  obtain ⟨tail, rfl | rfl⟩ := h.quote_cons
  all_goals exact ⟨_, rfl⟩

theorem decides_variable (h : dollarName.Spells text) : classifier.Decides text .var := by
  obtain ⟨tail, rfl⟩ := h.sequence_literal
  exact ⟨_, rfl⟩

/-- A digit is one of ten characters. -/
theorem mem_digits {c : Char} (h : CharSet.asciiDigit.mem c = true) :
    c ∈ "0123456789".toList := by
  obtain ⟨hfirst, hlast⟩ : 48 ≤ c.toNat ∧ c.toNat ≤ 57 := by
    simpa [CharSet.asciiDigit, CharSet.mem] using h
  rw [← Char.ofNat_toNat c]
  interval_cases c.toNat <;> decide

/-- No reserved word is taken by a rule. -/
theorem classify_keyword (h : (wholeWord keywords).Spells text) :
    classifier.classify text = some .keyword := by
  obtain ⟨word, hword, rfl⟩ := h.mem_wholeWord (by decide)
  have hwords : ∀ word ∈ keywords, classifier.classify word.toList = some .keyword := by decide
  exact hwords word hword

theorem decides_operator (h : (anyOf (operators.map String.toList)).Spells text) :
    classifier.Decides text .op := by
  obtain ⟨word, hword, rfl⟩ := h.mem_words (by decide)
  have hwords : ∀ word ∈ operators, classifier.rules.find? (fun rule => rule.1.holds word.toList) =
      some (.oneOf operators, some .op) := by decide
  exact ⟨_, hwords word hword⟩

theorem decides_number (h : number.Spells text) : classifier.Decides text .number := by
  obtain ⟨edge, afterEdge, rfl, hedge, hafterEdge⟩ := h.sequence_cons
  obtain ⟨digits, rest, rfl, hdigits, -⟩ := hafterEdge.sequence_cons
  obtain ⟨head, tail, rfl, hhead⟩ := hdigits.many1 rfl
  obtain ⟨c, hc, rfl⟩ := hhead.set
  obtain rfl := hedge.look
  -- each of the ten digits is tried against the rules, whatever follows it
  have hdigit := mem_digits hc
  fin_cases hdigit
  all_goals exact ⟨_, rfl⟩

end Php

/-! ## Bash -/

namespace Bash

/-- The classes of the categories of Bash. -/
def classes : List (String × TokenClass) :=
  [("comment", .comment), ("string", .string), ("expansion", .var), ("flag", .flag),
    ("keyword", .keyword), ("command", .func)]

theorem decides_comment (h : hashComment.Spells text) : classifier.Decides text .comment := by
  obtain ⟨tail, rfl⟩ := h.sequence_literal
  exact ⟨_, rfl⟩

theorem decides_string (h : stringLiteral.Spells text) : classifier.Decides text .string := by
  obtain ⟨tail, rfl | rfl⟩ := h.quote_cons
  all_goals exact ⟨_, rfl⟩

theorem decides_expansion (h : expansion.Spells text) : classifier.Decides text .var := by
  obtain ⟨part, hpart, hspells⟩ := h.choice (by decide)
  simp only [List.mem_cons, List.not_mem_nil, or_false] at hpart
  rcases hpart with rfl | rfl
  all_goals
    obtain ⟨tail, rfl⟩ := hspells.sequence_literal
    exact ⟨_, rfl⟩

theorem decides_flag (h : option.Spells text) : classifier.Decides text .flag := by
  obtain ⟨tail, rfl⟩ := h.sequence_literal
  exact ⟨_, rfl⟩

theorem decides_keyword (h : (wholeWord keywords).Spells text) :
    classifier.Decides text .keyword := by
  obtain ⟨word, hword, rfl⟩ := h.mem_wholeWord (by decide)
  have hwords : ∀ word ∈ keywords, classifier.rules.find? (fun rule => rule.1.holds word.toList) =
      some (.oneOf keywords, some .keyword) := by decide
  exact ⟨_, hwords word hword⟩

/-- No command is taken by a rule. -/
theorem classify_command (h : (wholeWord commands).Spells text) :
    classifier.classify text = some .func := by
  obtain ⟨word, hword, rfl⟩ := h.mem_wholeWord (by decide)
  have hwords : ∀ word ∈ commands, classifier.classify word.toList = some .func := by decide
  exact hwords word hword

end Bash

/-! ## The built-in languages -/

theorem php_sorts (category : Category) (h : category ∈ php.grammar.categories) :
    php.Sorts Php.classes "keyword" category := by
  simp only [php, Php.grammar, List.mem_cons, List.not_mem_nil, or_false] at h
  rcases h with rfl | rfl | rfl | rfl | rfl | rfl | rfl | rfl
  · exact ⟨Php.tag, .tag, rfl, by decide, fun _ h => .inl (Php.decides_tag h)⟩
  · exact ⟨Php.blockComment, .comment, rfl, by decide, fun _ h => .inl (Php.decides_blockComment h)⟩
  · exact ⟨Php.lineComment, .comment, rfl, by decide, fun _ h => .inl (Php.decides_lineComment h)⟩
  · exact ⟨stringLiteral, .string, rfl, by decide, fun _ h => .inl (Php.decides_string h)⟩
  · exact ⟨dollarName, .var, rfl, by decide, fun _ h => .inl (Php.decides_variable h)⟩
  · exact ⟨wholeWord Php.keywords, .keyword, rfl, by decide,
      fun _ h => .inr ⟨rfl, Php.classify_keyword h⟩⟩
  · exact ⟨anyOf (Php.operators.map String.toList), .op, rfl, by decide,
      fun _ h => .inl (Php.decides_operator h)⟩
  · exact ⟨Php.number, .number, rfl, by decide, fun _ h => .inl (Php.decides_number h)⟩

theorem bash_sorts (category : Category) (h : category ∈ bash.grammar.categories) :
    bash.Sorts Bash.classes "command" category := by
  simp only [bash, Bash.grammar, List.mem_cons, List.not_mem_nil, or_false] at h
  rcases h with rfl | rfl | rfl | rfl | rfl | rfl
  · exact ⟨hashComment, .comment, rfl, by decide, fun _ h => .inl (Bash.decides_comment h)⟩
  · exact ⟨stringLiteral, .string, rfl, by decide, fun _ h => .inl (Bash.decides_string h)⟩
  · exact ⟨Bash.expansion, .var, rfl, by decide, fun _ h => .inl (Bash.decides_expansion h)⟩
  · exact ⟨Bash.option, .flag, rfl, by decide, fun _ h => .inl (Bash.decides_flag h)⟩
  · exact ⟨wholeWord Bash.keywords, .keyword, rfl, by decide,
      fun _ h => .inl (Bash.decides_keyword h)⟩
  · exact ⟨wholeWord Bash.commands, .func, rfl, by decide,
      fun _ h => .inr ⟨rfl, Bash.classify_command h⟩⟩

/-- **Classes recover categories.**  Under the built-in languages every token has the class of the
category that made it, and the only tokens left to the fallback are reserved words of PHP and
commands of Bash. -/
theorem builtin_recovers :
    php.Recovers Php.classes "keyword" ∧ bash.Recovers Bash.classes "command" :=
  ⟨recovers_of_sorts php_sorts, recovers_of_sorts bash_sorts⟩

end Language

end CodeMarkup
