import CodeMarkup.Proofs.Language.ReservedWord
import CodeMarkup.Proofs.Scan.Ties

/-!
# The built-in languages have no ties

In a built-in language the first character of a token nearly always tells its category.  Two kinds
of comments of PHP begin with the same character and are told apart by the second one, and the words
of Bash by where they end.  So the order of the categories has no effect.

* `Language.OrderFree` — the segments do not depend on the order of the categories.
* `Language.builtin_neverTies` — the main result.
-/

namespace CodeMarkup

/-- The segments of every source are the same for every order of the categories of a language. -/
def Language.OrderFree (language : Language) : Prop :=
  ∀ other : Grammar, other.categories.Perm language.grammar.categories →
    ∀ source, scan other language.classifier source =
      scan language.grammar language.classifier source

namespace Pattern

variable {place further : Cursor}

/-- What begins with a text leads on only where it stands. -/
theorem Leads.isPrefix {word : List Char} {parts : List Pattern}
    (h : (sequence (literal word :: parts)).Leads place further) : word <+: place.rest := by
  obtain ⟨middle, hword, -⟩ := (leads_sequence _).1 h
  exact ⟨middle.rest, hword.rest_eq.symm⟩

end Pattern

namespace Language

open Pattern

/-- The categories of a grammar exclude each other if their patterns begin with other characters or
are known to exclude each other. -/
theorem pairwise_excludes_of_named {grammar : Grammar} (named : List (String × Pattern))
    (known : (String × Pattern) × (String × Pattern))
    (hgrammar : grammar.categories = named.map fun pair => .ofPattern pair.1 pair.2)
    (hpairs : named.Pairwise fun p q => p.2.apart q.2 = true ∨ (p, q) = known)
    (hknown : known.1.2.Excludes known.2.2) : grammar.categories.Pairwise Category.Excludes := by
  rw [hgrammar, List.pairwise_map]
  refine hpairs.imp fun {p q} h => ?_
  rcases h with happart | rfl
  · exact Category.excludes_of_patterns (excludes_of_apart happart) p.1 q.1
  · exact Category.excludes_of_patterns hknown _ _

/-! ## PHP -/

namespace Php

/-- The patterns of PHP, with the names of their categories. -/
def named : List (String × Pattern) :=
  [("tag", tag), ("block_comment", blockComment), ("line_comment", lineComment),
    ("string", stringLiteral), ("variable", dollarName), ("keyword", wholeWord keywords),
    ("operator", anyOf (operators.map String.toList)), ("number", number)]

/-- The second character tells a comment of one line from one with two ends. -/
theorem excludes_comments : blockComment.Excludes lineComment := by
  intro place further beyond hblock hline
  have hstars := Leads.isPrefix hblock
  rw [lineComment, leads_choice (by decide)] at hline
  obtain ⟨part, hpart, hleads⟩ := hline
  simp only [List.mem_cons, List.not_mem_nil, or_false] at hpart
  rcases hpart with rfl | rfl
  all_goals
    have hopener := Leads.isPrefix hleads
    rcases List.prefix_or_prefix_of_prefix hstars hopener with h | h
    all_goals exact absurd h (by decide)

theorem pairwise_excludes : php.grammar.categories.Pairwise Category.Excludes :=
  pairwise_excludes_of_named named
    (("block_comment", blockComment), ("line_comment", lineComment)) rfl (by decide +kernel)
    excludes_comments

end Php

/-! ## Bash -/

namespace Bash

/-- The patterns of Bash, with the names of their categories. -/
def named : List (String × Pattern) :=
  [("comment", hashComment), ("string", stringLiteral), ("expansion", expansion),
    ("flag", option), ("keyword", wholeWord keywords), ("command", wholeWord commands)]

theorem pairwise_excludes : bash.grammar.categories.Pairwise Category.Excludes :=
  pairwise_excludes_of_named named
    (("keyword", wholeWord keywords), ("command", wholeWord commands)) rfl (by decide +kernel)
    excludes_commands

end Bash

/-! ## The built-in languages -/

/-- **Ties never happen.**  At every offset of every source at most one category of a built-in
language has a match that starts there, so the segments do not depend on the order of the
categories. -/
theorem builtin_neverTies :
    php.grammar.NeverTies ∧ php.OrderFree ∧ bash.grammar.NeverTies ∧ bash.OrderFree := by
  have hphp := Grammar.neverTies_of_pairwise Php.pairwise_excludes
  have hbash := Grammar.neverTies_of_pairwise Bash.pairwise_excludes
  refine ⟨hphp, fun other hperm source => ?_, hbash, fun other hperm source => ?_⟩
  · exact scan_eq_of_perm hphp hperm php.classifier source
  · exact scan_eq_of_perm hbash hperm bash.classifier source

end Language

end CodeMarkup
