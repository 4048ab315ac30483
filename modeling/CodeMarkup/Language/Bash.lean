import CodeMarkup.Language.Basic

/-!
# Bash

The categories of Bash are comments, string literals, expansions, long options, reserved words and
the names of a few commands. Reserved words and command names stand alone: neither is joined to an
ASCII word character.

* `Bash.grammar` has the categories as patterns, and `Bash.rules` as they are written.
-/

namespace CodeMarkup.Language

namespace Bash

/-- The reserved words of Bash. -/
def keywords : List String :=
  ["if", "then", "fi", "for", "in", "do", "done", "case", "esac", "while", "function"]

/-- The commands that are highlighted. -/
def commands : List String := ["composer", "php", "cp", "vendor/bin/readalizer"]

open Pattern

/-- A variable, or a dollar sign with something in braces. -/
def expansion : Pattern :=
  choice
    [sequence
      [literal ['$', '\x7b'], many1 (set (.noneOf ['\x7d'])), literal ['\x7d']], dollarName]

/-- Two hyphens and the name of an option. -/
def option : Pattern :=
  sequence
    [literal "--".toList,
      many1 (set (.ofRanges [('A', 'Z'), ('a', 'z'), ('0', '9'), ('-', '-')]))]

/-- The categories of Bash. -/
def grammar : Grammar :=
  ⟨[.ofPattern "comment" hashComment, .ofPattern "string" stringLiteral,
    .ofPattern "expansion" expansion, .ofPattern "flag" option,
    .ofPattern "keyword" (wholeWord keywords), .ofPattern "command" (wholeWord commands)]⟩

/-- The categories of Bash as they are written. -/
def rules : List (String × List Char) :=
  [("comment", Written.hashComment), ("string", Written.stringLiteral),
    ("expansion", "\\$\\\x7b[^\x7d]+\\\x7d|".toList ++ Written.dollarName),
    ("flag", "--[A-Za-z0-9-]+".toList), ("keyword", Written.wholeWord keywords),
    ("command", Written.wholeWord commands)]

/-- The classes of Bash tokens. What no rule covers is the name of a command. -/
def classifier : Classifier :=
  ⟨[(.startsWith "#", some .comment), (.startsWithAny ["\"", "'"], some .string),
    (.startsWith "$", some .var), (.startsWith "--", some .flag),
    (.oneOf keywords, some .keyword)], some .func⟩

end Bash

/-- The language of the Bash shell. -/
def bash : Language := ⟨"Bash", ["bash"], Bash.grammar, Bash.classifier⟩

end CodeMarkup.Language
