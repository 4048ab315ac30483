import CodeMarkup.Language.Basic

/-!
# PHP

The categories of PHP are tags, comments in three styles, string literals, variables, reserved
words, three operators and numbers. Reserved words and numbers stand alone: neither is joined to an
ASCII word character.

* `Php.grammar` has the categories as patterns, and `Php.rules` as they are written.
-/

namespace CodeMarkup.Language

namespace Php

/-- The reserved words of PHP. -/
def keywords : List String :=
  ["abstract", "array", "as", "break", "case", "catch", "class", "const", "continue", "declare",
    "default", "do", "echo", "else", "elseif", "enum", "extends", "false", "final", "finally", "fn",
    "for", "foreach", "function", "if", "implements", "interface", "match", "namespace", "new",
    "null", "private", "protected", "public", "readonly", "return", "static", "switch", "throw",
    "trait", "true", "try", "use", "while"]

/-- The operators that are highlighted. -/
def operators : List String := ["->", "=>", "::"]

open Pattern

/-- An opening tag, long or short, or a closing tag. -/
def tag : Pattern :=
  choice [sequence [literal "<?".toList, optional (literal "php".toList)], literal "?>".toList]

/-- A comment between a slash with an asterisk and an asterisk with a slash. -/
def blockComment : Pattern :=
  sequence
    [literal "/*".toList, manyLazy (set (.union .blank (.compl .blank))), literal "*/".toList]

/-- A comment up to the end of its line. -/
def lineComment : Pattern :=
  choice [sequence [literal "//".toList, many (set (.noneOf ['\n']))], hashComment]

/-- Digits, and maybe a point with more digits, standing alone. -/
def number : Pattern :=
  sequence
    [asciiEdge, many1 (set .asciiDigit),
      optional (sequence [literal ['.'], many1 (set .asciiDigit)]), asciiEdge]

/-- The categories of PHP. -/
def grammar : Grammar :=
  ⟨[.ofPattern "tag" tag, .ofPattern "block_comment" blockComment,
    .ofPattern "line_comment" lineComment, .ofPattern "string" stringLiteral,
    .ofPattern "variable" dollarName, .ofPattern "keyword" (wholeWord keywords),
    .ofPattern "operator" (anyOf (operators.map String.toList)), .ofPattern "number" number]⟩

/-- The categories of PHP as they are written. -/
def rules : List (String × List Char) :=
  [("tag", "<\\?(?:php)?|\\?>".toList), ("block_comment", "/\\*[\\s\\S]*?\\*/".toList),
    ("line_comment", "//[^\\n]*|".toList ++ Written.hashComment),
    ("string", Written.stringLiteral), ("variable", Written.dollarName),
    ("keyword", Written.wholeWord keywords), ("operator", "->|=>|::".toList),
    ("number", Written.asciiEdge ++ "[0-9]+(?:\\.[0-9]+)?".toList ++ Written.asciiEdge)]

/-- The classes of PHP tokens. What no rule covers is a reserved word. -/
def classifier : Classifier :=
  ⟨[(.startsWith "<?", some .tag), (.equals "?>", some .tag),
    (.startsWithAny ["/*", "//", "#"], some .comment),
    (.startsWithAny ["\"", "'"], some .string), (.startsWith "$", some .var),
    (.oneOf operators, some .op), (.startsWithDigit, some .number)], some .keyword⟩

end Php

/-- The language PHP. -/
def php : Language := ⟨"PHP", ["php"], Php.grammar, Php.classifier⟩

end CodeMarkup.Language
