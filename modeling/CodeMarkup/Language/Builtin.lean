import CodeMarkup.Language.Bash
import CodeMarkup.Language.Php

/-!
# Built-in languages

The languages that are known without being registered. Their grammars are written like those of any
other language, and `readBuiltin` reads them.
-/

namespace CodeMarkup.Language

/-- The built-in languages, in the order of their registration. -/
def builtin : List Language := [php, bash]

/-- Reads the grammars of the built-in languages. The first pattern that is refused refuses them. -/
def readBuiltin : Except CategoryError (List Language) := do
  let phpGrammar ← Grammar.read Php.rules
  let bashGrammar ← Grammar.read Bash.rules
  pure [{ php with grammar := phpGrammar }, { bash with grammar := bashGrammar }]

end CodeMarkup.Language
