import CodeMarkup.Page.Highlighter

/-!
# Built-in languages as they are written

The categories of the built-in languages are written patterns, and each time the program is run they
are read and checked.  None of them is refused, so that a highlighter can always be made, and what
is read is the grammar that the language has.
-/

namespace CodeMarkup

theorem eq_ok_of_toOption_eq_some {ε α : Type} {result : Except ε α} {value : α}
    (h : result.toOption = some value) : result = .ok value := by
  cases result with
  | ok found => exact congrArg Except.ok (Option.some.inj h)
  | error error => cases h

namespace Language

theorem Php.read_rules : Grammar.read rules = .ok grammar :=
  eq_ok_of_toOption_eq_some (by decide +kernel)

theorem Bash.read_rules : Grammar.read rules = .ok grammar :=
  eq_ok_of_toOption_eq_some (by decide +kernel)

theorem readBuiltin_eq : readBuiltin = .ok builtin := by
  rw [readBuiltin, Php.read_rules, Bash.read_rules]
  rfl

end Language

/-- It never fails to make a highlighter, whatever the settings. -/
theorem Highlighter.read_eq (settings : Settings) : read settings = .ok (ofSettings settings) := by
  rw [read, Language.readBuiltin_eq]
  rfl

end CodeMarkup
