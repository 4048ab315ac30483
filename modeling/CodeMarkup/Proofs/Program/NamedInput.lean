import CodeMarkup.Proofs.Program.Argument

/-!
# Inputs that are named

A run reads one input.  Its arguments can name standard input by `-`, and nothing is remembered of
that, since standard input is read anyway if no file is named.  So the order counts: nothing may
stand behind a file, and anything may stand behind `-`.

* `noneStops_iff` — items that do not stop the reading, with the condition on inputs apart.
* `run_names_one_file` — the inputs of a run: at most one file, with nothing behind it.
* `run_names_two_inputs` — a run that names two inputs, which are refused in the other order.
-/

namespace CodeMarkup

theorem namedFiles_eq_nil_iff {items : List ArgItem} :
    namedFiles items = [] ↔ ∀ input ∈ positionals items, input = "-" := by
  simp [namedFiles, List.filter_eq_nil_iff]

/-- Items do not stop the reading exactly if none of them stops it by itself and every input but the
last one is standard input. -/
theorem noneStops_iff {items : List ArgItem} :
    NoneStops items ↔
      (∀ item ∈ items, ∀ answer, ¬ item.Stops answer) ∧
        ∀ input ∈ (positionals items).dropLast, input = "-" := by
  induction items using List.reverseRecOn with
  | nil => simp [noneStops_nil, positionals]
  | append_singleton before item ih =>
    rw [noneStops_concat_iff, ih, not_stopsBehind_iff, positionals_concat, List.forall_mem_append,
      List.forall_mem_singleton]
    cases item.positional? with
    | none => simp [and_right_comm]
    | some input =>
      rw [Option.toList_some, List.dropLast_concat, ← namedFiles_eq_nil_iff]
      have hlast : namedFiles before = [] → ∀ input ∈ (positionals before).dropLast, input = "-" :=
        fun h input hmem => namedFiles_eq_nil_iff.1 h input (List.dropLast_subset _ hmem)
      constructor
      · rintro ⟨⟨hbefore, -⟩, hitem, hfile⟩
        exact ⟨⟨hbefore, hitem⟩, hfile (Option.some_ne_none input)⟩
      · rintro ⟨⟨hbefore, hitem⟩, hfile⟩
        exact ⟨⟨hbefore, hlast hfile⟩, hitem, fun _ => hfile⟩

/-- **A run names at most one file, with nothing behind it.**  Arguments ask for a run exactly if no
item stops the reading by itself and every input but the last one is standard input.  The files that
are named are the file of the run, or none. -/
theorem run_names_one_file (args : List String) :
    ((∃ options, parseArgs args = .ok (.run options)) ↔
        (∀ item ∈ argItems args, ∀ answer, ¬ item.Stops answer) ∧
          ∀ input ∈ (positionals (argItems args)).dropLast, input = "-") ∧
      ∀ options, parseArgs args = .ok (.run options) →
        namedFiles (argItems args) = options.file?.toList := by
  refine ⟨?_, fun options h => (parseArgs_eq_run_iff.1 h).2.file⟩
  rw [← noneStops_iff]
  constructor
  · rintro ⟨options, h⟩
    exact (parseArgs_eq_run_iff.1 h).1
  · intro h
    obtain ⟨options, -, hparse⟩ := h.parseArgs_eq
    exact ⟨options, hparse⟩

/-- **A run can name two inputs.**  In the other order they are refused. -/
theorem run_names_two_inputs :
    parseArgs ["-", "x.php"] = .ok (.run { file? := some "x.php" }) ∧
      positionals (argItems ["-", "x.php"]) = ["-", "x.php"] ∧
      parseArgs ["x.php", "-"] = .error .secondFile := by
  decide

end CodeMarkup
