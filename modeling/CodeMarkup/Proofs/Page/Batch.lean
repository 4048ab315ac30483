import Mathlib.Data.List.Basic
import CodeMarkup.Proofs.Page.Lifecycle

/-!
# Highlighting many blocks

A highlighter goes through a list of blocks and counts those that become markup.  No block has an
effect on another one, so that the order of the list decides nothing but the order of the results.
What a first pass has made of the blocks is left alone by a second one.

* `Highlighter.blockChanges` — each block of a list with what has become of it, which goes with the
  block when the list is put into another order (`Highlighter.blockChanges_perm`).
* `Highlighter.Treats.again` — what one block has become, it stays.
* `Page.run_highlightAll` — one pass over any blocks, and the next one.
-/

namespace CodeMarkup

namespace Highlighter

variable {highlighter : Highlighter}

/-! ## One block, twice -/

/-- A block that has been highlighted once is left as it is, and does not become markup again. -/
theorem Treats.again {block : Block} {result : Block × Outcome}
    (h : highlighter.Treats block result) (hsound : highlighter.Sound) :
    (highlighter.highlightBlock result.1).1 = result.1 ∧
      (highlighter.highlightBlock result.1).2 ≠ .highlighted := by
  by_cases houtcome : result.2 = .highlighted
  · obtain ⟨-, hstate⟩ := h.outcome_eq_highlighted_iff.1 houtcome
    rw [(Treats.alreadyProcessed hstate).highlightBlock_eq hsound]
    exact ⟨rfl, nofun⟩
  · -- the block is the one it was, so that the same reason holds again
    have hsame : result.1 = block := h.eq_of_ne houtcome
    rw [hsame, h.highlightBlock_eq hsound]
    exact ⟨hsame, houtcome⟩

/-! ## A list of blocks -/

/-- The blocks of a list, each with what a pass over the list has made of it. -/
def blockChanges (highlighter : Highlighter) (blocks : List Block) : List (Block × Block) :=
  blocks.zip (highlighter.highlightAll blocks).1

theorem highlightAll_snd (highlighter : Highlighter) (blocks : List Block) :
    (highlighter.highlightAll blocks).2 =
      blocks.countP fun block => (highlighter.highlightBlock block).2 == .highlighted := by
  simp [highlightAll, List.countP_map, Function.comp_def]

theorem blockChanges_eq_map (highlighter : Highlighter) (blocks : List Block) :
    highlighter.blockChanges blocks =
      blocks.map fun block => (block, (highlighter.highlightBlock block).1) := by
  rw [blockChanges, highlightAll_fst, List.map_prod_left_eq_zip]

/-- What becomes of a block goes with it into every other order of the list. -/
theorem blockChanges_perm (highlighter : Highlighter) {blocks other : List Block}
    (h : other.Perm blocks) :
    (highlighter.blockChanges other).Perm (highlighter.blockChanges blocks) := by
  rw [blockChanges_eq_map, blockChanges_eq_map]
  exact h.map _

/-- The count of a pass is that of the blocks that were not processed before and are now. -/
theorem Sound.highlightAll_snd_eq (hsound : highlighter.Sound) (blocks : List Block) :
    (highlighter.highlightAll blocks).2 =
      (highlighter.blockChanges blocks).countP fun change =>
        change.1.state == .unprocessed && change.2.state == .processed := by
  rw [highlightAll_snd, blockChanges_eq_map, List.countP_map]
  refine List.countP_congr fun block _ => ?_
  simpa using (hsound.treats block).outcome_eq_highlighted_iff

/-- A second pass changes no block and counts none. -/
theorem Sound.highlightAll_again (hsound : highlighter.Sound) (blocks : List Block) :
    highlighter.highlightAll (highlighter.highlightAll blocks).1 =
      ((highlighter.highlightAll blocks).1, 0) := by
  have hagain : ∀ block ∈ (highlighter.highlightAll blocks).1,
      (highlighter.highlightBlock block).1 = block ∧
        (highlighter.highlightBlock block).2 ≠ .highlighted := by
    intro block hmem
    rw [highlightAll_fst] at hmem
    obtain ⟨old, -, rfl⟩ := List.mem_map.1 hmem
    exact (hsound.treats old).again hsound
  refine Prod.ext ?_ ?_
  · show (highlighter.highlightAll (highlighter.highlightAll blocks).1).1 = _
    rw [highlightAll_fst]
    conv_rhs => rw [← List.map_id (highlighter.highlightAll blocks).1]
    exact List.map_congr_left fun block hmem => (hagain block hmem).1
  · show (highlighter.highlightAll (highlighter.highlightAll blocks).1).2 = 0
    rw [highlightAll_snd, List.countP_eq_zero]
    intro block hmem
    simpa using (hagain block hmem).2

end Highlighter

/-- **Highlighting many blocks.**  After any history of a page, a pass over any blocks leaves each
of them as highlighting it alone would, and in another order of the list each block comes with the
same result.  The count of the pass is that of the blocks that were not processed before and are
now.  A block is processed now if it was so before, or if the highlighter is switched on and one of
its tags is registered; a block that does not become markup is not changed at all.  A second pass
changes nothing and counts none. -/
theorem Page.run_highlightAll (origin : Highlighter.Origin) (actions : List PageAction)
    (blocks : List Block) :
    let highlighter := ((start origin).run actions).highlighter
    let results := highlighter.highlightAll blocks
    results.1 = (blocks.map fun block => (highlighter.highlightBlock block).1) ∧
      (∀ other : List Block, other.Perm blocks →
        (highlighter.blockChanges other).Perm (highlighter.blockChanges blocks) ∧
          (highlighter.highlightAll other).2 = results.2) ∧
      results.2 = ((highlighter.blockChanges blocks).countP fun change =>
        change.1.state == .unprocessed && change.2.state == .processed) ∧
      (∀ change ∈ highlighter.blockChanges blocks,
        (change.2.state = .processed ↔ change.1.state = .processed ∨
          highlighter.enabled = true ∧ ∃ tag ∈ change.1.languages, tag ∈ highlighter.tags) ∧
        ((highlighter.highlightBlock change.1).2 ≠ .highlighted → change.2 = change.1)) ∧
      highlighter.highlightAll results.1 = (results.1, 0) := by
  intro highlighter results
  have hsound : highlighter.Sound := run_sound origin.sound actions
  refine ⟨Highlighter.highlightAll_fst highlighter blocks, ?_,
    hsound.highlightAll_snd_eq blocks, ?_, hsound.highlightAll_again blocks⟩
  · intro other hperm
    have hchanges := highlighter.blockChanges_perm hperm
    refine ⟨hchanges, ?_⟩
    rw [hsound.highlightAll_snd_eq, hsound.highlightAll_snd_eq]
    exact hchanges.countP_eq _
  · intro change hmem
    rw [Highlighter.blockChanges_eq_map] at hmem
    obtain ⟨block, -, rfl⟩ := List.mem_map.1 hmem
    exact ⟨(hsound.treats block).state_eq_processed_iff, (hsound.treats block).eq_of_ne⟩

end CodeMarkup
