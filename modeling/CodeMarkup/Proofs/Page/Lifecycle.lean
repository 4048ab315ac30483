import CodeMarkup.Proofs.Page.Registry

/-!
# The life of a block

Languages are added, highlighting is switched on and off, blocks are created and highlighted, in any
order.  What has become of a block is then decided by one step of this history: the first one that
is applied to the block while the highlighter is switched on and knows one of its tags.

* `PageAction`, `Page.act`, `Page.run` — what can be done on a page, and histories.
* `Highlighter.Treats` — what highlighting makes of one block, and why (`Highlighter.Sound.treats`).
* `Page.Processes` — an action processes a block; `Page.Lives` — what has become of a block since
  its creation.
* `Page.act_of_processes`, `Page.act_of_not_processes`, `Page.act_of_processed` — one step of a
  block, by what the action does to it.
* `Page.run_eq_some_iff_lives` — after any actions, a block that was new is what its life has made
  of it.
-/

namespace CodeMarkup

/-! ## Pages and their history -/

/-- What can be done on a page. -/
inductive PageAction where
  /-- Registers a language, which may be known by name already or claim the tags of others. -/
  | addLanguage (language : Language)
  /-- Switches the highlighter on if it is off, and off if it is on. -/
  | toggle
  /-- Switches the highlighter on or off, as `enabled` says. -/
  | setEnabled (enabled : Bool)
  /-- Creates a block with one language tag, or with none. -/
  | addBlock (source : List Char) (language? : Option String)
  /-- Creates a block with the tags that a class list declares. -/
  | addClassedBlock (source classes : List Char)
  /-- Highlights one block. -/
  | highlightBlock (index : Nat)
  /-- Highlights all of some neighbouring blocks. -/
  | highlightAll (first count : Nat)

/-- A page: a highlighter and the blocks that have been created. -/
structure Page where
  /-- The highlighter of the page. -/
  highlighter : Highlighter
  /-- The blocks, in the order of their creation. -/
  blocks : List Block := []

namespace Page

/-- A page after an action. -/
def act (page : Page) : PageAction → Page
  | .addLanguage language => { page with highlighter := page.highlighter.addLanguage language }
  | .toggle => { page with highlighter := page.highlighter.toggle }
  | .setEnabled enabled => { page with highlighter := { page.highlighter with enabled } }
  | .addBlock source language? =>
    { page with blocks := page.blocks ++ [.ofSource source language?] }
  | .addClassedBlock source classes =>
    { page with blocks := page.blocks ++ [.ofClasses source classes] }
  | .highlightBlock index =>
    { page with blocks := page.blocks.modify index fun block =>
        (page.highlighter.highlightBlock block).1 }
  | .highlightAll first count =>
    { page with blocks := page.blocks.take first ++
        (page.highlighter.highlightAll ((page.blocks.drop first).take count)).1 ++
        (page.blocks.drop first).drop count }

/-- A page after several actions. -/
def run (page : Page) (actions : List PageAction) : Page := actions.foldl act page

end Page

namespace PageAction

/-- The source and the tags of the block that an action creates, if it creates one. -/
def creates? : PageAction → Option (List Char × List String)
  | addBlock source language? => some (source, language?.toList)
  | addClassedBlock source classes => some (source, languagesOfClasses classes)
  | _ => none

/-- An action is applied to the block at a position. -/
def Touches : PageAction → Nat → Prop
  | highlightBlock index, i => i = index
  | highlightAll first count, i => first ≤ i ∧ i < first + count
  | _, _ => False

end PageAction

/-! ## What becomes of a block -/

namespace Page

/-- An action processes a block with some tags: it is applied to the block while the highlighter is
switched on and one of the tags is registered. -/
def Processes (page : Page) (action : PageAction) (i : Nat) (tags : List String) : Prop :=
  action.Touches i ∧ page.highlighter.enabled = true ∧ ∃ tag ∈ tags, tag ∈ page.highlighter.tags

/-- No one of the actions processes the block at a position, when its turn comes. -/
def NeverProcesses (page : Page) (actions : List PageAction) (i : Nat) (tags : List String) :
    Prop :=
  ∀ before action after, actions = before ++ action :: after →
    ¬ (page.run before).Processes action i tags

/-- What has become of a block on a page where it was new, after some actions: its content is its
source as long as no action processes it, and from the first action that does the markup of its
source in the language of its tags at that time. -/
def Lives (page : Page) (actions : List PageAction) (i : Nat) (source : List Char)
    (tags : List String) (block : Block) : Prop :=
  page.NeverProcesses actions i tags ∧ block = ⟨source, tags, source, .unprocessed⟩ ∨
  ∃ before action after language, actions = before ++ action :: after ∧
    page.NeverProcesses before i tags ∧ (page.run before).Processes action i tags ∧
    (page.run before).highlighter.Resolves tags language ∧
    block = ⟨source, tags, language.highlight page.highlighter.lead source, .processed⟩

end Page

/-! ## One block -/

namespace Highlighter

variable {highlighter : Highlighter} {block : Block} {source : List Char} {tags : List String}

/-- What becomes of a block, and why: it stays as it is for the first reason that holds, or it gets
the markup of its source in the language of its tags. -/
inductive Treats (highlighter : Highlighter) (block : Block) : Block × Outcome → Prop
  /-- It has been processed before. -/
  | alreadyProcessed (hstate : block.state = .processed) :
      Treats highlighter block (block, .alreadyProcessed)
  /-- The highlighter is switched off. -/
  | disabled (hstate : block.state = .unprocessed) (henabled : highlighter.enabled = false) :
      Treats highlighter block (block, .disabled)
  /-- It has no tags. -/
  | untagged (hstate : block.state = .unprocessed) (henabled : highlighter.enabled = true)
      (htags : block.languages = []) : Treats highlighter block (block, .untagged)
  /-- It has tags, and none of them is registered. -/
  | unsupported (hstate : block.state = .unprocessed) (henabled : highlighter.enabled = true)
      (htags : block.languages ≠ []) (hnone : ∀ tag ∈ block.languages, tag ∉ highlighter.tags) :
      Treats highlighter block (block, .unsupported)
  /-- One of its tags is registered. -/
  | highlighted {language : Language} (hstate : block.state = .unprocessed)
      (henabled : highlighter.enabled = true)
      (hlanguage : highlighter.Resolves block.languages language) :
      Treats highlighter block
        (block.withMarkup (language.highlight highlighter.lead block.source), .highlighted)

theorem Resolves.ne_nil {language : Language} (h : highlighter.Resolves tags language) :
    tags ≠ [] := by
  obtain ⟨before, tag, after, rfl, -⟩ := h
  simp

/-- A pass over several blocks makes of each what highlighting makes of it alone. -/
theorem highlightAll_fst (highlighter : Highlighter) (blocks : List Block) :
    (highlighter.highlightAll blocks).1 =
      blocks.map fun block => (highlighter.highlightBlock block).1 := by
  simp [highlightAll]

theorem highlightBlock_of_isProcessed (h : block.isProcessed = true) :
    (highlighter.highlightBlock block).1 = block := by
  simp [highlightBlock, h]

namespace Treats

variable {result : Block × Outcome}

theorem highlightBlock_eq (h : highlighter.Treats block result) (hsound : highlighter.Sound) :
    highlighter.highlightBlock block = result := by
  unfold highlightBlock
  cases h with
  | alreadyProcessed hstate => simp [Block.isProcessed, hstate]
  | disabled hstate henabled => simp [Block.isProcessed, hstate, henabled]
  | untagged hstate henabled htags => simp [Block.isProcessed, hstate, henabled, htags]
  | unsupported hstate henabled htags hnone =>
    have hfind := hsound.findSome?_eq_none_iff.2 hnone
    simp [Block.isProcessed, hstate, henabled, htags, hfind]
  | highlighted hstate henabled hlanguage =>
    have hfind := hsound.findSome?_eq_some_iff.2 hlanguage
    simp [Block.isProcessed, hstate, henabled, hlanguage.ne_nil, hfind]

/-- A block that does not become markup is left as it is. -/
theorem eq_of_ne (h : highlighter.Treats block result) (hne : result.2 ≠ .highlighted) :
    result.1 = block := by
  cases h with
  | alreadyProcessed | disabled | untagged | unsupported => rfl
  | highlighted => exact absurd rfl hne

/-- A block becomes markup exactly if it was not processed before and is processed now. -/
theorem outcome_eq_highlighted_iff (h : highlighter.Treats block result) :
    result.2 = .highlighted ↔ block.state = .unprocessed ∧ result.1.state = .processed := by
  cases h with
  | alreadyProcessed hstate | disabled hstate | untagged hstate | unsupported hstate =>
    simp [hstate]
  | highlighted hstate => simp [hstate, Block.withMarkup]

/-- A block is processed now if it was so before, or if the highlighter is switched on and one of
its tags is registered. -/
theorem state_eq_processed_iff (h : highlighter.Treats block result) :
    result.1.state = .processed ↔ block.state = .processed ∨
      highlighter.enabled = true ∧ ∃ tag ∈ block.languages, tag ∈ highlighter.tags := by
  cases h with
  | alreadyProcessed hstate => simp [hstate]
  | disabled hstate henabled => simp [hstate, henabled]
  | untagged hstate henabled htags => simp [hstate, htags]
  | unsupported hstate henabled htags hnone => simpa [hstate, henabled] using hnone
  | highlighted hstate henabled hlanguage =>
    obtain ⟨before, tag, after, htags, -, hregistered, -⟩ := hlanguage
    exact iff_of_true rfl (.inr ⟨henabled, tag, by simp [htags], hregistered⟩)

end Treats

/-- Highlighting treats every block. -/
theorem Sound.treats (hsound : highlighter.Sound) (block : Block) :
    highlighter.Treats block (highlighter.highlightBlock block) := by
  have hexists : ∃ result, highlighter.Treats block result := by
    cases hstate : block.state with
    | processed => exact ⟨_, .alreadyProcessed hstate⟩
    | unprocessed =>
      by_cases henabled : highlighter.enabled = true
      · by_cases htags : block.languages = []
        · exact ⟨_, .untagged hstate henabled htags⟩
        · cases hfind : block.languages.findSome? highlighter.languageForTag? with
          | none =>
            exact ⟨_, .unsupported hstate henabled htags (hsound.findSome?_eq_none_iff.1 hfind)⟩
          | some language =>
            exact ⟨_, .highlighted hstate henabled (hsound.findSome?_eq_some_iff.1 hfind)⟩
      · exact ⟨_, .disabled hstate (by simpa using henabled)⟩
  obtain ⟨result, h⟩ := hexists
  rw [h.highlightBlock_eq hsound]
  exact h

/-- A new block is processed if the highlighter is switched on and the tags have a language. -/
theorem highlightBlock_of_resolves {language : Language} (hsound : highlighter.Sound)
    (henabled : highlighter.enabled = true) (h : highlighter.Resolves tags language) :
    (highlighter.highlightBlock ⟨source, tags, source, .unprocessed⟩).1 =
      ⟨source, tags, language.highlight highlighter.lead source, .processed⟩ :=
  congrArg Prod.fst ((Treats.highlighted rfl henabled h).highlightBlock_eq hsound)

theorem highlightBlock_of_unregistered (hsound : highlighter.Sound)
    (h : ¬ (highlighter.enabled = true ∧ ∃ tag ∈ tags, tag ∈ highlighter.tags)) :
    (highlighter.highlightBlock ⟨source, tags, source, .unprocessed⟩).1 =
      ⟨source, tags, source, .unprocessed⟩ := by
  have htreats := hsound.treats ⟨source, tags, source, .unprocessed⟩
  refine htreats.eq_of_ne fun houtcome => ?_
  obtain ⟨-, hprocessed⟩ := htreats.outcome_eq_highlighted_iff.1 houtcome
  rcases htreats.state_eq_processed_iff.1 hprocessed with hstate | hregistered
  · cases hstate
  · exact h hregistered

end Highlighter

/-! ## One action -/

/-- A list with a function applied to some neighbouring members. -/
theorem getElem?_map_between {α : Type} (f : α → α) {xs : List α} (first count : Nat) {i : Nat}
    (hi : i < xs.length) :
    (xs.take first ++ ((xs.drop first).take count).map f ++ (xs.drop first).drop count)[i]? =
      if first ≤ i ∧ i < first + count then xs[i]?.map f else xs[i]? := by
  rcases Nat.lt_or_ge i first with hfirst | hfirst
  · rw [if_neg (by omega), List.append_assoc, List.getElem?_append_left (by simp; omega),
      List.getElem?_take_of_lt hfirst]
  · have hbefore : (xs.take first).length = first := by simp; omega
    rw [List.append_assoc, List.getElem?_append_right (by omega), hbefore]
    rcases Nat.lt_or_ge i (first + count) with hlast | hlast
    · rw [if_pos ⟨hfirst, hlast⟩, List.getElem?_append_left (by simp; omega), List.getElem?_map,
        List.getElem?_take_of_lt (by omega), List.getElem?_drop, Nat.add_sub_cancel' hfirst]
    · have hbetween : (((xs.drop first).take count).map f).length = count := by simp; omega
      rw [if_neg (by omega), List.getElem?_append_right (by omega), hbetween, List.getElem?_drop,
        List.getElem?_drop]
      congr 1
      omega

namespace Page

variable {page : Page} {action : PageAction} {i : Nat} {block : Block} {source : List Char}
  {tags : List String}

theorem act_sound (h : page.highlighter.Sound) (action : PageAction) :
    (page.act action).highlighter.Sound := by
  cases action with
  | addLanguage language => exact h.addLanguage language
  | _ => exact h

theorem act_lead (action : PageAction) :
    (page.act action).highlighter.lead = page.highlighter.lead := by
  cases action <;> rfl

theorem act_of_creates? (h : action.creates? = some (source, tags)) :
    (page.act action).blocks = page.blocks ++ [⟨source, tags, source, .unprocessed⟩] := by
  cases action <;> cases h <;> rfl

/-- An action that creates no block keeps their number. -/
theorem length_act_of_creates?_eq_none (h : action.creates? = none) :
    (page.act action).blocks.length = page.blocks.length := by
  cases action with
  | addBlock | addClassedBlock => cases h
  | addLanguage | toggle | setEnabled => rfl
  | highlightBlock index => simp [act]
  | highlightAll first count =>
    simp [act, Highlighter.highlightAll_fst]
    omega

theorem getElem?_act_highlightAll (first count : Nat) (h : page.blocks[i]? = some block) :
    (page.act (.highlightAll first count)).blocks[i]? =
      some (if first ≤ i ∧ i < first + count then (page.highlighter.highlightBlock block).1
        else block) := by
  simp only [act, Highlighter.highlightAll_fst]
  rw [getElem?_map_between _ first count (List.getElem?_eq_some_iff.1 h).1, h]
  split <;> rfl

/-- An action changes the blocks that it is applied to, each by itself. -/
theorem act_of_touches (htouches : action.Touches i) (h : page.blocks[i]? = some block) :
    (page.act action).blocks[i]? = some (page.highlighter.highlightBlock block).1 := by
  cases action with
  | highlightBlock index =>
    obtain rfl : i = index := htouches
    simp [act, h]
  | highlightAll first count =>
    exact (getElem?_act_highlightAll first count h).trans (congrArg some (if_pos htouches))
  | _ => cases htouches

theorem act_of_not_touches (htouches : ¬ action.Touches i) (h : page.blocks[i]? = some block) :
    (page.act action).blocks[i]? = some block := by
  have happend : ∀ new : Block, (page.blocks ++ [new])[i]? = some block := fun new => by
    rw [List.getElem?_append_left (List.getElem?_eq_some_iff.1 h).1, h]
  cases action with
  | addLanguage | toggle | setEnabled => exact h
  | addBlock source language? => exact happend _
  | addClassedBlock source classes => exact happend _
  | highlightBlock index =>
    have hne : index ≠ i := fun heq => htouches heq.symm
    simp [act, hne, h]
  | highlightAll first count =>
    exact (getElem?_act_highlightAll first count h).trans (congrArg some (if_neg htouches))

/-- A processed block is never changed again. -/
theorem act_of_processed (action : PageAction) (h : page.blocks[i]? = some block)
    (hprocessed : block.isProcessed = true) : (page.act action).blocks[i]? = some block := by
  by_cases htouches : action.Touches i
  · rw [act_of_touches htouches h, Highlighter.highlightBlock_of_isProcessed hprocessed]
  · exact act_of_not_touches htouches h

/-- A block that an action does not process stays as it was created. -/
theorem act_of_not_processes (hsound : page.highlighter.Sound)
    (h : page.blocks[i]? = some ⟨source, tags, source, .unprocessed⟩)
    (hnot : ¬ page.Processes action i tags) :
    (page.act action).blocks[i]? = some ⟨source, tags, source, .unprocessed⟩ := by
  by_cases htouches : action.Touches i
  · have hunregistered := fun henabled => hnot ⟨htouches, henabled⟩
    rw [act_of_touches htouches h, Highlighter.highlightBlock_of_unregistered hsound hunregistered]
  · exact act_of_not_touches htouches h

/-- A block that an action processes gets the markup of its source. -/
theorem act_of_processes {language : Language} (hsound : page.highlighter.Sound)
    (h : page.blocks[i]? = some ⟨source, tags, source, .unprocessed⟩)
    (hprocesses : page.Processes action i tags)
    (hlanguage : page.highlighter.Resolves tags language) :
    (page.act action).blocks[i]? =
      some ⟨source, tags, language.highlight page.highlighter.lead source, .processed⟩ := by
  obtain ⟨htouches, henabled, -⟩ := hprocesses
  rw [act_of_touches htouches h, Highlighter.highlightBlock_of_resolves hsound henabled hlanguage]

/-- Tags of which one is registered have a language. -/
theorem Processes.exists_resolves (hsound : page.highlighter.Sound)
    (h : page.Processes action i tags) : ∃ language, page.highlighter.Resolves tags language := by
  obtain ⟨-, -, tag, hmem, hregistered⟩ := h
  cases hfind : tags.findSome? page.highlighter.languageForTag? with
  | none => exact absurd hregistered (hsound.findSome?_eq_none_iff.1 hfind tag hmem)
  | some language => exact ⟨language, hsound.findSome?_eq_some_iff.1 hfind⟩

/-! ## Histories -/

variable {actions : List PageAction}

theorem run_append (page : Page) (before after : List PageAction) :
    page.run (before ++ after) = (page.run before).run after :=
  List.foldl_append

theorem run_sound (h : page.highlighter.Sound) (actions : List PageAction) :
    (page.run actions).highlighter.Sound := by
  induction actions generalizing page with
  | nil => exact h
  | cons action actions ih => exact ih (act_sound h action)

theorem run_lead (page : Page) (actions : List PageAction) :
    (page.run actions).highlighter.lead = page.highlighter.lead := by
  induction actions generalizing page with
  | nil => rfl
  | cons action actions ih => exact (ih (page.act action)).trans (act_lead action)

theorem run_of_processed (actions : List PageAction) (h : page.blocks[i]? = some block)
    (hprocessed : block.isProcessed = true) : (page.run actions).blocks[i]? = some block := by
  induction actions generalizing page with
  | nil => exact h
  | cons action actions ih => exact ih (act_of_processed action h hprocessed)

theorem neverProcesses_nil : page.NeverProcesses [] i tags :=
  fun before action after heq => by simp at heq

theorem NeverProcesses.head {action : PageAction}
    (h : page.NeverProcesses (action :: actions) i tags) : ¬ page.Processes action i tags :=
  h [] action actions rfl

theorem NeverProcesses.tail {action : PageAction}
    (h : page.NeverProcesses (action :: actions) i tags) :
    (page.act action).NeverProcesses actions i tags := by
  rintro before next after rfl
  exact h (action :: before) next after rfl

theorem neverProcesses_cons {action : PageAction} (hhead : ¬ page.Processes action i tags)
    (htail : (page.act action).NeverProcesses actions i tags) :
    page.NeverProcesses (action :: actions) i tags := by
  intro before next after heq
  cases before with
  | nil =>
    obtain ⟨rfl, -⟩ := List.cons.inj heq
    exact hhead
  | cons first before =>
    obtain ⟨rfl, rfl⟩ := List.cons.inj heq
    exact htail before next after rfl

theorem run_of_neverProcesses (hsound : page.highlighter.Sound)
    (h : page.blocks[i]? = some ⟨source, tags, source, .unprocessed⟩)
    (hnever : page.NeverProcesses actions i tags) :
    (page.run actions).blocks[i]? = some ⟨source, tags, source, .unprocessed⟩ := by
  induction actions generalizing page with
  | nil => exact h
  | cons action actions ih =>
    exact ih (act_sound hsound action) (act_of_not_processes hsound h hnever.head) hnever.tail

/-- Either no action processes a block, or there is a first one that does. -/
theorem neverProcesses_or_first (page : Page) (actions : List PageAction) (i : Nat)
    (tags : List String) :
    page.NeverProcesses actions i tags ∨
      ∃ before action after, actions = before ++ action :: after ∧
        page.NeverProcesses before i tags ∧ (page.run before).Processes action i tags := by
  induction actions generalizing page with
  | nil => exact .inl neverProcesses_nil
  | cons action actions ih =>
    by_cases hprocesses : page.Processes action i tags
    · exact .inr ⟨[], action, actions, rfl, neverProcesses_nil, hprocesses⟩
    · rcases ih (page.act action) with hnever | ⟨before, next, after, rfl, hnever, hnext⟩
      · exact .inl (neverProcesses_cons hprocesses hnever)
      · have hnever := neverProcesses_cons hprocesses hnever
        exact .inr ⟨action :: before, next, after, rfl, hnever, hnext⟩

/-- The first action that processes a block settles it. -/
theorem run_of_first {before after : List PageAction} {language : Language}
    (hsound : page.highlighter.Sound)
    (h : page.blocks[i]? = some ⟨source, tags, source, .unprocessed⟩)
    (hnever : page.NeverProcesses before i tags)
    (hprocesses : (page.run before).Processes action i tags)
    (hlanguage : (page.run before).highlighter.Resolves tags language) :
    (page.run (before ++ action :: after)).blocks[i]? =
      some ⟨source, tags, language.highlight page.highlighter.lead source, .processed⟩ := by
  have hbefore := run_of_neverProcesses hsound h hnever
  have hmarkup := act_of_processes (run_sound hsound before) hbefore hprocesses hlanguage
  rw [run_lead] at hmarkup
  rw [run_append]
  exact run_of_processed after hmarkup rfl

/-- After some actions, a block that was new is what its life has made of it. -/
theorem run_eq_some_iff_lives (hsound : page.highlighter.Sound)
    (h : page.blocks[i]? = some ⟨source, tags, source, .unprocessed⟩) :
    (page.run actions).blocks[i]? = some block ↔ page.Lives actions i source tags block := by
  constructor
  · intro hblock
    rcases neverProcesses_or_first page actions i tags with
      hnever | ⟨before, action, after, rfl, hnever, hprocesses⟩
    · have hstays := run_of_neverProcesses hsound h hnever
      exact .inl ⟨hnever, Option.some.inj (hblock.symm.trans hstays)⟩
    · obtain ⟨language, hlanguage⟩ := hprocesses.exists_resolves (run_sound hsound before)
      have hmarkup : (page.run (before ++ action :: after)).blocks[i]? = some _ :=
        run_of_first hsound h hnever hprocesses hlanguage
      exact .inr ⟨before, action, after, language, rfl, hnever, hprocesses, hlanguage,
        Option.some.inj (hblock.symm.trans hmarkup)⟩
  · rintro (⟨hnever, rfl⟩ | ⟨before, action, after, language, rfl, hnever, hprocesses, hlanguage,
      rfl⟩)
    · exact run_of_neverProcesses hsound h hnever
    · exact run_of_first hsound h hnever hprocesses hlanguage

/-! ## From the creation on -/

/-- A block that has come into being was created by one of the actions. -/
theorem exists_creates? (hnew : page.blocks.length ≤ i)
    (hlt : i < (page.run actions).blocks.length) :
    ∃ before create later source tags, actions = before ++ create :: later ∧
      create.creates? = some (source, tags) ∧ (page.run before).blocks.length = i := by
  induction actions generalizing page with
  | nil => exact absurd hlt (Nat.not_lt.2 hnew)
  | cons action actions ih =>
    rcases Nat.lt_or_ge i (page.act action).blocks.length with hhere | hlater
    · cases hcreates : action.creates? with
      | none =>
        rw [length_act_of_creates?_eq_none hcreates] at hhere
        exact absurd hhere (Nat.not_lt.2 hnew)
      | some created =>
        obtain ⟨source, tags⟩ := created
        refine ⟨[], action, actions, source, tags, rfl, hcreates, ?_⟩
        rw [act_of_creates? hcreates, List.length_append, List.length_singleton] at hhere
        exact Nat.le_antisymm hnew (Nat.le_of_lt_succ hhere)
    · obtain ⟨before, create, later, source, tags, rfl, hcreates, hlength⟩ := ih hlater hlt
      exact ⟨action :: before, create, later, source, tags, rfl, hcreates, hlength⟩

/-- A page without blocks, with a new highlighter. -/
def start (origin : Highlighter.Origin) : Page := ⟨origin.highlighter, []⟩

/-- **The life of a block.**  After any history of a page, a block keeps the source and the tags
with which it was created.  Its content is the source until the first action that is applied to it
while the highlighter is switched on and knows one of its tags; from then on it is the markup in the
language that the first registered tag stood for at that time. -/
theorem run_blocks_iff (origin : Highlighter.Origin) (actions : List PageAction) (i : Nat)
    (block : Block) :
    ((start origin).run actions).blocks[i]? = some block ↔
      ∃ before create later source tags, actions = before ++ create :: later ∧
        create.creates? = some (source, tags) ∧ ((start origin).run before).blocks.length = i ∧
        (((start origin).run before).act create).Lives later i source tags block := by
  have hnew : ∀ {before create source tags}, create.creates? = some (source, tags) →
      ((start origin).run before).blocks.length = i →
      (((start origin).run before).act create).blocks[i]? =
        some ⟨source, tags, source, .unprocessed⟩ := by
    rintro before create source tags hcreates rfl
    rw [act_of_creates? hcreates, List.getElem?_concat_length]
  have hsound : ∀ before create,
      (((start origin).run before).act create).highlighter.Sound := fun before create =>
    act_sound (run_sound origin.sound before) create
  constructor
  · intro hblock
    have hlt := (List.getElem?_eq_some_iff.1 hblock).1
    obtain ⟨before, create, later, source, tags, rfl, hcreates, hlength⟩ :=
      exists_creates? (Nat.zero_le i) hlt
    rw [run_append] at hblock
    exact ⟨before, create, later, source, tags, rfl, hcreates, hlength,
      (run_eq_some_iff_lives (hsound before create) (hnew hcreates hlength)).1 hblock⟩
  · rintro ⟨before, create, later, source, tags, rfl, hcreates, hlength, hlives⟩
    rw [run_append]
    exact (run_eq_some_iff_lives (hsound before create) (hnew hcreates hlength)).2 hlives

end Page

end CodeMarkup
