import CodeMarkup.Proofs.Markup.Lossless
import CodeMarkup.Proofs.Page.Lifecycle
import CodeMarkup.Proofs.Text.Words

/-!
# Class attributes on a page

The lead of class names goes into a class attribute as it is, and it is read from a settings file.
A file could use it to close the attribute, to add a class or to bring a tag of its own.  No file
can: a lead is taken over only if it could be a class by itself, and nothing that is done on a page
changes it.

* `IsClassToken` — a text that is one class and stays inside its attribute.
* `Settings.Loaded` — settings that come from a settings file; their lead is such a text
  (`Settings.Loaded.isClassToken`).
* `OnlySpans` — markup in which every tag closes a span or opens one with a single class.  All
  markup with a valid lead is such (`onlySpans_highlight`), and so is what a block shows, which each
  action on a page keeps (`Page.act_processed_onlySpans`).
-/

namespace CodeMarkup

/-! ## Classes -/

/-- A text that is one class and needs no escapes in a class attribute. -/
structure IsClassToken (token : List Char) : Prop where
  /-- It is a class at all. -/
  ne_nil : token ≠ []
  /-- It is not parted into two classes. -/
  notBlank : ∀ c ∈ token, isBlank c = false
  /-- It ends neither the attribute nor the tag. -/
  notReserved : ∀ c ∈ token, c ∉ ['<', '>', '&', '"', '\'']

theorem isReserved_eq_false_iff {c : Char} :
    Settings.isReserved c = false ↔ isBlank c = false ∧ c ∉ ['<', '>', '&', '"', '\''] := by
  simp only [Settings.isReserved, Bool.or_eq_false_iff, List.contains_eq_mem,
    decide_eq_false_iff_not]

/-- A lead is valid if it is a class by itself. -/
theorem isValidLead_iff {lead : List Char} :
    Settings.isValidLead lead = true ↔ IsClassToken lead := by
  simp only [Settings.isValidLead, Bool.and_eq_true, Bool.not_eq_true', List.any_eq_false,
    Bool.not_eq_true, isReserved_eq_false_iff, List.isEmpty_eq_false_iff]
  constructor
  · rintro ⟨hne, h⟩
    exact ⟨hne, fun c hc => (h c hc).1, fun c hc => (h c hc).2⟩
  · intro h
    exact ⟨h.ne_nil, fun c hc => ⟨h.notBlank c hc, h.notReserved c hc⟩⟩

theorem TokenClass.isClassToken_name (c : TokenClass) : IsClassToken c.name.toList :=
  isValidLead_iff.1 (by cases c <;> decide)

namespace IsClassToken

variable {token lead : List Char}

/-- A class name behind a lead is one class. -/
theorem cssClass (h : IsClassToken lead) (c : TokenClass) : IsClassToken (c.cssClass lead) where
  ne_nil := List.append_ne_nil_of_left_ne_nil h.ne_nil _
  notBlank := List.forall_mem_append.2 ⟨h.notBlank, c.isClassToken_name.notBlank⟩
  notReserved := List.forall_mem_append.2 ⟨h.notReserved, c.isClassToken_name.notReserved⟩

theorem isWord (h : IsClassToken token) : IsWord token := ⟨h.ne_nil, h.notBlank⟩

end IsClassToken

/-! ## Tags of spans -/

/-- What stands before the value of the class attribute in the tag that opens a span. -/
def classAttributeLead : List Char := "<span class=\"".toList

/-- At the head of a text stands the tag that opens a span whose class attribute is `token`: the
value of the attribute, which ends at the first quotation mark, is `token`, which is one class. -/
structure StartsSpan (token text : List Char) : Prop where
  tag : classAttributeLead ++ token ++ "\">".toList <+: text
  value : (text.drop classAttributeLead.length).takeWhile (· != '"') = token
  classes : words token = [token]
  isClassToken : IsClassToken token

theorem IsClassToken.startsSpan {token text : List Char} (h : IsClassToken token)
    (htag : classAttributeLead ++ token ++ "\">".toList <+: text) : StartsSpan token text := by
  refine ⟨htag, ?_, h.isWord.words_eq, h⟩
  obtain ⟨rest, rfl⟩ := htag
  have hquote : ∀ c ∈ token, (c != '"') = true := fun c hc => by
    have hmem := h.notReserved c hc
    simp only [List.mem_cons, not_or] at hmem
    simpa using hmem.2.2.2.1
  rw [List.append_assoc, List.append_assoc, List.drop_left,
    List.takeWhile_append_of_pos hquote]
  simp

/-- Markup in which every tag closes a span or opens a span with a single class, which is a class
name behind the lead. -/
def OnlySpans (lead markup : List Char) : Prop :=
  ∀ before after, markup = before ++ '<' :: after →
    "</span>".toList <+: '<' :: after ∨
      ∃ c : TokenClass, StartsSpan (lead ++ c.name.toList) ('<' :: after)

theorem MarkupSafe.onlySpans {lead markup : List Char} (h : MarkupSafe lead markup)
    (hlead : IsClassToken lead) : OnlySpans lead markup := by
  intro before after hmarkup
  obtain ⟨tag, hmem, htag⟩ := h.opening before after hmarkup
  simp only [Mark.tags, List.mem_cons, List.mem_map] at hmem
  rcases hmem with rfl | ⟨c, -, rfl⟩
  · exact .inl htag
  · exact .inr ⟨c, (hlead.cssClass c).startsSpan htag⟩

theorem onlySpans_highlight {lead : List Char} (hlead : IsClassToken lead) (grammar : Grammar)
    (classifier : Classifier) (source : List Char) :
    OnlySpans lead (highlight grammar classifier lead source) :=
  (markupSafe_highlight grammar classifier source (isValidLead_iff.2 hlead)).onlySpans hlead

/-! ## Settings from a file -/

namespace Settings

/-- Settings that come from a settings file, with anything in it or with none there. -/
inductive Loaded : Settings → Prop where
  /-- They are read from a text. -/
  | ofText {text : List Char} {settings : Settings} (h : ofToml? text = some settings) :
    Loaded settings
  /-- They are read from what a path leads to. -/
  | ofTarget {file : PathTarget} {settings : Settings} (h : ofFile file = .ok settings) :
    Loaded settings
  /-- They are in force. -/
  | inForce (file? : Option PathTarget) : Loaded (load file?)

theorem isClassToken_default : IsClassToken ({} : Settings).lead :=
  isValidLead_iff.1 (by decide)

/-- Of a lead that is not valid, a table keeps nothing. -/
theorem isClassToken_ofTable (entries : Toml.Table) : IsClassToken (ofTable entries).lead := by
  have hitem : ∀ item lead, leadOfItem? item = some lead → IsClassToken lead := by
    intro item lead h
    cases item with
    | string text =>
      obtain ⟨hvalid, htext⟩ := Option.ite_none_right_eq_some.1 h
      exact Option.some.inj htext ▸ isValidLead_iff.1 hvalid
    | _ => cases h
  unfold ofTable
  cases h : (Toml.Table.get? "class-prefix".toList entries).bind leadOfItem? with
  | none => exact isClassToken_default
  | some lead =>
    obtain ⟨item, -, hlead⟩ := Option.bind_eq_some_iff.1 h
    exact hitem item lead hlead

theorem isClassToken_ofToml? {text : List Char} {settings : Settings}
    (h : ofToml? text = some settings) : IsClassToken settings.lead := by
  obtain ⟨entries, -, rfl⟩ := Option.map_eq_some_iff.1 h
  exact isClassToken_ofTable entries

theorem isClassToken_ofFile {file : PathTarget} {settings : Settings}
    (h : ofFile file = .ok settings) : IsClassToken settings.lead := by
  unfold ofFile at h
  split at h
  · cases h
    exact isClassToken_default
  · cases h
  · split at h
    · rename_i htoml
      cases h
      exact isClassToken_ofToml? htoml
    · cases h

/-- Whatever the file, the lead is one class. -/
theorem Loaded.isClassToken {settings : Settings} (h : settings.Loaded) :
    IsClassToken settings.lead := by
  cases h with
  | ofText h => exact isClassToken_ofToml? h
  | ofTarget h => exact isClassToken_ofFile h
  | inForce file? =>
    cases file? with
    | none => exact isClassToken_default
    | some file =>
      cases h : ofFile file with
      | ok settings => simpa [Settings.load, h] using isClassToken_ofFile h
      | error cause => simpa [Settings.load, h] using isClassToken_default

end Settings

/-! ## Blocks -/

namespace Highlighter

variable {highlighter : Highlighter}

/-- Highlighting leaves a block as it is, or gives it the markup of its source. -/
theorem highlightBlock_cases (highlighter : Highlighter) (block : Block) :
    ((highlighter.highlightBlock block).1 = block ∧
        (highlighter.highlightBlock block).2 ≠ .highlighted) ∨
      ∃ language : Language, highlighter.highlightBlock block =
        (block.withMarkup (language.highlight highlighter.lead block.source), .highlighted) := by
  unfold highlightBlock
  split
  · exact .inl ⟨rfl, nofun⟩
  · split
    · exact .inl ⟨rfl, nofun⟩
    · split
      · exact .inl ⟨rfl, nofun⟩
      · split
        · exact .inl ⟨rfl, nofun⟩
        · exact .inr ⟨_, rfl⟩

theorem onlySpans_highlightBlock (hlead : IsClassToken highlighter.lead) {block : Block}
    (h : (highlighter.highlightBlock block).2 = .highlighted) :
    OnlySpans highlighter.lead (highlighter.highlightBlock block).1.content := by
  rcases highlighter.highlightBlock_cases block with ⟨-, hne⟩ | ⟨language, heq⟩
  · exact absurd h hne
  · rw [heq]
    exact onlySpans_highlight hlead _ _ _

theorem onlySpans_highlightSource (hlead : IsClassToken highlighter.lead) {tag : String}
    {source markup : List Char} (h : highlighter.highlightSource tag source = .ok markup) :
    OnlySpans highlighter.lead markup := by
  unfold highlightSource at h
  split at h
  · cases h
  · cases h
    exact onlySpans_highlight hlead _ _ _

end Highlighter

namespace Page

variable {page : Page}

/-- What an action can have made of a block: it has created it, left it alone or highlighted it. -/
theorem mem_blocks_act {action : PageAction} {block : Block}
    (h : block ∈ (page.act action).blocks) :
    block.isProcessed = false ∨
      ∃ old ∈ page.blocks, block = old ∨ block = (page.highlighter.highlightBlock old).1 := by
  obtain ⟨i, hi⟩ := List.mem_iff_getElem?.1 h
  rcases Nat.lt_or_ge i page.blocks.length with hlt | hge
  · have hold : page.blocks[i]? = some page.blocks[i] := List.getElem?_eq_getElem hlt
    refine .inr ⟨page.blocks[i], List.getElem_mem hlt, ?_⟩
    by_cases htouches : action.Touches i
    · exact .inr (Option.some.inj (hi.symm.trans (act_of_touches htouches hold)))
    · exact .inl (Option.some.inj (hi.symm.trans (act_of_not_touches htouches hold)))
  · -- the block was not there before, so that the action has created it
    have hlength := (List.getElem?_eq_some_iff.1 hi).1
    cases hcreates : action.creates? with
    | none =>
      rw [length_act_of_creates?_eq_none hcreates] at hlength
      exact absurd hlength (Nat.not_lt.2 hge)
    | some created =>
      rw [act_of_creates? hcreates, List.getElem?_append_right hge,
        List.getElem?_singleton] at hi
      obtain ⟨-, hblock⟩ := Option.ite_none_right_eq_some.1 hi
      obtain rfl := Option.some.inj hblock
      exact .inl rfl

/-- What processed blocks show has only spans. -/
def ProcessedOnlySpans (page : Page) : Prop :=
  ∀ block ∈ page.blocks, block.isProcessed = true → OnlySpans page.highlighter.lead block.content

theorem act_processed_onlySpans (hlead : IsClassToken page.highlighter.lead)
    (h : page.ProcessedOnlySpans) (action : PageAction) :
    (page.act action).ProcessedOnlySpans := by
  intro block hmem hprocessed
  rw [act_lead]
  rcases mem_blocks_act hmem with hnew | ⟨old, hold, rfl | rfl⟩
  · rw [hnew] at hprocessed
    cases hprocessed
  · exact h block hold hprocessed
  · rcases page.highlighter.highlightBlock_cases old with ⟨heq, -⟩ | ⟨language, heq⟩
    · rw [heq] at hprocessed ⊢
      exact h old hold hprocessed
    · exact Highlighter.onlySpans_highlightBlock hlead (congrArg Prod.snd heq)

theorem run_processed_onlySpans (hlead : IsClassToken page.highlighter.lead)
    (h : page.ProcessedOnlySpans) (actions : List PageAction) :
    (page.run actions).ProcessedOnlySpans := by
  induction actions generalizing page with
  | nil => exact h
  | cons action actions ih =>
    exact ih (by rw [act_lead]; exact hlead) (act_processed_onlySpans hlead h action)

/-- **No settings file brings markup of its own.**  The lead of settings that come from a file is
one class.  After any history of a page with these settings, every tag in markup, of a source or of
a block, closes a span or opens one with a single class, which is a class name behind the lead. -/
theorem run_onlySpans {settings : Settings} (h : settings.Loaded) (actions : List PageAction) :
    let page := (start (.ofSettings settings)).run actions
    IsClassToken settings.lead ∧
      (∀ tag source markup, page.highlighter.highlightSource tag source = .ok markup →
        OnlySpans settings.lead markup) ∧
      (∀ block, (page.highlighter.highlightBlock block).2 = .highlighted →
        OnlySpans settings.lead (page.highlighter.highlightBlock block).1.content) ∧
      ∀ block ∈ page.blocks, block.isProcessed = true → OnlySpans settings.lead block.content := by
  intro page
  have hsettings : page.highlighter.lead = settings.lead := run_lead _ actions
  have hlead : IsClassToken page.highlighter.lead := hsettings ▸ h.isClassToken
  have hblocks : page.ProcessedOnlySpans :=
    run_processed_onlySpans h.isClassToken (by intro block hmem; cases hmem) actions
  rw [← hsettings]
  exact ⟨hlead, fun _ _ _ => Highlighter.onlySpans_highlightSource hlead,
    fun _ => Highlighter.onlySpans_highlightBlock hlead, hblocks⟩

/-- A file with a lead of its own, on a page that is switched off and on again. -/
theorem run_onlySpans_lead :
    Settings.ofToml? "class-prefix = 'hl-'".toList = some ⟨true, "hl-".toList⟩ ∧
      ((start (.ofSettings ⟨true, "hl-".toList⟩)).run
          [.toggle, .toggle]).highlighter.highlightSource "bash" "cp a".toList =
        .ok "<span class=\"hl-func\">cp</span> a".toList ∧
      OnlySpans "hl-".toList "<span class=\"hl-func\">cp</span> a".toList := by
  have hsettings : Settings.ofToml? "class-prefix = 'hl-'".toList = some ⟨true, "hl-".toList⟩ := by
    decide +kernel
  have hlanguage : ((start (.ofSettings ⟨true, "hl-".toList⟩)).run
      [.toggle, .toggle]).highlighter.languageForTag? "bash" = some Language.bash := rfl
  have hbash : Language.bash.highlight "hl-".toList "cp a".toList =
      "<span class=\"hl-func\">cp</span> a".toList := by
    decide +kernel
  have hmarkup : ((start (.ofSettings ⟨true, "hl-".toList⟩)).run
      [.toggle, .toggle]).highlighter.highlightSource "bash" "cp a".toList =
        .ok "<span class=\"hl-func\">cp</span> a".toList := by
    rw [Highlighter.highlightSource, hlanguage, ← hbash]
    rfl
  have hspans := (run_onlySpans (.ofText hsettings) [.toggle, .toggle]).2.1
  exact ⟨hsettings, hmarkup, hspans _ _ _ hmarkup⟩

end Page

end CodeMarkup
