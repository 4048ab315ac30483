import CodeMarkup.Proofs.Program.Run

/-!
# One source, three ways to its markup

A source can become a block of a page, it can be highlighted by itself, and it can be given to the
program.  The three ways look a tag up and treat a failure each in its own manner: a block that
cannot be highlighted is left alone, a source by itself is refused, and the program writes it as it
is.  They come to the same text.

* `Highlighter.ShowsFirst` — what a list of tags makes of a source: the markup of the first tag that
  has one.  It is what a new block shows (`Highlighter.Sound.showsFirst`).
* `Highlighter.Sound.renderOutput_eq` — the output of the program is what a new block shows.
* `dispatch_agrees` — the three ways, for every highlighter that a page can have.
-/

namespace CodeMarkup

namespace Highlighter

variable {highlighter : Highlighter} {tag : String} {tags : List String} {source : List Char}

/-! ## A source by itself -/

theorem highlightSource_of_language {language : Language}
    (h : highlighter.languageForTag? tag = some language) :
    highlighter.highlightSource tag source =
      .ok (language.highlight highlighter.lead source) := by
  simp [highlightSource, h]

/-- A source by itself is refused for one reason: its tag is not registered. -/
theorem Sound.highlightSource_eq_error_iff (hsound : highlighter.Sound) {error : UnknownLanguage} :
    highlighter.highlightSource tag source = .error error ↔
      tag ∉ highlighter.tags ∧ error = ⟨tag⟩ := by
  rw [← hsound.languageForTag?_eq_none_iff]
  unfold highlightSource
  cases highlighter.languageForTag? tag with
  | none => simp [eq_comm]
  | some language => simp

/-! ## What a new block shows -/

/-- What a list of tags makes of a source: the markup of the first tag for which the source is not
refused, or the source itself if it is refused for all of them. -/
def ShowsFirst (highlighter : Highlighter) (tags : List String) (source content : List Char) :
    Prop :=
  (∃ before tag after, tags = before ++ tag :: after ∧
      (∀ earlier ∈ before, highlighter.highlightSource earlier source = .error ⟨earlier⟩) ∧
      highlighter.highlightSource tag source = .ok content) ∨
    (∀ tag ∈ tags, highlighter.highlightSource tag source = .error ⟨tag⟩) ∧ content = source

/-- Of a list of one tag, the content is decided by that tag. -/
theorem showsFirst_singleton_iff {content : List Char} :
    highlighter.ShowsFirst [tag] source content ↔
      highlighter.highlightSource tag source = .ok content ∨
        highlighter.highlightSource tag source = .error ⟨tag⟩ ∧ content = source := by
  unfold ShowsFirst
  constructor
  · rintro (⟨before, first, after, htags, -, hmarkup⟩ | ⟨herror, hcontent⟩)
    · cases before with
      | nil =>
        obtain ⟨rfl, -⟩ := List.cons.inj htags
        exact .inl hmarkup
      | cons earlier before => simp at htags
    · exact .inr ⟨herror tag (List.mem_singleton_self tag), hcontent⟩
  · rintro (hmarkup | ⟨herror, hcontent⟩)
    · exact .inl ⟨[], tag, [], rfl, by simp, hmarkup⟩
    · exact .inr ⟨by simpa using herror, hcontent⟩

/-- A new block shows what its tags make of its source. -/
theorem Sound.showsFirst (hsound : highlighter.Sound) (henabled : highlighter.enabled = true)
    (tags : List String) (source : List Char) :
    highlighter.ShowsFirst tags source
      (highlighter.highlightBlock (.ofTags source tags)).1.content := by
  have hrefused : ∀ {tag}, tag ∉ highlighter.tags →
      highlighter.highlightSource tag source = .error ⟨tag⟩ :=
    fun h => hsound.highlightSource_eq_error_iff.2 ⟨h, rfl⟩
  have htreats := hsound.treats (.ofTags source tags)
  generalize highlighter.highlightBlock (.ofTags source tags) = result at htreats ⊢
  cases htreats with
  | alreadyProcessed hstate => cases hstate
  | disabled _ hdisabled => simp [henabled] at hdisabled
  | untagged _ _ htags =>
    obtain rfl : tags = [] := htags
    exact .inr ⟨by simp, rfl⟩
  | unsupported _ _ _ hnone => exact .inr ⟨fun tag hmem => hrefused (hnone tag hmem), rfl⟩
  | highlighted _ _ hlanguage =>
    obtain ⟨before, tag, after, htags, hbefore, -, hfound⟩ := hlanguage
    exact .inl ⟨before, tag, after, htags, fun earlier hmem => hrefused (hbefore earlier hmem),
      highlightSource_of_language hfound⟩

/-- While the highlighter is switched on, a source with a registered tag is not refused, and its
markup is what a new block with the tag shows. -/
theorem Sound.highlightSource_eq (hsound : highlighter.Sound)
    (henabled : highlighter.enabled = true) (hmem : tag ∈ highlighter.tags) :
    highlighter.highlightSource tag source =
      .ok (highlighter.highlightBlock (.ofSource source (some tag))).1.content := by
  rcases showsFirst_singleton_iff.1 (hsound.showsFirst henabled [tag] source) with
    hmarkup | ⟨herror, -⟩
  · exact hmarkup
  · exact absurd hmem (hsound.highlightSource_eq_error_iff.1 herror).1

/-- A highlighter that is switched off or does not know the tag leaves a new block as it is. -/
theorem Sound.highlightBlock_of_plain (hsound : highlighter.Sound)
    (h : highlighter.enabled = false ∨ tag ∉ highlighter.tags) :
    (highlighter.highlightBlock (.ofSource source (some tag))).1 = .ofSource source (some tag) := by
  refine highlightBlock_of_unregistered hsound ?_
  rintro ⟨henabled, other, hother, hmem⟩
  obtain rfl : other = tag := List.mem_singleton.1 hother
  rcases h with hdisabled | hunregistered
  · simp [henabled] at hdisabled
  · exact hunregistered hmem

/-! ## The program -/

/-- The output of the program for a source is what a new block shows. -/
theorem Sound.renderOutput_eq (hsound : highlighter.Sound) (tag : String) (source : List Char) :
    renderOutput highlighter tag source =
      (highlighter.highlightBlock (.ofSource source (some tag))).1.content := by
  by_cases h : highlighter.enabled = false ∨ tag ∉ highlighter.tags
  · rw [renderOutput_of_plain source hsound h, hsound.highlightBlock_of_plain h]
    rfl
  · obtain ⟨henabled, hmem⟩ : highlighter.enabled = true ∧ tag ∈ highlighter.tags := by
      simpa using h
    simp [renderOutput, henabled, hsound.highlightSource_eq henabled hmem]

end Highlighter

/-- **The three ways to the markup of a source agree.**  For every highlighter that a page can have,
the output of the program for a source with a tag is what a new block with the tag shows after
highlighting.  If the highlighter is switched on and the tag is registered, it is the markup of the
source by itself; if not, it is the source, and the block is not processed.  A source by itself is
refused only for an unknown tag, and then the output is the source.  A new block with any tags shows
the markup of the first tag for which the source is not refused, or the source if there is none.  So
a run of the program that has read its source does not fail any more. -/
theorem dispatch_agrees (origin : Highlighter.Origin) (actions : List PageAction) :
    let highlighter := ((Page.start origin).run actions).highlighter
    (∀ tag source,
      let block := (highlighter.highlightBlock (.ofSource source (some tag))).1
      renderOutput highlighter tag source = block.content ∧
        (highlighter.enabled = true → tag ∈ highlighter.tags →
          highlighter.highlightSource tag source = .ok block.content) ∧
        (highlighter.enabled = false ∨ tag ∉ highlighter.tags →
          block.content = source ∧ block.state = .unprocessed) ∧
        ∀ error, highlighter.highlightSource tag source = .error error →
          error = ⟨tag⟩ ∧ renderOutput highlighter tag source = source) ∧
      (highlighter.enabled = true → ∀ tags source,
        highlighter.ShowsFirst tags source
          (highlighter.highlightBlock (.ofTags source tags)).1.content) ∧
      ∀ (environment : Environment) args options source,
        parseArgs args = .ok (.run options) → options.list = false →
        (environment.input options.file?).readText = .ok source →
        run environment args = .ok ((environment.highlighter options).highlightBlock
          (.ofSource source (some options.lang))).1.content := by
  intro highlighter
  have hsound : highlighter.Sound := Page.run_sound origin.sound actions
  refine ⟨fun tag source => ⟨hsound.renderOutput_eq tag source, ?_, ?_, ?_⟩, ?_, ?_⟩
  · exact hsound.highlightSource_eq
  · intro hplain
    rw [hsound.highlightBlock_of_plain hplain]
    exact ⟨rfl, rfl⟩
  · intro error herror
    obtain ⟨hunregistered, herror⟩ := hsound.highlightSource_eq_error_iff.1 herror
    exact ⟨herror, renderOutput_of_plain source hsound (.inr hunregistered)⟩
  · exact hsound.showsFirst
  · intro environment args options source hargs hlist hsource
    rw [Environment.run_of_source hargs hlist hsource]
    have hsound := environment.sound_highlighter options
    rw [hsound.renderOutput_eq]

end CodeMarkup
