import CodeMarkup.Proofs.Markup.Lossless
import CodeMarkup.Proofs.Scan.Reference
import CodeMarkup.Proofs.Scan.TokenAt

/-!
# Reading a source place by place

A scan jumps from match to match.  What it makes of a source can also be read from left to right
without looking ahead: where the grammar has a token, the token is a piece and reading goes on
behind it, and where it has none, one character is a piece without a class.

* `Reading` — the pieces that are read from a place on; they are determined (`Reading.unique`).
* `FreshRun.exists_reading` — a scan emits the pieces that are read.
* `highlight_eq_of_reading` — the markup of a source is that of the pieces that are read.
* `not_isPrefix_of_gap_mem_scan` — what no gap contains stands nowhere in a gap.
-/

namespace CodeMarkup

/-- The pieces that are read from a place on.  Each place that begins no token and is not covered by
one meets the condition `bare`. -/
inductive Reading (grammar : Grammar) (classifier : Classifier) (bare : Cursor → Prop) :
    Cursor → List Piece → Prop
  /-- Nothing is left. -/
  | atEnd {place : Cursor} (hrest : place.rest = []) : Reading grammar classifier bare place []
  /-- A character that begins no token. -/
  | plain {place : Cursor} {c : Char} {rest : List Char} {pieces : List Piece}
      (hrest : place.rest = c :: rest) (hnone : grammar.tokenAt? place = none) (hbare : bare place)
      (later : Reading grammar classifier bare (place.after c rest) pieces) :
      Reading grammar classifier bare place (⟨none, [c]⟩ :: pieces)
  /-- A token. -/
  | token {place stop : Cursor} {text : List Char} {pieces : List Piece}
      (htoken : grammar.tokenAt? place = some stop) (htext : place.Passes text stop)
      (later : Reading grammar classifier bare stop pieces) :
      Reading grammar classifier bare place (⟨classifier.classify text, text⟩ :: pieces)

namespace Reading

variable {grammar : Grammar} {classifier : Classifier} {bare : Cursor → Prop} {place : Cursor}
  {pieces : List Piece}

/-- The pieces are determined. -/
theorem unique {other : Cursor → Prop} {pieces' : List Piece}
    (h : Reading grammar classifier bare place pieces)
    (h' : Reading grammar classifier other place pieces') : pieces = pieces' := by
  induction h generalizing pieces' with
  | atEnd hrest =>
    cases h' with
    | atEnd => rfl
    | plain hrest' => simp [hrest] at hrest'
    | token htoken => simp [Grammar.tokenAt?_of_rest_nil hrest] at htoken
  | plain hrest hnone _ _ ih =>
    cases h' with
    | atEnd hrest' => simp [hrest] at hrest'
    | plain hrest' _ _ later =>
      obtain ⟨rfl, rfl⟩ := List.cons.inj (hrest.symm.trans hrest')
      rw [ih later]
    | token htoken => simp [hnone] at htoken
  | token htoken htext _ ih =>
    cases h' with
    | atEnd hrest' => simp [Grammar.tokenAt?_of_rest_nil hrest'] at htoken
    | plain _ hnone => simp [hnone] at htoken
    | token htoken' htext' later =>
      obtain rfl := Option.some.inj (htoken.symm.trans htoken')
      rw [htext.unique htext', ih later]

/-- A text in which no token begins is read character by character. -/
theorem plain_append {text : List Char} {further : Cursor} (htext : place.Passes text further)
    (hnone : ∀ q, place.Reaches q → q.offset < further.offset →
      grammar.tokenAt? q = none ∧ bare q)
    (later : Reading grammar classifier bare further pieces) :
    Reading grammar classifier bare place (text.map (fun c => ⟨none, [c]⟩) ++ pieces) := by
  induction text generalizing place with
  | nil =>
    obtain rfl := Cursor.passes_nil_iff.1 htext
    exact later
  | cons c text ih =>
    obtain ⟨hfree, hbare⟩ := hnone place (.refl place) (htext.offset_lt (by simp))
    obtain ⟨r, hc, hrest⟩ := Cursor.passes_cons_iff.1 htext
    obtain ⟨rest, hplace, rfl⟩ := Cursor.passes_singleton_iff.1 hc
    refine .plain hplace hfree hbare (ih hrest fun q hq hlt => ?_)
    exact hnone q (.trans (.after hplace) hq) hlt

end Reading

/-! ## What a scan makes of a source -/

section

variable {grammar : Grammar} {classifier : Classifier} {bare : Cursor → Prop} {source : List Char}
  {place further : Cursor} {text lead : List Char}

/-- The markup of characters without a class is that of their text. -/
theorem flatMap_render_map (lead text : List Char) :
    (text.map fun c => (⟨none, [c]⟩ : Piece)).flatMap (Piece.render lead) = escape text := by
  rw [List.flatMap_map, escape]
  congr 1
  funext c
  simp [Piece.render, renderPiece, escape]

theorem render_append (source lead : List Char) (xs ys : List Segment) :
    render source lead (xs ++ ys) = render source lead xs ++ render source lead ys :=
  List.flatMap_append

/-- The markup of the gap between two places. -/
theorem render_gapBetween (hplace : (Cursor.start source).Reaches place)
    (htext : place.Passes text further) :
    render source lead (gapBetween place.offset further.offset) = escape text := by
  unfold gapBetween
  split
  · simp [render, renderPiece, Segment.class?, Segment.text, Segment.start, Segment.stop,
      slice_of_passes hplace htext]
  · rename_i hle
    have hnil : text = [] := by
      have hoffset := htext.offset_eq
      exact utf8Length_eq_zero_iff.1 (by omega)
    simp [render, hnil, escape]

/-- Up to the next match a source is read character by character. -/
theorem Grammar.IsNext.reading {next? : Option GrammarMatch} {pieces : List Piece}
    (hnext : grammar.IsNext place next?) (htext : place.Passes text further)
    (hbefore : ∀ found ∈ next?, further.offset ≤ found.start.offset)
    (hplace : (Cursor.start source).Reaches place)
    (hgap : ∀ first last, Segment.gap first last ∈ gapBetween place.offset further.offset →
      ∀ q, (Cursor.start source).Reaches q → first ≤ q.offset → q.offset < last → bare q)
    (later : Reading grammar classifier bare further pieces) :
    Reading grammar classifier bare place (text.map (fun c => ⟨none, [c]⟩) ++ pieces) := by
  refine .plain_append htext (fun q hq hlt => ⟨hnext.tokenAt?_before hq ?_, ?_⟩) later
  · intro found hfound
    exact Nat.lt_of_lt_of_le hlt (hbefore found hfound)
  · have hle := hq.offset_le
    have hmem : Segment.gap place.offset further.offset ∈
        gapBetween place.offset further.offset := by
      simp [gapBetween, Nat.lt_of_le_of_lt hle hlt]
    exact hgap _ _ hmem q (hplace.trans hq) hle hlt

/-- **A scan emits what is read.** -/
theorem FreshRun.exists_reading {segments : List Segment}
    (hrun : FreshRun grammar classifier place segments)
    (hplace : (Cursor.start source).Reaches place)
    (hgaps : ∀ first last, Segment.gap first last ∈ segments → ∀ q,
      (Cursor.start source).Reaches q → first ≤ q.offset → q.offset < last → bare q) :
    ∃ pieces, Reading grammar classifier bare place pieces ∧
      ∀ lead, pieces.flatMap (Piece.render lead) = render source lead segments := by
  induction hrun with
  | @done place hnone =>
    obtain ⟨further, htext, hend⟩ := Cursor.exists_passes (List.append_nil place.rest).symm
    have hgap : lastGap place = gapBetween place.offset further.offset := by
      rw [lastGap, htext.offset_eq]
    rw [hgap] at hgaps ⊢
    refine ⟨_, hnone.reading htext (by simp) hplace hgaps (.atEnd hend), fun lead => ?_⟩
    rw [List.append_nil, flatMap_render_map, render_gapBetween hplace htext]
  | @step place found rest hnext hrun ih =>
    have hstart := hplace.trans hnext.start_reaches
    obtain ⟨text, htext⟩ := hnext.start_reaches
    obtain ⟨inner, hinner⟩ := hnext.match_reaches
    have hslice := slice_of_passes hstart hinner
    rw [emitted, List.append_assoc] at hgaps ⊢
    obtain ⟨pieces, hpieces, hrender⟩ := ih (hplace.trans hnext.stop_reaches)
      fun first last hmem => hgaps first last (by simp [hmem])
    refine ⟨_, hnext.reading htext (by rintro _ ⟨⟩; exact Nat.le_refl _) hplace
      (fun first last hmem => hgaps first last (List.mem_append_left _ hmem))
      (.token hnext.tokenAt?_start hinner hpieces), fun lead => ?_⟩
    rw [List.flatMap_append, flatMap_render_map, List.flatMap_cons, hrender, render_append,
      render_gapBetween hplace htext, render_append, ← slice_eq_text hstart, hslice]
    simp [render, Piece.render, Segment.class?, Segment.text, Segment.start, Segment.stop, hslice]

/-- The pieces that are read give the markup of a source. -/
theorem highlight_eq_of_reading {pieces : List Piece}
    (h : Reading grammar classifier bare (.start source) pieces) (lead : List Char) :
    highlight grammar classifier lead source = pieces.flatMap (Piece.render lead) := by
  have hrun := (scan_run grammar classifier source).fresh (.start grammar source)
  obtain ⟨pieces', hpieces', hrender⟩ :
      ∃ pieces', Reading grammar classifier (fun _ => True) (.start source) pieces' ∧ _ :=
    hrun.exists_reading (.refl (Cursor.start source)) (by simp)
  rw [h.unique hpieces', hrender lead]
  rfl

/-- Every source can be read, and the places in its gaps meet what holds of them. -/
theorem exists_reading
    (hgaps : ∀ first last, Segment.gap first last ∈ scan grammar classifier source → ∀ q,
      (Cursor.start source).Reaches q → first ≤ q.offset → q.offset < last → bare q) :
    ∃ pieces, Reading grammar classifier bare (.start source) pieces := by
  have hrun := (scan_run grammar classifier source).fresh (.start grammar source)
  obtain ⟨pieces, hpieces, -⟩ := hrun.exists_reading (.refl (Cursor.start source)) hgaps
  exact ⟨pieces, hpieces⟩

/-- A text that a gap does not contain stands nowhere in it, not even in part, unless a token begins
inside the text. -/
theorem not_isPrefix_of_gap_mem_scan {first last : Nat} {word : List Char}
    (hmem : Segment.gap first last ∈ scan grammar classifier source)
    (hnot : ¬ word <:+: slice source first last)
    (hlater : ∀ c ∈ word.tail, ∀ q : Cursor, q.peek? = some c → grammar.tokenAt? q = none)
    (hplace : (Cursor.start source).Reaches place) (hfirst : first ≤ place.offset)
    (hlast : place.offset < last) : ¬ word <+: place.rest := by
  intro hprefix
  have hcovers := covers_scan grammar classifier source
  obtain ⟨p, q, hp, hpstart, hq, hqstop, hpq⟩ := hcovers.exists_passes hmem
  obtain ⟨before, hbefore⟩ := hp.of_le hplace (by rw [hpstart]; exact hfirst)
  obtain ⟨inner, hinner⟩ := hplace.of_le hq (by rw [hqstop]; exact Nat.le_of_lt hlast)
  have hslice : slice source first last = before ++ inner := hpq.unique (hbefore.trans hinner)
  have hcontained : ¬ word <+: inner := by
    rintro ⟨more, rfl⟩
    exact hnot ⟨before, more, by rw [hslice, List.append_assoc]⟩
  have hne : inner ≠ [] := by
    rintro rfl
    obtain rfl := Cursor.passes_nil_iff.1 hinner
    exact Nat.lt_irrefl _ (hqstop ▸ hlast)
  -- the text would reach over the end of the gap, where a token begins
  rw [hinner.rest_eq] at hprefix
  obtain ⟨more, rfl⟩ : inner <+: word :=
    (List.prefix_or_prefix_of_prefix hprefix (List.prefix_append inner q.rest)).resolve_left
      hcontained
  have hmore : more <+: q.rest := by simpa using hprefix
  cases more with
  | nil => simp at hcontained
  | cons c more =>
    obtain ⟨rest, hrest⟩ := hmore
    have hpeek : q.peek? = some c := by rw [Cursor.peek?, ← hrest]; rfl
    have hnone := hlater c (by simp [List.tail_append_of_ne_nil hne]) q hpeek
    obtain ⟨stop, htoken⟩ := exists_tokenAt?_of_gap_mem_scan hmem hq hqstop (by simp [← hrest])
    simp [hnone] at htoken

end

end CodeMarkup
