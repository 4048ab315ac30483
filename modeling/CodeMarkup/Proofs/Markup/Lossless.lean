import CodeMarkup.Proofs.Markup.Piece
import CodeMarkup.Proofs.Markup.Safe
import CodeMarkup.Proofs.Scan.Coverage

/-!
# Highlighting loses nothing

The markup of a source is safe to put on a page, and the pieces of the source can be read back from
it, with their classes.  So can the source: without the tags, the markup is the escaped source.
-/

namespace CodeMarkup

/-- A segment of a source as a piece. -/
def Segment.piece (source : List Char) (segment : Segment) : Piece :=
  ⟨segment.class?, segment.text source⟩

/-- The pieces of a source, as it is highlighted. -/
def sourcePieces (grammar : Grammar) (classifier : Classifier) (source : List Char) : List Piece :=
  (scan grammar classifier source).map (Segment.piece source)

variable (grammar : Grammar) (classifier : Classifier) (source : List Char)

theorem highlight_eq_flatMap_render (lead : List Char) :
    highlight grammar classifier lead source =
      (sourcePieces grammar classifier source).flatMap (Piece.render lead) := by
  rw [highlight, render, sourcePieces, List.flatMap_map]
  rfl

theorem text_ne_nil_of_mem_sourcePieces :
    ∀ piece ∈ sourcePieces grammar classifier source, piece.text ≠ [] := by
  intro piece hmem
  obtain ⟨segment, hsegment, rfl⟩ := List.mem_map.1 hmem
  exact (covers_scan grammar classifier source).text_ne_nil segment hsegment

theorem flatMap_text_sourcePieces :
    (sourcePieces grammar classifier source).flatMap Piece.text = source := by
  rw [sourcePieces, List.flatMap_map]
  exact (covers_scan grammar classifier source).rebuilt (.refl (Cursor.start source))

theorem markupSafe_highlight {lead : List Char} (hlead : Settings.isValidLead lead = true) :
    MarkupSafe lead (highlight grammar classifier lead source) := by
  rw [highlight_eq_flatMap_render, flatMap_render_eq]
  exact markupSafe_flatMap_write hlead _

/-- Without the tags of its spans and with its entities read back, markup is its source. -/
theorem unescape_stripTags_highlight (lead : List Char) :
    unescape (stripTags lead (highlight grammar classifier lead source)) = source := by
  rw [highlight_eq_flatMap_render, flatMap_render_eq, stripTags_flatMap_write, unescape_escape,
    flatMap_text_marks, flatMap_text_sourcePieces]

/-- **Highlighting loses nothing, and its markup is safe.**  With a valid lead, markup is made of
escaped texts and of spans side by side, and it has no other angle bracket and no other ampersand.
From the markup and the lead alone come back the pieces, merged where neighbours have no class, and
the source. -/
theorem highlight_lossless {lead : List Char} (hlead : Settings.isValidLead lead = true) :
    highlight grammar classifier lead source =
        (sourcePieces grammar classifier source).flatMap (Piece.render lead) ∧
      MarkupSafe lead (highlight grammar classifier lead source) ∧
      Piece.read? lead (highlight grammar classifier lead source) =
        some (mergePlain (sourcePieces grammar classifier source)) ∧
      unescape (stripTags lead (highlight grammar classifier lead source)) = source := by
  have hpieces := highlight_eq_flatMap_render grammar classifier source lead
  have htext := text_ne_nil_of_mem_sourcePieces grammar classifier source
  refine ⟨hpieces, markupSafe_highlight grammar classifier source hlead, ?_,
    unescape_stripTags_highlight grammar classifier source lead⟩
  rw [hpieces]
  exact Piece.read?_flatMap_render htext lead

/-- A source with an entity and an angle bracket in it, of which only the bracket has a class. -/
theorem highlight_lossless_entity :
    Settings.isValidLead ['h', 'l', '-'] = true ∧
      Piece.read? ['h', 'l', '-']
          (highlight ⟨[⟨"and", .set (.single '&')⟩, ⟨"less", .set (.single '<')⟩]⟩
            ⟨[(.equals "<", some .op)], none⟩ ['h', 'l', '-'] ['&', 'l', 't', ';', '<', 'b']) =
        some [⟨none, ['&', 'l', 't', ';']⟩, ⟨some .op, ['<']⟩, ⟨none, ['b']⟩] := by
  have hlead : Settings.isValidLead ['h', 'l', '-'] = true := by decide
  have hread := (highlight_lossless ⟨[⟨"and", .set (.single '&')⟩, ⟨"less", .set (.single '<')⟩]⟩
    ⟨[(.equals "<", some .op)], none⟩ ['&', 'l', 't', ';', '<', 'b'] hlead).2.2.1
  exact ⟨hlead, hread.trans rfl⟩

end CodeMarkup
