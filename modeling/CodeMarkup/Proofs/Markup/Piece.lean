import CodeMarkup.Proofs.Markup.Mark

/-!
# Pieces of a highlighted text

A highlighted text is a row of pieces, with a class or without one.  Two pieces without a class that
stand side by side cannot be told apart in markup from one, so they are merged.

* `mergePlain` merges them.
* `Piece.read?` reads the pieces of markup back, given the lead of the class names.
* `Piece.read?_flatMap_render` — it reads exactly the merged pieces.
-/

namespace CodeMarkup

/-- A part of a text that is highlighted as a whole. -/
structure Piece where
  /-- The class, if there is one. -/
  class? : Option TokenClass
  /-- The text. -/
  text : List Char
  deriving DecidableEq, Repr

namespace Piece

/-- A piece as it stands in markup. -/
def render (lead : List Char) (piece : Piece) : List Char :=
  renderPiece lead piece.class? piece.text

/-- A piece in front of others.  It becomes a part of the first of them if neither has a class. -/
def before : Piece → List Piece → List Piece
  | ⟨none, text⟩, ⟨none, next⟩ :: rest => ⟨none, text ++ next⟩ :: rest
  | piece, rest => piece :: rest

end Piece

/-- Pieces of which neighbours without a class are merged. -/
def mergePlain (pieces : List Piece) : List Piece := pieces.foldr Piece.before []

/-- A text without a class as a piece, if it is not empty. -/
def plainPiece (text : List Char) : List Piece := if text = [] then [] else [⟨none, text⟩]

section

variable {c : TokenClass} {text next : List Char} {pieces : List Piece}

theorem mergePlain_none_none :
    mergePlain (⟨none, text⟩ :: ⟨none, next⟩ :: pieces) =
      mergePlain (⟨none, text ++ next⟩ :: pieces) := by
  simp only [mergePlain, List.foldr_cons]
  cases h : List.foldr Piece.before [] pieces with
  | nil => rfl
  | cons piece rest =>
    obtain ⟨_ | c, after⟩ := piece
    · simp [Piece.before]
    · rfl

/-- A text without a class goes into the text in front of it. -/
theorem mergePlain_plainPiece_append (hnext : next ≠ []) :
    mergePlain (plainPiece text ++ ⟨none, next⟩ :: pieces) =
      mergePlain (plainPiece (text ++ next) ++ pieces) := by
  by_cases htext : text = []
  · simp [plainPiece, htext, hnext]
  · simp [plainPiece, htext, mergePlain_none_none]

theorem mergePlain_plainPiece_append_some :
    mergePlain (plainPiece text ++ ⟨some c, next⟩ :: pieces) =
      plainPiece text ++ ⟨some c, next⟩ :: mergePlain pieces := by
  unfold plainPiece
  split
  · rfl
  · rfl

end

/-! ## Pieces as marks -/

/-- The marks of a piece. -/
def Piece.marks : Piece → List Mark
  | ⟨some c, text⟩ => .opens c :: (text.map .char ++ [.closes])
  | ⟨none, text⟩ => text.map .char

theorem flatMap_write_char (lead text : List Char) :
    (text.map Mark.char).flatMap (Mark.write lead) = escape text := by
  rw [List.flatMap_map]
  rfl

theorem flatMap_text_char (text : List Char) :
    (text.map Mark.char).flatMap Mark.text = text := by
  rw [List.flatMap_map]
  exact List.flatMap_singleton' text

theorem Piece.flatMap_write_marks (lead : List Char) (piece : Piece) :
    piece.marks.flatMap (Mark.write lead) = piece.render lead := by
  obtain ⟨_ | c, text⟩ := piece
  · exact flatMap_write_char lead text
  · simp [marks, flatMap_write_char, render, renderPiece, Mark.write]

theorem Piece.flatMap_text_marks (piece : Piece) : piece.marks.flatMap Mark.text = piece.text := by
  obtain ⟨_ | c, text⟩ := piece
  · exact flatMap_text_char text
  · simp [marks, flatMap_text_char, Mark.text]

/-- Pieces are written mark by mark. -/
theorem flatMap_render_eq (lead : List Char) (pieces : List Piece) :
    pieces.flatMap (Piece.render lead) =
      (pieces.flatMap Piece.marks).flatMap (Mark.write lead) := by
  simp [List.flatMap_assoc, Piece.flatMap_write_marks]

/-- The marks of pieces stand for the texts of the pieces. -/
theorem flatMap_text_marks (pieces : List Piece) :
    (pieces.flatMap Piece.marks).flatMap Mark.text = pieces.flatMap Piece.text := by
  simp [List.flatMap_assoc, Piece.flatMap_text_marks]

/-! ## Pieces of marks -/

/-- The pieces that marks make up, with the class of the span that is open and the text that was
read before them.  There are none if spans are nested or not balanced. -/
def gatherFrom (open? : Option TokenClass) (text : List Char) : List Mark → Option (List Piece)
  | [] =>
    match open? with
    | none => some (plainPiece text)
    | some _ => none
  | .char c :: marks => gatherFrom open? (text ++ [c]) marks
  | .opens c :: marks =>
    match open? with
    | none => (gatherFrom (some c) [] marks).map (plainPiece text ++ ·)
    | some _ => none
  | .closes :: marks =>
    match open? with
    | none => none
    | some c => (gatherFrom none [] marks).map (⟨some c, text⟩ :: ·)

/-- The pieces of markup, read with the lead of its class names. -/
def Piece.read? (lead markup : List Char) : Option (List Piece) :=
  (readMarks? lead markup).bind (gatherFrom none [])

theorem gatherFrom_chars (open? : Option TokenClass) (text next : List Char)
    (marks : List Mark) :
    gatherFrom open? text (next.map .char ++ marks) = gatherFrom open? (text ++ next) marks := by
  induction next generalizing text with
  | nil => simp
  | cons c next ih =>
    rw [List.map_cons, List.cons_append, gatherFrom, ih, List.append_assoc]
    rfl

/-- Marks of pieces make up these pieces again, merged behind the text that was read before them. -/
theorem gatherFrom_flatMap_marks {pieces : List Piece} (h : ∀ piece ∈ pieces, piece.text ≠ [])
    (text : List Char) :
    gatherFrom none text (pieces.flatMap Piece.marks) =
      some (mergePlain (plainPiece text ++ pieces)) := by
  induction pieces generalizing text with
  | nil =>
    by_cases htext : text = []
    · simp [gatherFrom, plainPiece, htext, mergePlain]
    · simp [gatherFrom, plainPiece, htext, mergePlain, Piece.before]
  | cons piece pieces ih =>
    obtain ⟨hpiece, hpieces⟩ := List.forall_mem_cons.1 h
    obtain ⟨_ | c, next⟩ := piece
    · rw [List.flatMap_cons, Piece.marks, gatherFrom_chars, ih hpieces,
        mergePlain_plainPiece_append hpiece]
    · have hspan : gatherFrom (some c) []
          (next.map .char ++ .closes :: pieces.flatMap Piece.marks) =
            some (⟨some c, next⟩ :: mergePlain pieces) := by
        rw [gatherFrom_chars, gatherFrom, ih hpieces]
        rfl
      rw [mergePlain_plainPiece_append_some, List.flatMap_cons, Piece.marks, List.cons_append,
        List.append_assoc, List.singleton_append, gatherFrom, hspan]
      rfl

/-- **The pieces of a highlighted text are read back from its markup.** -/
theorem Piece.read?_flatMap_render {pieces : List Piece}
    (h : ∀ piece ∈ pieces, piece.text ≠ []) (lead : List Char) :
    read? lead (pieces.flatMap (render lead)) = some (mergePlain pieces) := by
  have hgather := gatherFrom_flatMap_marks h []
  rw [read?, flatMap_render_eq, readMarks?_flatMap_write, Option.bind_some, hgather]
  rfl

end CodeMarkup
