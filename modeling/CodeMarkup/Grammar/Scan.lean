import CodeMarkup.Grammar.Basic
import CodeMarkup.Grammar.Classifier

/-!
# Scanning a source

A source is scanned from left to right into segments: tokens, which a category matched and a
classifier gave a class, and the gaps between them. The scan takes the earliest match at or after
its place, and of several at one place that of the first category; it goes on behind the match.

Each category remembers its next match. A remembered match that starts at or after the place of the
scan is still the next one, so a category is searched again only after the scan has passed it.
-/

namespace CodeMarkup

/-- A part of a source, between two byte offsets. -/
inductive Segment where
  /-- Text that no category matched. -/
  | gap (start stop : Nat)
  /-- A token, with its class if it has one. -/
  | token (start stop : Nat) (class? : Option TokenClass)
  deriving DecidableEq, Repr

namespace Segment

/-- The offset where a segment starts. -/
def start : Segment → Nat
  | gap start _ => start
  | token start _ _ => start

/-- The offset where a segment ends. -/
def stop : Segment → Nat
  | gap _ stop => stop
  | token _ stop _ => stop

/-- The class of a segment; a gap has none. -/
def class? : Segment → Option TokenClass
  | gap _ _ => none
  | token _ _ class? => class?

/-- The text of a segment. -/
def text (source : List Char) (segment : Segment) : List Char :=
  slice source segment.start segment.stop

end Segment

/-! ## Remembered matches -/

/-- What is known of the next match of a category. -/
inductive Lookahead where
  /-- Nothing yet. -/
  | unknown
  /-- Where it starts and where it ends. -/
  | found (start stop : Cursor)
  /-- There is none any more. -/
  | exhausted
  deriving DecidableEq, Repr

/-- What a search for the next match finds. -/
def Lookahead.search (category : Category) (place : Cursor) : Lookahead :=
  match category.matcher.search? place with
  | some (start, stop) => found start stop
  | none => exhausted

/-- What is known of the next match at or after a place, by what was known before: a match that
the place has passed is searched for again. -/
def Lookahead.refresh (place : Cursor) (category : Category) : Lookahead → Lookahead
  | unknown => search category place
  | found start stop =>
    if start.offset < place.offset then search category place else found start stop
  | exhausted => exhausted

/-- The better of the best match so far and a remembered one: the earlier one and, of two at the
same place, the one of the category declared first. -/
def Lookahead.better (best? : Option GrammarMatch) (next : Lookahead × Nat) :
    Option GrammarMatch :=
  match next.1 with
  | found start stop =>
    match best? with
    | none => some ⟨start, stop, next.2⟩
    | some best =>
      if start.offset < best.start.offset then some ⟨start, stop, next.2⟩ else some best
  | _ => best?

/-- The earliest of the remembered matches. -/
def Lookahead.earliest (ahead : List Lookahead) : Option GrammarMatch :=
  ahead.zipIdx.foldl better none

/-! ## The scan -/

/-- A gap between two offsets, unless they are equal. -/
def gapBetween (start stop : Nat) : List Segment :=
  if start < stop then [.gap start stop] else []

/-- The segments from a place on, where `ahead` is what is known of the categories. At most `fuel`
tokens are taken. -/
def scanWithin (grammar : Grammar) (classifier : Classifier) :
    Nat → List Lookahead → Cursor → List Segment
  | 0, _, place => gapBetween place.offset (place.offset + utf8Length place.rest)
  | fuel + 1, ahead, place =>
    let ahead := List.zipWith (Lookahead.refresh place) grammar.categories ahead
    match Lookahead.earliest ahead with
    | none => gapBetween place.offset (place.offset + utf8Length place.rest)
    | some found =>
      gapBetween place.offset found.start.offset ++
        .token found.start.offset found.stop.offset (classifier.classify found.text) ::
          scanWithin grammar classifier fuel ahead found.stop

/-- The segments of a source, in order. -/
def scan (grammar : Grammar) (classifier : Classifier) (source : List Char) : List Segment :=
  scanWithin grammar classifier (source.length + 1)
    (grammar.categories.map fun _ => .unknown) (.start source)

end CodeMarkup
