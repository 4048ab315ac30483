/-!
# The observation band

The sections of a page are observed against a horizontal band of the window. A section intersects
the band when a large enough fraction of its height lies in it. All lengths are floating-point
numbers, and one that is not a number loses against one that is when the lesser or the greater of
two is taken.
-/

namespace CodeMarkup

/-- The lesser of two numbers. -/
def lesser (x y : Float) : Float := if x.isNaN then y else if y < x then y else x

/-- The greater of two numbers. -/
def greater (x y : Float) : Float := if x.isNaN then y else if x < y then y else x

/-- The place of a section, counted from the top of the window. -/
structure SectionBounds where
  /-- The anchor of the section, if it has one. -/
  id? : Option String
  /-- Where the section starts. -/
  top : Float
  /-- Where the section ends. -/
  bottom : Float

/-- A band of the window. Margins are fractions of its height; a negative one takes away from the
band. -/
structure Band where
  /-- The margin above the window. -/
  topMargin : Float := -0.4
  /-- The margin below the window. -/
  bottomMargin : Float := -0.5
  /-- The least fraction of a section that has to lie in the band. -/
  threshold : Float := 0.1

namespace Band

/-- The top and the bottom of the band in a window. -/
def zone (band : Band) (height : Float) : Float × Float :=
  (-band.topMargin * height, height + band.bottomMargin * height)

/-- The fraction of a section that lies in the band. -/
def intersectionRatio (band : Band) (bounds : SectionBounds) (height : Float) : Float :=
  let (top, bottom) := band.zone height
  let overlap := lesser bounds.bottom bottom - greater bounds.top top
  let extent := bounds.bottom - bounds.top
  if overlap ≤ 0 then 0
  else if extent ≤ 0 then 0
  else lesser (overlap / extent) 1

/-- Whether a section counts as intersecting the band. -/
def isIntersecting (band : Band) (bounds : SectionBounds) (height : Float) : Bool :=
  let ratio := band.intersectionRatio bounds height
  decide (0 < ratio) && decide (band.threshold ≤ ratio)

end Band

end CodeMarkup
