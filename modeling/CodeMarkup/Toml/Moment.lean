/-!
# Dates and times of TOML

A moment is a date, a time of day, or a date with a time of day and maybe an offset. The parts have
to exist: months have their number of days, in leap years too, and a minute has at most 61 seconds.
Moments are checked and passed over; no setting holds one.

* `Moment.skip?` passes over a moment at the head of a text.
* `Moment.isMoment` says whether a whole text is a moment, by rules that are slightly wider.
-/

namespace CodeMarkup.Toml.Moment

/-- Reads exactly `count` decimal digits, after the digits that made `value`. -/
def readDigits? (value : Nat) : Nat → List Char → Option (Nat × List Char)
  | 0, text => some (value, text)
  | count + 1, c :: rest =>
    if c.isDigit then readDigits? (10 * value + (c.toNat - 48)) count rest else none
  | _ + 1, [] => none

/-- Reads two digits that make a number between two bounds. -/
def readPart? (least most : Nat) (text : List Char) : Option (Nat × List Char) := do
  let (value, rest) ← readDigits? 0 2 text
  if least ≤ value ∧ value ≤ most then pure (value, rest) else none

/-- A text after a given character at its head, if it is there. -/
def skipChar? (c : Char) : List Char → Option (List Char)
  | [] => none
  | d :: rest => if c = d then some rest else none

/-- Whether a year has a leap day. -/
def isLeapYear (year : Nat) : Bool := year % 4 == 0 && (year % 100 != 0 || year % 400 == 0)

/-- The number of days in a month of a year. -/
def daysInMonth (year month : Nat) : Nat :=
  if month = 2 then (if isLeapYear year then 29 else 28)
  else if [4, 6, 9, 11].contains month then 30
  else 31

/-- The text after a date at its head. -/
def skipDate? (text : List Char) : Option (List Char) := do
  let (year, rest) ← readDigits? 0 4 text
  let rest ← skipChar? '-' rest
  let (month, rest) ← readPart? 1 12 rest
  let rest ← skipChar? '-' rest
  let (_, rest) ← readPart? 1 (daysInMonth year month) rest
  pure rest

/-- The text after a fraction of a second at its head, if there is one. -/
def skipFraction : List Char → List Char
  | '.' :: c :: rest => if c.isDigit then rest.dropWhile Char.isDigit else '.' :: c :: rest
  | text => text

/-- The text after a time of day at its head, whose hours go up to a given one. -/
def skipTime? (lastHour : Nat) (text : List Char) : Option (List Char) := do
  let (_, rest) ← readPart? 0 lastHour text
  let rest ← skipChar? ':' rest
  let (_, rest) ← readPart? 0 59 rest
  let rest ← skipChar? ':' rest
  let (_, rest) ← readPart? 0 60 rest
  pure (skipFraction rest)

/-- The text after hours and minutes at its head. -/
def skipOffsetTime? (text : List Char) : Option (List Char) := do
  let (_, rest) ← readPart? 0 23 text
  let rest ← skipChar? ':' rest
  let (_, rest) ← readPart? 0 59 rest
  pure rest

/-- The text after an offset at its head, if there is one. -/
def skipOffset (text : List Char) : List Char :=
  match text with
  | 'Z' :: rest => rest
  | 'z' :: rest => rest
  | '+' :: rest => (skipOffsetTime? rest).getD text
  | '-' :: rest => (skipOffsetTime? rest).getD text
  | _ => text

/-- The text after a time of day behind a date, if there is one. -/
def skipDateTime (text : List Char) : List Char :=
  match text with
  | c :: rest =>
    if c == 'T' || c == 't' || c == ' ' then ((skipTime? 23 rest).map skipOffset).getD text
    else text
  | [] => []

/-- The text after a moment at its head. -/
def skip? (text : List Char) : Option (List Char) :=
  match skipDate? text with
  | some rest => some (skipDateTime rest)
  | none => skipTime? 23 text

/-! ## Moments that fill a text -/

/-- The minutes of an offset that fills a text after its sign, of two digits for the hours and two
for the minutes. -/
def offsetMinutes? (text : List Char) : Option Nat := do
  let (hours, rest) ← readDigits? 0 2 text
  let rest ← skipChar? ':' rest
  let (minutes, rest) ← readDigits? 0 2 rest
  if rest.isEmpty then pure (60 * hours + minutes) else none

/-- Whether a text is empty or an offset of at most a day. -/
def isOffset : List Char → Bool
  | [] => true
  | ['Z'] => true
  | ['z'] => true
  | '+' :: rest => (offsetMinutes? rest).any fun minutes => decide (minutes ≤ 1440)
  | '-' :: rest => (offsetMinutes? rest).any fun minutes => decide (minutes ≤ 1440)
  | _ => false

/-- Whether a text that follows a date completes it: by nothing, or by a time of day and maybe an
offset. -/
def completesDate : List Char → Bool
  | [] => true
  | c :: rest => (c == 'T' || c == 't' || c == ' ') && (skipTime? 24 rest).any isOffset

/-- Whether a whole text is a moment. The hour 24 is allowed here. -/
def isMoment (text : List Char) : Bool :=
  match skipDate? text with
  | some rest => completesDate rest
  | none => (skipTime? 24 text).any List.isEmpty

end CodeMarkup.Toml.Moment
