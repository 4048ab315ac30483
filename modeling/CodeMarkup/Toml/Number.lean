import CodeMarkup.Toml.Quoted

/-!
# Numbers of TOML

Integers are decimal with a sign, or hexadecimal, octal or binary without one, and fit into 64 bits.
Other numbers have a fraction, an exponent or both, or are infinite or undefined; their values are
not kept, but one that is too large for a double-precision number is refused. Single low lines may
stand between digits.
-/

namespace CodeMarkup.Toml

/-- A number that has been read. -/
inductive Number where
  /-- An integer. -/
  | integer (n : Int)
  /-- Any other number. -/
  | float
  deriving DecidableEq, Repr

namespace Number

/-- The digits at the head of a text, without the single low lines between them, and the rest. -/
def spanDigits (isDigit : Char → Bool) : List Char → List Char × List Char
  | [] => ([], [])
  | c :: rest =>
    if isDigit c then
      let found := spanDigits isDigit rest
      (c :: found.1, found.2)
    else if c == '_' && rest.head?.any isDigit then spanDigits isDigit rest
    else ([], c :: rest)

/-- The digits at the head of a text, the first of which has to be there. -/
def readDigits? (isDigit : Char → Bool) (text : List Char) : Option (List Char × List Char) :=
  if text.head?.any isDigit then some (spanDigits isDigit text) else none

/-- The decimal digits of a whole number: a zero, or digits that do not begin with one. -/
def readWhole? : List Char → Option (List Char × List Char)
  | '0' :: rest => some (['0'], rest)
  | text => readDigits? Char.isDigit text

/-- The number that digits write in a base. -/
def valueOf (base : Nat) (digits : List Char) : Nat :=
  digits.foldl (fun n c => base * n + (hexDigit? c).getD 0) 0

/-- An integer, if it fits into 64 bits. -/
def integer? (n : Int) : Option Number :=
  if -9223372036854775808 ≤ n ∧ n ≤ 9223372036854775807 then some (integer n) else none

/-- Reads an integer in a base that its letter names, after a zero. -/
def readBased? : List Char → Option (Number × List Char)
  | 'x' :: rest => do
    let (digits, rest) ← readDigits? (fun c => (hexDigit? c).isSome) rest
    let n ← integer? (valueOf 16 digits)
    pure (n, rest)
  | 'o' :: rest => do
    let (digits, rest) ← readDigits? (fun c => decide ('0' ≤ c) && decide (c ≤ '7')) rest
    let n ← integer? (valueOf 8 digits)
    pure (n, rest)
  | 'b' :: rest => do
    let (digits, rest) ← readDigits? (fun c => c == '0' || c == '1') rest
    let n ← integer? (valueOf 2 digits)
    pure (n, rest)
  | _ => none

/-- The least number that rounds to infinity in double precision. -/
def roundsToInfinity : Nat := Nat.pow 2 1024 - Nat.pow 2 970

/-- Whether the number `digits` times ten to the power `exponent` is finite in double precision. The
decimal digits before the point are counted first, so that only numbers of about the critical size
are compared. -/
def isFinite (digits : List Char) (exponent : Int) : Bool :=
  let value := valueOf 10 digits
  let places := (Int.ofNat (digits.dropWhile (· == '0')).length) + exponent
  if value = 0 || places < 309 then true
  else if 310 < places then false
  else
    match exponent with
    | .ofNat e => decide (value * Nat.pow 10 e < roundsToInfinity)
    | .negSucc e => decide (value < roundsToInfinity * Nat.pow 10 (e + 1))

/-- Reads a fraction: a point and digits. -/
def readFraction? : List Char → Option (List Char × List Char)
  | '.' :: rest => readDigits? Char.isDigit rest
  | _ => none

/-- Reads an exponent: its letter, maybe a sign, and digits. -/
def readExponent? : List Char → Option (Int × List Char)
  | [] => none
  | e :: rest =>
    if e == 'e' || e == 'E' then
      let (negative, rest) :=
        match rest with
        | '-' :: rest => (true, rest)
        | '+' :: rest => (false, rest)
        | _ => (false, rest)
      (readDigits? Char.isDigit rest).map fun (digits, rest) =>
        let n := Int.ofNat (valueOf 10 digits)
        (if negative then -n else n, rest)
    else none

/-- Reads a number without its sign, which may be negative. -/
def readUnsigned? (negative : Bool) : List Char → Option (Number × List Char)
  | 'i' :: 'n' :: 'f' :: rest => some (float, rest)
  | 'n' :: 'a' :: 'n' :: rest => some (float, rest)
  | text => do
    let (whole, rest) ← readWhole? text
    match readFraction? rest, readExponent? rest with
    | some (fraction, rest), _ =>
      let (exponent, rest) := (readExponent? rest).getD (0, rest)
      if negative || isFinite (whole ++ fraction) (exponent - Int.ofNat fraction.length) then
        pure (float, rest)
      else none
    | none, some (exponent, rest) =>
      if negative || isFinite whole exponent then pure (float, rest) else none
    | none, none => do
      let n := Int.ofNat (valueOf 10 whole)
      let n ← integer? (if negative then -n else n)
      pure (n, rest)

/-- Reads a number. -/
def read? : List Char → Option (Number × List Char)
  | '+' :: rest => readUnsigned? false rest
  | '-' :: rest => readUnsigned? true rest
  | '0' :: rest => (readBased? rest).or (readUnsigned? false ('0' :: rest))
  | text => readUnsigned? false text

end Number

end CodeMarkup.Toml
