/-!
# Numbers, dates and times in TOML

A scalar without quotes is a run of letters, digits and signs. Which value it stands for is told by
its form alone.
-/
namespace GitPublish.Toml

/-- Whether a text is digits of one kind, with single underscores between them. -/
def isDigits (isDigit : Char → Bool) : List Char → Bool
  | [] => false
  | [c] => isDigit c
  | c :: '_' :: rest => isDigit c && isDigits isDigit rest
  | c :: rest => isDigit c && isDigits isDigit rest

/-- The value of digits in a base; underscores do not count. -/
def digitsValue (base : Nat) (cs : List Char) : Nat :=
  (cs.filter (· ≠ '_')).foldl (fun n c =>
    n * base + (if c.isDigit then c.toNat - 48 else c.toLower.toNat - 87)) 0

def isHexDigit (c : Char) : Bool := c.isDigit || ('a' ≤ c.toLower && c.toLower ≤ 'f')

/-- A sign and the text behind it. -/
def cutSign : List Char → Bool × List Char
  | '-' :: rest => (true, rest)
  | '+' :: rest => (false, rest)
  | cs => (false, cs)

/-- Whether a text is a decimal number without a sign, and without a zero before other digits. -/
def isDecimal (cs : List Char) : Bool :=
  isDigits Char.isDigit cs && (cs.head? ≠ some '0' || cs = ['0'])

/-- The whole number that a text stands for. -/
def integer? (cs : List Char) : Option Int :=
  match cs with
  | '0' :: 'x' :: rest => if isDigits isHexDigit rest then some (digitsValue 16 rest) else none
  | '0' :: 'o' :: rest =>
    if isDigits (fun c => '0' ≤ c && c ≤ '7') rest then some (digitsValue 8 rest) else none
  | '0' :: 'b' :: rest =>
    if isDigits (fun c => c = '0' || c = '1') rest then some (digitsValue 2 rest) else none
  | cs =>
    let (negative, digits) := cutSign cs
    if isDecimal digits then
      let n : Int := digitsValue 10 digits
      some (if negative then -n else n)
    else none

/-- A decimal number in parts: the digits before and behind the point, and the exponent. -/
structure Decimal where
  whole : List Char
  fraction : Option (List Char)
  exponent : Option (List Char)

/-- The parts of a number without its sign. -/
def Decimal.ofText (cs : List Char) : Decimal :=
  let mantissa := cs.takeWhile fun c => c ≠ 'e' && c ≠ 'E'
  let whole := mantissa.takeWhile (· ≠ '.')
  let behind (text part : List Char) : Option (List Char) :=
    match text.drop part.length with
    | [] => none
    | _ :: rest => some rest
  { whole, fraction := behind mantissa whole, exponent := behind cs mantissa }

/-- Whether the parts are those of a number with a point or an exponent. -/
def Decimal.isFloat (d : Decimal) : Bool :=
  isDecimal d.whole && d.fraction.all (isDigits Char.isDigit) &&
    d.exponent.all (fun e => isDigits Char.isDigit (cutSign e).2) &&
    (d.fraction.isSome || d.exponent.isSome)

/-- Whether a text stands for a number that need not be whole. -/
def isFloat (cs : List Char) : Bool :=
  let (_, cs) := cutSign cs
  cs = "inf".toList || cs = "nan".toList || (Decimal.ofText cs).isFloat

/-- The least number that is too large for the floating point numbers of double precision. -/
def floatLimit : Nat := Nat.pow 2 1024 - Nat.pow 2 970

/-- Whether a number in decimal is beyond the floating point numbers of double precision. -/
def isTooLarge (cs : List Char) : Bool :=
  let (_, cs) := cutSign cs
  if cs = "inf".toList || cs = "nan".toList then false
  else
    let d := Decimal.ofText cs
    let fraction := (d.fraction.getD []).filter (· ≠ '_')
    let digits := digitsValue 10 (d.whole ++ fraction)
    let (negative, exponent) := cutSign (d.exponent.getD [])
    let exponent : Int := digitsValue 10 exponent
    let scale : Int := (if negative then -exponent else exponent) - fraction.length
    -- Far beyond the limit the digits decide nothing.
    let size : Int := (Nat.toDigits 10 digits).length + scale
    if digits = 0 || size < 300 then false
    else if 320 < size then true
    else floatLimit * Nat.pow 10 (-scale).toNat ≤ digits * Nat.pow 10 scale.toNat

def twoDigits? (a b : Char) : Option Nat :=
  if a.isDigit && b.isDigit then some (digitsValue 10 [a, b]) else none

def daysIn (year month : Nat) : Nat :=
  if month = 2 then
    if (year % 4 = 0 && year % 100 ≠ 0) || year % 400 = 0 then 29 else 28
  else if [4, 6, 9, 11].contains month then 30
  else 31

def isDate : List Char → Bool
  | [y1, y2, y3, y4, '-', m1, m2, '-', d1, d2] =>
    match twoDigits? y1 y2, twoDigits? y3 y4, twoDigits? m1 m2, twoDigits? d1 d2 with
    | some century, some year, some month, some day =>
      1 ≤ month && month ≤ 12 && 1 ≤ day && day ≤ daysIn (century * 100 + year) month
    | _, _, _, _ => false
  | _ => false

/-- Whether a text is an hour and a minute. -/
def isClock : List Char → Bool
  | [h1, h2, ':', m1, m2] =>
    match twoDigits? h1 h2, twoDigits? m1 m2 with
    | some hour, some minute => hour < 24 && minute < 60
    | _, _ => false
  | _ => false

/-- Whether a text is a time; seconds may be left out, and a minute may have a leap second. -/
def isTime (cs : List Char) : Bool :=
  isClock (cs.take 5) &&
    match cs.drop 5 with
    | [] => true
    | ':' :: s1 :: s2 :: rest =>
      (twoDigits? s1 s2).any (· ≤ 60) &&
        match rest with
        | [] => true
        | '.' :: digits => digits ≠ [] && digits.all Char.isDigit
        | _ => false
    | _ => false

/-- Whether a text is the end of a time that names a time zone, and the length of that end. -/
def zoneLength (cs : List Char) : Nat :=
  match cs.reverse with
  | 'Z' :: _ => 1
  | 'z' :: _ => 1
  | m2 :: m1 :: ':' :: h2 :: h1 :: sign :: _ =>
    if (sign = '+' || sign = '-') && isClock [h1, h2, ':', m1, m2] then 6 else 0
  | _ => 0

/-- Whether a text is a date, a time, or a date and a time, perhaps with a time zone. -/
def isDatetime (cs : List Char) : Bool :=
  match cs.drop 10 with
  | [] => isDate cs || isTime cs
  | c :: time =>
    (isDate (cs.take 10) && (c = 'T' || c = 't' || c = ' ') &&
      isTime (time.take (time.length - zoneLength time))) || isTime cs

end GitPublish.Toml
