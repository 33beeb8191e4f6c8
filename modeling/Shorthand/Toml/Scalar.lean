import Shorthand.Text.Decimal
import Shorthand.Toml.Value
/-!
# Numbers, truth values, dates and times

The values of TOML that are written without quotes or brackets.  Digits may be grouped by single underscores, and a
number has no leading zeros.  A float must not exceed the range of double precision.
-/
namespace Shorthand.Toml

open Text (decimal)

/-- The digits of a grouped run: the underscores stand singly and between digits. -/
def ungroup? (isDigit : Char → Bool) : Text → Option Text
  | [] => none
  | [c] => if isDigit c then some [c] else none
  | c :: '_' :: t => if isDigit c then (ungroup? isDigit t).map (c :: ·) else none
  | c :: t => if isDigit c then (ungroup? isDigit t).map (c :: ·) else none

/-- The sign of a number, negative or not, and what follows it. -/
def splitSign : Text → Bool × Text
  | '-' :: t => (true, t)
  | '+' :: t => (false, t)
  | t => (false, t)

/-- The digits of a whole number in decimal, without leading zeros. -/
def wholeDigits? (t : Text) : Option Text :=
  if t.head? = some '0' && 1 < t.length then none else ungroup? Char.isDigit t

/-! ## Integers -/

def digitValue (c : Char) : Nat :=
  if c.isDigit then c.toNat - '0'.toNat
  else if 'a' ≤ c && c ≤ 'f' then c.toNat - 'a'.toNat + 10
  else c.toNat - 'A'.toNat + 10

def isHexDigit (c : Char) : Bool := c.isDigit || ('a' ≤ c && c ≤ 'f') || ('A' ≤ c && c ≤ 'F')

def valueIn (base : Nat) (digits : Text) : Nat := digits.foldl (fun n d => base * n + digitValue d) 0

def integer? (t : Text) : Option Int :=
  match t with
  | '0' :: 'x' :: t => (ungroup? isHexDigit t).map fun ds => valueIn 16 ds
  | '0' :: 'o' :: t => (ungroup? (fun c => c.isDigit && c < '8') t).map fun ds => valueIn 8 ds
  | '0' :: 'b' :: t => (ungroup? (fun c => c = '0' || c = '1') t).map fun ds => valueIn 2 ds
  | t =>
    let (negative, t) := splitSign t
    (wholeDigits? t).map fun ds => if negative then -(decimal ds : Int) else decimal ds

/-! ## Floats -/

/-- The least number that is not rounded to a finite double. -/
def doubleLimit : Nat := Nat.pow 2 1024 - Nat.pow 2 970

/-- The digits with the point behind the first `whole` of them, times ten to the `exponent`, are in the range of double
precision. -/
def isFinite (digits : Text) (whole : Nat) (exponent : Int) : Bool :=
  let significant := digits.dropWhile (· = '0')
  let magnitude : Int := significant.length - (digits.length - whole : Nat) + exponent
  if significant = [] || magnitude < 300 then true
  else if 310 < magnitude then false
  else
    let scale : Int := exponent - (digits.length - whole : Nat)
    decimal digits * Nat.pow 10 scale.toNat < doubleLimit * Nat.pow 10 (-scale).toNat

/-- `t` is an exponent, whose value is given. -/
def exponent? (t : Text) : Option Int :=
  let (negative, t) := splitSign t
  (ungroup? Char.isDigit t).map fun ds => if negative then -(decimal ds : Int) else decimal ds

/-- `t` is a float within range. -/
def isFloat (t : Text) : Bool :=
  let t := (splitSign t).2
  if t = "inf".toList || t = "nan".toList then true
  else
    let isMark (c : Char) : Bool := c = 'e' || c = 'E'
    let mantissa := t.takeWhile fun c => !isMark c
    let whole := mantissa.takeWhile (· != '.')
    let fraction? : Option Text :=
      match mantissa.dropWhile (· != '.') with
      | [] => some []
      | _ :: fraction => ungroup? Char.isDigit fraction
    let exponent? : Option Int :=
      match t.dropWhile fun c => !isMark c with
      | [] => some 0
      | _ :: exponent => exponent? exponent
    match wholeDigits? whole, fraction?, exponent? with
    | some whole, some fraction, some exponent =>
      (t.contains '.' || t.any isMark) && isFinite (whole ++ fraction) whole.length exponent
    | _, _, _ => false

/-! ## Dates and times -/

/-- The number of two digits that starts `t`, and the rest. -/
def twoDigits? : Text → Option (Nat × Text)
  | a :: b :: t => if a.isDigit && b.isDigit then some (decimal [a, b], t) else none
  | _ => none

def daysIn (year month : Nat) : Nat :=
  if month = 2 then if year % 4 = 0 && (year % 100 ≠ 0 || year % 400 = 0) then 29 else 28
  else if month = 4 || month = 6 || month = 9 || month = 11 then 30
  else 31

/-- What follows the date that starts `t`. -/
def afterDate? (t : Text) : Option Text := do
  let (century, t) ← twoDigits? t
  let (year, t) ← twoDigits? t
  let '-' :: t := t | none
  let (month, t) ← twoDigits? t
  let '-' :: t := t | none
  let (day, t) ← twoDigits? t
  if 1 ≤ month && month ≤ 12 && 1 ≤ day && day ≤ daysIn (100 * century + year) month then some t else none

/-- What follows the time that starts `t`. -/
def afterTime? (t : Text) : Option Text := do
  let (hour, t) ← twoDigits? t
  let ':' :: t := t | none
  let (minute, t) ← twoDigits? t
  if 23 < hour || 59 < minute then none
  else
    match t with
    | ':' :: t =>
      let (second, t) ← twoDigits? t
      if 60 < second then none
      else
        match t with
        | '.' :: t => if t.head?.any Char.isDigit then some (t.dropWhile Char.isDigit) else none
        | t => some t
    | t => some t

/-- `t` is the distance from universal time. -/
def isZone (t : Text) : Bool :=
  match t with
  | ['Z'] | ['z'] => true
  | c :: t =>
    (c = '+' || c = '-') &&
      match twoDigits? t with
      | some (hours, ':' :: t) =>
        match twoDigits? t with
        | some (minutes, []) => 60 * hours + minutes ≤ 24 * 60
        | _ => false
      | _ => false
  | [] => false

/-- `t` is a date, a time, or a date with a time. -/
def isMoment (t : Text) : Bool :=
  match afterDate? t with
  | some [] => true
  | some (c :: t) =>
    (c = 'T' || c = 't' || c = ' ') &&
      match afterTime? t with
      | some [] => true
      | some zone => isZone zone
      | none => false
  | none => afterTime? t = some []

/-! ## All scalars -/

def scalar? (t : Text) : Option Value :=
  if t = "true".toList then some (.truth true)
  else if t = "false".toList then some (.truth false)
  else
    match integer? t with
    | some n => some (.integer n)
    | none => if isFloat t then some (.float t) else if isMoment t then some (.moment t) else none

/-- `c` ends a value without quotes. -/
def endsScalar (c : Char) : Bool :=
  c = ' ' || c = '\t' || c = '\n' || c = '\r' || c = ',' || c = ']' || c = '\x7d' || c = '#'

/-- Reads a scalar.  A date and a time may have a space between them. -/
def readScalar? (s : Text) : Option (Value × Text) :=
  let first := s.takeWhile fun c => !endsScalar c
  let left := s.dropWhile fun c => !endsScalar c
  let joined : Option (Text × Text) :=
    match afterDate? first, left with
    | some [], ' ' :: more =>
      if more.head?.any Char.isDigit then
        some (first ++ ' ' :: more.takeWhile fun c => !endsScalar c, more.dropWhile fun c => !endsScalar c)
      else none
    | _, _ => none
  let (t, left) := joined.getD (first, left)
  (scalar? t).map fun v => (v, left)

end Shorthand.Toml
