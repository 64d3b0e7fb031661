import DocumentSearch.Data.Toml.Quoted
import DocumentSearch.Data.Value
import DocumentSearch.Decimal.Float

/-!
# Numbers, truth values and moments in TOML

Numbers can have underscores between their digits. Decimal numbers have no leading zeros; integers
can also be hexadecimal, octal or binary. A number with a point or an exponent has digits on both
sides of the point and must not be too large for a double. Moments are dates, times of day, or both.
-/

namespace DocumentSearch.Toml

/-! ## Digits -/

/-- The digits without the underscores, each of which stands between two digits. There is at least
one digit. -/
def digits? (isDigit : Char → Bool) : Text → Option Text
  | [] => none
  | [c] => if isDigit c then some [c] else none
  | c :: '_' :: d :: t =>
    if isDigit c && isDigit d then (digits? isDigit (d :: t)).map (c :: ·) else none
  | c :: t => if isDigit c then (digits? isDigit t).map (c :: ·) else none

/-- The digits of a decimal number without leading zeros. -/
def wholeDigits? (t : Text) : Option Text :=
  match digits? Char.isDigit t with
  | some ('0' :: _ :: _) => none
  | r => r

/-- The value of digits in a base, each of them read by its hexadecimal value. -/
def valueInBase? (base : Nat) (t : Text) : Option Nat := do
  let isDigit := fun c => match hexValue? [c] with
    | some d => d < base
    | none => false
  let digits ← digits? isDigit t
  return digits.foldl (fun n c => base * n + (hexValue? [c]).getD 0) 0

/-! ## Numbers -/

/-- The integers that a number can hold at all. -/
def isHeld (n : Int) : Bool := -(1 <<< 127) ≤ n && n < 1 <<< 128

/-- An integer. -/
def integer? (t : Text) : Option Data :=
  let n : Option Int := match t with
    | '0' :: 'x' :: t => (valueInBase? 16 t).map Int.ofNat
    | '0' :: 'o' :: t => (valueInBase? 8 t).map Int.ofNat
    | '0' :: 'b' :: t => (valueInBase? 2 t).map Int.ofNat
    | t =>
      let (negative, unsigned) := Decimal.splitSign t
      (wholeDigits? unsigned).map fun ds =>
        if negative then -(Decimal.digitsValue ds : Int) else Decimal.digitsValue ds
  (n.filter isHeld).map .integer

/-- The decimal part and the exponent part of a number. -/
def splitExponent (t : Text) : Text × Option Text :=
  match Text.splitOnce 'e' (t.map Char.toLower) with
  | some (decimal, exponent) => (decimal, some exponent)
  | none => (t, none)

/-- The digits before the point and behind it. Without a point there has to be an exponent, because
the number would be an integer otherwise. -/
def splitDigits? (decimal : Text) (hasExponent : Bool) : Option (Text × Text) :=
  match Text.splitOnce '.' decimal with
  | some (whole, fraction) => do return (← wholeDigits? whole, ← digits? Char.isDigit fraction)
  | none => if hasExponent then (wholeDigits? decimal).map (·, []) else none

/-- An exponent: digits with or without a sign. -/
def exponent? (t : Text) : Option Int :=
  let (negative, unsigned) := Decimal.splitSign t
  (digits? Char.isDigit unsigned).map fun ds =>
    if negative then -(Decimal.digitsValue ds : Int) else Decimal.digitsValue ds

/-- A finite number with a point, an exponent or both. -/
def finite? (t : Text) : Option Data := do
  let (negative, unsigned) := Decimal.splitSign t
  let (decimal, exponent) := splitExponent unsigned
  let (whole, fraction) ← splitDigits? decimal exponent.isSome
  let exponent ← exponent? (exponent.getD ['0'])
  let x := Decimal.nearestFloat negative (Decimal.digitsValue (whole ++ fraction))
    (exponent - fraction.length)
  if x.isFinite then some (.float x) else none

/-- An infinity, or what is no number. There is one NaN only, so the sign of a `-nan` is lost. -/
def special? (t : Text) : Option Data :=
  let (negative, unsigned) := Decimal.splitSign t
  if unsigned = ['i', 'n', 'f'] then some (.float (if negative then -1.0 / 0.0 else 1.0 / 0.0))
  else if unsigned = ['n', 'a', 'n'] then some (.float (0.0 / 0.0))
  else none

/-! ## Moments -/

/-- The number that two digits spell. -/
def two? (a b : Char) : Option Nat := Decimal.readNat? [a, b]

/-- The days of a month. -/
def daysOf (year month : Nat) : Nat :=
  if month = 2 then if year % 4 = 0 && (year % 100 != 0 || year % 400 = 0) then 29 else 28
  else if month = 4 || month = 6 || month = 9 || month = 11 then 30
  else 31

/-- What stands behind a date. -/
def afterDate? : Text → Option Text
  | a :: b :: c :: d :: '-' :: e :: f :: '-' :: g :: h :: t => do
    let year ← Decimal.readNat? [a, b, c, d]
    let month ← two? e f
    let day ← two? g h
    if 1 ≤ month && month ≤ 12 && 1 ≤ day && day ≤ daysOf year month then some t else none
  | _ => none

/-- What stands behind a fraction of a second. -/
def afterFraction? : Text → Option Text
  | '.' :: c :: t => if c.isDigit then some (t.dropWhile Char.isDigit) else none
  | '.' :: [] => none
  | t => some t

/-- What stands behind a time of day. The seconds may be missing. -/
def afterTime? : Text → Option Text
  | a :: b :: ':' :: c :: d :: t => do
    let hour ← two? a b
    let minute ← two? c d
    if hour ≤ 23 && minute ≤ 59 then
      match t with
      | ':' :: e :: f :: t => do
        let second ← two? e f
        if second ≤ 60 then afterFraction? t else none
      | t => some t
    else none
  | _ => none

/-- Is the text an offset from universal time, or nothing? -/
def isOffset : Text → Bool
  | [] | ['Z'] | ['z'] => true
  | [sign, a, b, ':', c, d] =>
    (sign == '+' || sign == '-') &&
      match two? a b, two? c d with
      | some hours, some minutes => hours ≤ 23 && minutes ≤ 59
      | _, _ => false
  | _ => false

/-- Is the text a date, a time of day, or both? -/
def isMoment (t : Text) : Bool :=
  match afterDate? t with
  | some [] => true
  | some (c :: rest) =>
    (c == 'T' || c == 't' || c == ' ') && ((afterTime? rest).map isOffset).getD false
  | none => afterTime? t == some []

/-! ## Scalars -/

/-- What an unquoted word stands for. -/
def scalar? (word : Text) : Option Data :=
  if word = "true".toList then some (.boolean true)
  else if word = "false".toList then some (.boolean false)
  else ((special? word).or (integer? word)).or
    ((finite? word).or (if isMoment word then some (.moment word) else none))

end DocumentSearch.Toml
