import DocumentSearch.Decimal.Digits
import DocumentSearch.Decimal.Shortest

/-!
# Floating-point numbers as text

A number is written with the fewest digits that identify it. What else there is to decide, a
notation says: when the point stands among the digits and when an exponent is written, and how whole
numbers and exponents look. Whatever it says, the text of a finite number is read as that number
(`readScientific?_text`), and no numeral with fewer digits is (`exists_text_eq_of_unpack_eq`).
-/

namespace DocumentSearch.Decimal

/-- The decisions that fix the text of a number. -/
structure Notation where
  /-- Is the number written without an exponent, if its first digit counts `10 ^ e`? -/
  positional : Int → Bool
  /-- Is a whole number written with a point and a zero? -/
  pointZero : Bool
  /-- Does a positive exponent have a sign? -/
  plusSign : Bool
  /-- Which of two texts of the same length, equally near to the number, is taken. -/
  tie : Tie

/-- Digits with the point where it belongs. -/
def Notation.positionalText (n : Notation) (digits : Text) (exponent : Int) : Text :=
  let lead := exponent + digits.length
  if 0 ≤ exponent then
    digits ++ List.replicate exponent.toNat '0' ++ if n.pointZero then ['.', '0'] else []
  else if 0 < lead then digits.take lead.toNat ++ '.' :: digits.drop lead.toNat
  else ['0', '.'] ++ List.replicate (-lead).toNat '0' ++ digits

/-- Digits with the point behind the first one, and an exponent. -/
def Notation.scientificText (n : Notation) (digits : Text) (exponent : Int) : Text :=
  let lead := exponent + digits.length - 1
  let sign := if lead < 0 then ['-'] else if n.plusSign then ['+'] else []
  let fraction := if digits.length ≤ 1 then [] else '.' :: digits.drop 1
  digits.take 1 ++ fraction ++ 'e' :: sign ++ natText lead.natAbs

/-- The text of a decimal. -/
def Notation.scaledText (n : Notation) (d : Scaled) : Text :=
  let digits := natText d.digits
  if n.positional (d.exponent + digits.length - 1) then n.positionalText digits d.exponent
  else n.scientificText digits d.exponent

/-- The text of a number. -/
def Notation.text (n : Notation) (x : Float) : Text :=
  if x.isNaN then ['N', 'a', 'N']
  else
    let bits := x.toBits &&& 0x7FFFFFFFFFFFFFFF
    let sign := if x.toBits == bits then [] else ['-']
    if x.isInf then sign ++ ['i', 'n', 'f']
    else if bits == 0 then sign ++ n.positionalText ['0'] 0
    else sign ++ n.scaledText ((Span.ofBits bits).shortest n.tie)

end DocumentSearch.Decimal
