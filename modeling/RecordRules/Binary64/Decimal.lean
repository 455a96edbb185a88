/-
Decimal texts of binary64 numbers.

`Finite.shortest` gives the fewest digits that read back as the number, and of those the nearest to
it; where two are equally near a `Tie` settles which.  `ofDigits` is the way back: the value of a
digit string and a power of ten, rounded once.  `parse?` reads the usual spelling of a decimal with
an optional sign, fraction and exponent.
-/
import RecordRules.Binary64.Basic

namespace RecordRules
namespace Binary64

/-! ## From digits to numbers -/

def tenTo (k : Nat) : Nat := Nat.pow 10 k

/-- The ratio `m * 10 ^ e`, as numerator and denominator. -/
def decimalRatio (m : Nat) (e : Int) : Nat × Nat :=
  if 0 ≤ e then (m * tenTo e.toNat, 1) else (m, tenTo (-e).toNat)

def nearestDecimal (m : Nat) (e : Int) : Nat :=
  nearest ((decimalRatio m e).1 * one) (decimalRatio m e).2

/-- The value nearest to `m * 10 ^ e`, where `m` has `count` digits without leading zeros.  A power
of ten so large or so small that it decides the answer alone is not raised. -/
def ofDigits (negative : Bool) (m count : Nat) (e : Int) : Binary64 :=
  if m = 0 then ofRatio negative 0 1
  else if 310 < e + count then infinite negative
  else if e + count < -330 then ofRatio negative 0 1
  else ofRatio negative ((decimalRatio m e).1 * one) (decimalRatio m e).2

/-! ## From numbers to digits -/

/-- Which of two equally near decimals stands for a number. -/
inductive Tie where
  /-- The one whose last digit is even. -/
  | toEven
  /-- The one of greater magnitude. -/
  | awayFromZero
deriving DecidableEq

/-- The upper of two neighbours is taken, where the lower one has the digits `low`. -/
def Tie.takesUpper (low : Nat) : Tie → Bool
  | toEven => low % 2 == 1
  | awayFromZero => true

/-- A magnitude `digits * 10 ^ exponent`. -/
structure Decimal where
  digits : Nat
  exponent : Int
deriving DecidableEq

def digitCount (n : Nat) : Nat := (Nat.toDigits 10 n).length

/-- The power of ten of the leading digit of a magnitude.  The magnitude is scaled up by a power
of ten that brings the smallest one above 1, and its digits are counted there. -/
def leadingPower (units : Nat) : Int :=
  (digitCount (units * tenTo 340 / one) : Int) - 1 - 340

/-- The candidate with `n` digits for a magnitude whose leading digit stands at `10 ^ lead`: of
its neighbours among the multiples of `10 ^ (lead + 1 - n)` those that read back, and the nearer
if both do. -/
def candidate? (tie : Tie) (units : Nat) (lead : Int) (n : Nat) : Option Decimal :=
  let e := lead + 1 - n
  let scale := decimalRatio 1 e
  let den := scale.1 * one
  let low := units * scale.2 / den
  let rest := units * scale.2 % den
  let lowReads := nearestDecimal low e == units
  let highReads := nearestDecimal (low + 1) e == units
  let highNearer := den < 2 * rest || (2 * rest == den && tie.takesUpper low)
  if highReads && (highNearer || !lowReads) then some ⟨low + 1, e⟩
  else if lowReads then some ⟨low, e⟩
  else none

def Decimal.trim : Nat → Decimal → Decimal
  | 0, d => d
  | n + 1, d => if d.digits % 10 = 0 then trim n ⟨d.digits / 10, d.exponent + 1⟩ else d

/-- The fewest digits that read back as a magnitude.  Seventeen always do. -/
def shortestUnits (tie : Tie) (units : Nat) : Decimal :=
  if units = 0 then ⟨0, 0⟩
  else
    match (List.range 17).findSome? fun i =>
      candidate? tie units (leadingPower units) (i + 1) with
    | some d => d.trim 17
    | none => ⟨units, 0⟩

def Finite.shortest (tie : Tie) (x : Finite) : Decimal := shortestUnits tie x.units

/-! ## Texts -/

/-- The digits of a decimal with its point where it belongs and no exponent; a whole number ends
in `wholeTail`. -/
def Decimal.positional (d : Decimal) (wholeTail : String) : String :=
  let text := toString d.digits
  let count : Int := text.length
  let point := count + d.exponent
  if 0 ≤ d.exponent then
    text ++ String.ofList (List.replicate d.exponent.toNat '0') ++ wholeTail
  else if point ≤ 0 then
    "0." ++ String.ofList (List.replicate (-point).toNat '0') ++ text
  else
    String.ofList (text.toList.take point.toNat) ++ "." ++
      String.ofList (text.toList.drop point.toNat)

def Decimal.scientific (d : Decimal) : String :=
  let text := (toString d.digits).toList
  let power := (text.length : Int) - 1 + d.exponent
  let fraction := if text.length ≤ 1 then "" else "." ++ String.ofList (text.drop 1)
  let sign := if power < 0 then "-" else "+"
  String.ofList (text.take 1) ++ fraction ++ "e" ++ sign ++ toString power.natAbs

def Decimal.power (d : Decimal) : Int := (digitCount d.digits : Int) - 1 + d.exponent

/-- The text without an exponent, whatever the magnitude.  A tie goes away from zero. -/
def Finite.plainText (x : Finite) : String :=
  (if x.negative then "-" else "") ++ (x.shortest .awayFromZero).positional ""

/-- The text that reads as a decimal number and not as an integer: positional from `1e-5` up to
`1e16`, where a whole number keeps one decimal, and with an exponent otherwise.  A tie goes to the
even digit. -/
def Finite.markedText (x : Finite) : String :=
  let d := x.shortest .toEven
  let body :=
    if x.units = 0 ∨ (-5 ≤ d.power ∧ d.power < 16) then d.positional ".0" else d.scientific
  (if x.negative then "-" else "") ++ body

def plainText : Binary64 → String
  | finite x => x.plainText
  | infinite negative => if negative then "-inf" else "inf"
  | notANumber => "NaN"

/-! ## Reading -/

/-- The digits at the start of a text and what follows them. -/
def takeDigits (s : List Char) : List Char × List Char :=
  (s.takeWhile Char.isDigit, s.dropWhile Char.isDigit)

def digitsValue (ds : List Char) : Nat := ds.foldl (fun n c => 10 * n + (c.toNat - '0'.toNat)) 0

/-- From here on the digits of an exponent no longer count. -/
def exponentLimit : Nat := 65536

/-- The exponent that a string of digits spells.  The digits that follow one of `exponentLimit` or
more leave it as it is. -/
def exponentValue (ds : List Char) : Nat :=
  ds.foldl (fun n c => if n < exponentLimit then 10 * n + (c.toNat - '0'.toNat) else n) 0

/-- A sign, if there is one: whether it is a minus, and what follows. -/
def takeSign : List Char → Bool × List Char
  | '-' :: rest => (true, rest)
  | '+' :: rest => (false, rest)
  | rest => (false, rest)

/-- The power of ten after a mantissa: nothing, or `e` and a signed run of digits to the end. -/
def parseExponent? : List Char → Option Int
  | [] => some 0
  | c :: rest =>
    if c = 'e' ∨ c = 'E' then
      let (negative, body) := takeSign rest
      let (ds, tail) := takeDigits body
      if ds.isEmpty || !tail.isEmpty then none
      else if negative then some (-(exponentValue ds : Int)) else some (exponentValue ds)
    else none

/-- The fraction digits after a point, if there is one, and what follows. -/
def takeFraction : List Char → List Char × List Char
  | '.' :: rest => takeDigits rest
  | rest => ([], rest)

/-- Reads `[sign] digits [. digits] [e [sign] digits]`, with a digit somewhere before the
exponent. -/
def parse? (s : List Char) : Option Binary64 :=
  let (negative, body) := takeSign s
  let (whole, afterWhole) := takeDigits body
  let (fraction, tail) := takeFraction afterWhole
  if whole.isEmpty && fraction.isEmpty then none
  else
    (parseExponent? tail).map fun e =>
      let digits := (whole ++ fraction).dropWhile (· == '0')
      ofDigits negative (digitsValue digits) digits.length (e - fraction.length)

end Binary64
end RecordRules
