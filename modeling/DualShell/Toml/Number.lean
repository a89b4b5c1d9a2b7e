import DualShell.Text.Numeral
import DualShell.Text.Reader
import DualShell.Text.Split

/-!
Numbers of a settings file. The digits may be grouped by underscores, each between two digits. An
integer is decimal, with an optional sign and no leading zero, or has a prefix that names its base;
a fraction has a fractional part or an exponent, or is infinite or no number at all, and one that 64
bits cannot hold is none.
-/

namespace DualShell.Toml

/-- The digits of groups that underscores separate. Every group holds at least one digit. -/
def joinGroups? (base : Nat) (t : Text) : Option Text :=
  let groups := Text.split '_' t
  if groups.all fun group => (Text.readInBase? base group).isSome then some groups.flatten else none

def digits (base : Nat) : Reader Text := do
  let t ← Reader.takeWhile fun c => (Text.digitIn? base c).isSome || c == '_'
  joinGroups? base t

/-- Reads an optional sign, and says whether it is the negative one. -/
def sign : Reader Bool := do
  match ← Reader.peek? with
  | some '-' =>
    Reader.char '-'
    return true
  | some '+' =>
    Reader.char '+'
    return false
  | _ => return false

def wholePart : Reader Text := do
  let t ← digits 10
  guard (t.length = 1 ∨ t.head? ≠ some '0')
  return t

def decimalInteger : Reader Int := do
  let negative ← sign
  let magnitude ← Text.readInBase? 10 (← wholePart)
  return if negative then -magnitude else magnitude

def prefixedInteger (mark : Text) (base : Nat) : Reader Int := do
  Reader.exactly mark
  let magnitude ← Text.readInBase? base (← digits base)
  return magnitude

/-- Integers lie between the negative of this bound and the bound: they have 64 bits, the sign
included. -/
def integerBound : Int := 9223372036854775808

def integer : Reader Int := do
  let n ← prefixedInteger "0x" 16 <|> prefixedInteger "0o" 8 <|> prefixedInteger "0b" 2 <|>
    decimalInteger
  guard (-integerBound ≤ n ∧ n < integerBound)
  return n

/-- The least magnitude that no fraction of 64 bits is near to: it lies halfway between the largest
finite fraction and the power of two that follows. -/
def fractionBound : Nat := Nat.pow 2 1024 - Nat.pow 2 970

/-- The number of decimal digits of the bound. -/
def fractionBoundLength : Nat := 309

/-- Whether digits times a power of ten come to the bound of fractions. Only a magnitude with as many
digits as the bound is compared with it digit by digit. -/
def isTooLarge (digits : Text) (power : Int) : Bool :=
  let significant := digits.dropWhile (· == '0')
  let length := significant.length
  let magnitude := length + power
  match Text.readInBase? 10 significant with
  | none => false
  | some n =>
    if magnitude = fractionBoundLength then
      fractionBound * Nat.pow 10 (length - fractionBoundLength) ≤
        n * Nat.pow 10 (fractionBoundLength - length)
    else fractionBoundLength < magnitude

def exponent : Reader Int := do
  let _ ← Reader.satisfying fun c => c == 'e' || c == 'E'
  let negative ← sign
  let magnitude ← Text.readInBase? 10 (← digits 10)
  return if negative then -magnitude else magnitude

def fractionalPart : Reader (Text × Int) := do
  Reader.char '.'
  let t ← digits 10
  let power ← exponent <|> pure 0
  return (t, power)

def fraction : Reader Unit := do
  let _ ← sign
  Reader.exactly "inf" <|> Reader.exactly "nan" <|> (do
    let whole ← wholePart
    let (part, power) ← fractionalPart <|> (do return ([], ← exponent))
    guard (!isTooLarge (whole ++ part) (power - part.length)))

end DualShell.Toml
