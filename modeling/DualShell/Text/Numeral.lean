import DualShell.Text

/-!
Numerals: the number that a text of digits denotes in a base, and the integer with a sign before it.
-/

namespace DualShell.Text

/-- The value of a digit below a base of at most sixteen. After the decimal digits come letters of
either case. -/
def digitIn? (base : Nat) (c : Char) : Option Nat :=
  let value : Option Nat :=
    if c.isDigit then some (c.toNat - '0'.toNat)
    else if 'a' ≤ c ∧ c ≤ 'f' then some (c.toNat - 'a'.toNat + 10)
    else if 'A' ≤ c ∧ c ≤ 'F' then some (c.toNat - 'A'.toNat + 10)
    else none
  value.filter (· < base)

/-- The number that digits in a base denote; there is at least one of them. -/
def readInBase? (base : Nat) : Text → Option Nat
  | [] => none
  | digits => digits.foldlM (fun value c => (digitIn? base c).map (base * value + ·)) 0

def readNumeral? (t : Text) : Option Nat := readInBase? 10 t

/-- The integer denoted by a numeral with at most one sign before it. -/
def readInteger? : Text → Option Int
  | [] => none
  | c :: rest =>
    if c = '+' then (readNumeral? rest).map Int.ofNat
    else if c = '-' then (readNumeral? rest).map fun n => -Int.ofNat n
    else (readNumeral? (c :: rest)).map Int.ofNat

def dropSign : Text → Text
  | [] => []
  | c :: rest => if c = '+' ∨ c = '-' then rest else c :: rest

/-- Whether the text is a decimal fraction: digits around a point, at least one of them, then an
exponent or nothing. -/
def isFraction (t : Text) : Bool :=
  let unsigned := dropSign t
  let whole := unsigned.takeWhile Char.isDigit
  match unsigned.drop whole.length with
  | '.' :: rest =>
    let fractional := rest.takeWhile Char.isDigit
    let exponent := rest.drop fractional.length
    !(whole.isEmpty && fractional.isEmpty) &&
      (match exponent with
        | [] => true
        | c :: power => (c == 'e' || c == 'E') && isNumeral (dropSign power))
  | _ => false

end DualShell.Text
