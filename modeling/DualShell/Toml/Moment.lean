import DualShell.Text.Numeral
import DualShell.Text.Reader

/-!
Dates and times of a settings file. Only days that their month has are dates, and a date may be
followed by a time of day, and that by the distance from universal time.
-/

namespace DualShell.Toml

def fixedNumber (width : Nat) : Reader Nat := do
  let t ← get
  let digits := t.take width
  guard (digits.length = width)
  set (t.drop width)
  Text.readNumeral? digits

def isLeapYear (year : Nat) : Bool := year % 4 == 0 && (year % 100 != 0 || year % 400 == 0)

def daysOfMonth (year month : Nat) : Nat :=
  if month = 2 then if isLeapYear year then 29 else 28
  else if month = 4 ∨ month = 6 ∨ month = 9 ∨ month = 11 then 30
  else 31

def date : Reader Unit := do
  let year ← fixedNumber 4
  Reader.char '-'
  let month ← fixedNumber 2
  guard (1 ≤ month ∧ month ≤ 12)
  Reader.char '-'
  let day ← fixedNumber 2
  guard (1 ≤ day ∧ day ≤ daysOfMonth year month)

def hourAndMinute : Reader Unit := do
  let hour ← fixedNumber 2
  guard (hour ≤ 23)
  Reader.char ':'
  let minute ← fixedNumber 2
  guard (minute ≤ 59)

/-- Reads a time of day; a minute may have a leap second. -/
def timeOfDay : Reader Unit := do
  hourAndMinute
  Reader.char ':'
  let second ← fixedNumber 2
  guard (second ≤ 60)
  Reader.optionally do
    Reader.char '.'
    let fraction ← Reader.takeWhile Char.isDigit
    guard (fraction ≠ [])

/-- Reads the distance from universal time. -/
def offset : Reader Unit :=
  Reader.char 'Z' <|> Reader.char 'z' <|> (do
    let _ ← Reader.satisfying fun c => c == '+' || c == '-'
    hourAndMinute)

def moment : Reader Unit :=
  (do
    date
    Reader.optionally do
      let _ ← Reader.satisfying fun c => c == 'T' || c == 't' || c == ' '
      timeOfDay
      Reader.optionally offset) <|> timeOfDay

end DualShell.Toml
