import Skeletons.Decimal
import Skeletons.Text.Reader

namespace Skeletons

def isLeapYear (year : Int) : Bool :=
  year % 4 == 0 && (year % 100 != 0 || year % 400 == 0)

def daysInMonth (year : Int) (month : Nat) : Nat :=
  if month = 2 then (if isLeapYear year then 29 else 28)
  else if [4, 6, 9, 11].contains month then 30
  else 31

/-- The number of a day, counted from the first of March of the year zero. Years start in March here, so
    that a leap day is the last of its year. -/
def dayNumber (year : Int) (month day : Nat) : Int :=
  let year := if month < 3 then year - 1 else year
  let month := if month < 3 then month + 9 else month - 3
  365 * year + year.fdiv 4 - year.fdiv 100 + year.fdiv 400 + (153 * month + 2) / 5 + day - 1

def civilDay (number : Int) : Int × Nat × Nat :=
  let era := number.fdiv 146097
  let day := (number - era * 146097).toNat
  let yearOfEra := (day - day / 1460 + day / 36524 - day / 146096) / 365
  let dayOfYear := day - (365 * yearOfEra + yearOfEra / 4 - yearOfEra / 100)
  let month := (5 * dayOfYear + 2) / 153
  let dayOfMonth := dayOfYear - (153 * month + 2) / 5 + 1
  let year := era * 400 + yearOfEra
  if month < 10 then (year, month + 3, dayOfMonth) else (year + 1, month - 9, dayOfMonth)

/-- A point in universal time. A leap second is the last second of its minute with a thousand million
    nanoseconds or more. -/
structure Timestamp where
  /-- Seconds since the start of the day with number zero. -/
  seconds : Int
  nanoseconds : Nat
deriving DecidableEq, Inhabited

namespace Timestamp

def isYear (year : Int) : Bool := decide (-262143 ≤ year ∧ year ≤ 262142)

def yearOf (seconds : Int) : Int := (civilDay (seconds.fdiv 86400)).1

def digitsToNat (digits : List Char) : Nat :=
  digits.foldl (fun n c => 10 * n + (c.toNat - '0'.toNat)) 0

def upTo (most : Nat) : Reader Nat := fun text =>
  let taken := (text.take most).takeWhile Char.isDigit
  if taken.isEmpty then none else some (digitsToNat taken, text.drop taken.length)

def blanks : Reader Unit := do let _ ← Reader.takeWhile isBlank

def year : Reader Int := do
  blanks
  if ← Reader.accepts (Reader.char '-') then return -(digitsToNat (← Reader.takeWhile1 Char.isDigit) : Int)
  else if ← Reader.accepts (Reader.char '+') then return digitsToNat (← Reader.takeWhile1 Char.isDigit)
  else return (← upTo 4 : Nat)

def part (mark : Option Char) (least most : Nat) : Reader Nat := do
  match mark with
  | some mark => blanks; Reader.char mark
  | none => pure ()
  blanks
  let n ← upTo 2
  if least ≤ n ∧ n ≤ most then return n else Reader.fail

def fraction : Reader Nat := do
  if ← Reader.accepts (Reader.char '.') then
    let digits ← Reader.takeWhile1 Char.isDigit
    let counted := digits.take 9
    return digitsToNat counted * Nat.pow 10 (9 - counted.length)
  else return 0

def offset : Reader Int := do
  blanks
  let isWord := fun word : List Char => fun text : List Char =>
    (text.take word.length).map Char.toUpper = word
  let text ← get
  if isWord ['U', 'T', 'C'] text then
    set (text.drop 3)
    return 0
  else if isWord ['Z'] text then
    set (text.drop 1)
    return 0
  else
    let sign ← Reader.satisfy fun c => c = '+' || c = '-' || c = '\u2212'
    let hours := digitsToNat (← Reader.takeExactly 2 Char.isDigit)
    let _ ← Reader.takeWhile fun c => c = ':' || isBlank c
    let minutes := digitsToNat (← Reader.takeExactly 2 Char.isDigit)
    if hours < 24 ∧ minutes < 60 then
      let seconds : Int := hours * 3600 + minutes * 60
      return if sign = '+' then seconds else -seconds
    else Reader.fail

/-- A date, a `T` or a blank, a time and an offset. The year is told both where the offset holds and in
    universal time. -/
def reader : Reader Timestamp := do
  let year ← year
  let month ← part '-' 1 12
  let day ← part '-' 1 31
  let _ ← Reader.satisfy fun c => c = 'T' || c = 't' || c = ' '
  let hour ← part none 0 23
  let minute ← part ':' 0 59
  let second ← part ':' 0 60
  let nanoseconds ← fraction
  let offset ← offset
  blanks
  let (second, nanoseconds) :=
    if second = 60 then (59, nanoseconds + 1000000000) else (second, nanoseconds)
  let civil := dayNumber year month day * 86400 + (hour * 3600 + minute * 60 + second : Nat)
  let isDay := isYear year ∧ day ≤ daysInMonth year month
  if isDay ∧ isYear (yearOf (civil - offset)) then return ⟨civil - offset, nanoseconds⟩
  else Reader.fail

def read? (text : String) : Option Timestamp := reader.readAll? text.toList

def padded (count n : Nat) : List Char :=
  let digits := decimalDigits n
  List.replicate (count - digits.length) '0' ++ digits

def yearText (year : Int) : List Char :=
  if 0 ≤ year ∧ year ≤ 9999 then padded 4 year.toNat
  else (if year < 0 then '-' else '+') :: padded 4 year.natAbs

def fractionText (nanoseconds : Nat) : List Char :=
  if nanoseconds = 0 then []
  else if nanoseconds % 1000000 = 0 then '.' :: padded 3 (nanoseconds / 1000000)
  else if nanoseconds % 1000 = 0 then '.' :: padded 6 (nanoseconds / 1000)
  else '.' :: padded 9 nanoseconds

def toText (time : Timestamp) : String :=
  let (year, month, day) := civilDay (time.seconds.fdiv 86400)
  let ofDay := (time.seconds - time.seconds.fdiv 86400 * 86400).toNat
  let leap := time.nanoseconds / 1000000000
  String.ofList <|
    yearText year ++ '-' :: padded 2 month ++ '-' :: padded 2 day ++ 'T' :: padded 2 (ofDay / 3600)
      ++ ':' :: padded 2 (ofDay / 60 % 60) ++ ':' :: padded 2 (ofDay % 60 + leap)
      ++ fractionText (time.nanoseconds % 1000000000) ++ ['Z']

end Timestamp

end Skeletons
