import Skeletons.Text.Reader
import Skeletons.Timestamp

namespace Skeletons.Toml

open Reader (char satisfy takeWhile1 takeExactly maybe fail)

/-- Where a moment stands. On its own in a document its hours and its offset keep to the clock; as a text
    it may name an hour after the last one, and its offset only has to stay within a day. -/
inductive MomentPlace where
  | document
  | text
deriving DecidableEq

namespace MomentPlace

def lastHour : MomentPlace → Nat
  | .document => 23
  | .text => 24

def isOffset (hours minutes : Nat) : MomentPlace → Bool
  | .document => decide (hours ≤ 23 ∧ minutes ≤ 59)
  | .text => decide (60 * hours + minutes ≤ 24 * 60)

end MomentPlace

namespace Moment

def twoDigits (least most : Nat) : Reader Nat := do
  let n := Timestamp.digitsToNat (← takeExactly 2 Char.isDigit)
  if least ≤ n ∧ n ≤ most then return n else fail

def date : Reader (List Char) := do
  let year ← takeExactly 4 Char.isDigit
  char '-'
  let month ← twoDigits 1 12
  char '-'
  let day ← twoDigits 1 (daysInMonth (Timestamp.digitsToNat year) month)
  return year ++ '-' :: Timestamp.padded 2 month ++ '-' :: Timestamp.padded 2 day

/-- A time of day; of the places after the second nine count, and zeros at their end do not. -/
def time (place : MomentPlace) : Reader (List Char) := do
  let hour ← twoDigits 0 place.lastHour
  char ':'
  let minute ← twoDigits 0 59
  char ':'
  let second ← twoDigits 0 60
  let fraction ← maybe (do char '.'; takeWhile1 Char.isDigit)
  let places := (((fraction.getD []).take 9).reverse.dropWhile (· = '0')).reverse
  return Timestamp.padded 2 hour ++ ':' :: Timestamp.padded 2 minute ++ ':' :: Timestamp.padded 2 second
    ++ (if places.isEmpty then [] else '.' :: places)

/-- An offset from universal time; one of nothing has a plus sign. -/
def offset (place : MomentPlace) : Reader (List Char) := do
  match ← satisfy fun _ => true with
  | 'Z' | 'z' => return ['Z']
  | sign =>
    if sign = '+' ∨ sign = '-' then
      let hours ← twoDigits 0 99
      char ':'
      let minutes ← twoDigits 0 99
      let total := 60 * hours + minutes
      if place.isOffset hours minutes then
        return (if total = 0 then '+' else sign) :: Timestamp.padded 2 (total / 60)
          ++ ':' :: Timestamp.padded 2 (total % 60)
      else fail
    else fail

def reader (place : MomentPlace) : Reader String := do
  let text ← dateFirst <|> time place
  return String.ofList text
where
  dateFirst : Reader (List Char) := do
    let date ← date
    let timeOfDay ← maybe do
      let _ ← satisfy fun c => c = 'T' || c = 't' || c = ' '
      let time ← time place
      return 'T' :: time ++ ((← maybe (offset place)).getD [])
    return date ++ timeOfDay.getD []

def ofText? (text : String) : Option String := (reader .text).readAll? text.toList

end Moment

end Skeletons.Toml
