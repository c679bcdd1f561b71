import Skeletons.Text.Blank

namespace Skeletons

/-- Takes a value from the front of a text. A failed reader takes nothing, so `<|>` tries the next one
    at the same place. -/
abbrev Reader := StateT (List Char) Option

namespace Reader

def fail {α : Type} : Reader α := fun _ => none

def readAll? {α : Type} (reader : Reader α) (text : List Char) : Option α :=
  match reader text with
  | some (value, []) => some value
  | _ => none

def atEnd : Reader Bool := return (← get).isEmpty

def peek? : Reader (Option Char) := return (← get).head?

def satisfy (fits : Char → Bool) : Reader Char := fun text =>
  match text with
  | c :: rest => if fits c then some (c, rest) else none
  | [] => none

def char (c : Char) : Reader Unit := do let _ ← satisfy (· = c)

def literal : List Char → Reader Unit
  | [] => return
  | c :: rest => do char c; literal rest

def takeWhile (fits : Char → Bool) : Reader (List Char) := fun text =>
  some (text.takeWhile fits, text.dropWhile fits)

def takeWhile1 (fits : Char → Bool) : Reader (List Char) := do
  let taken ← takeWhile fits
  if taken.isEmpty then fail else return taken

def takeExactly (count : Nat) (fits : Char → Bool) : Reader (List Char) := fun text =>
  let taken := text.take count
  if taken.length = count && taken.all fits then some (taken, text.drop count) else none

def accepts {α : Type} (reader : Reader α) : Reader Bool := fun text =>
  match reader text with
  | some (_, rest) => some (true, rest)
  | none => some (false, text)

def maybe {α : Type} (reader : Reader α) : Reader (Option α) := fun text =>
  match reader text with
  | some (value, rest) => some (some value, rest)
  | none => some (none, text)

def many {α : Type} (reader : Reader α) : Nat → Reader (List α)
  | 0 => return []
  | limit + 1 => do
    match ← maybe reader with
    | some value => return value :: (← many reader limit)
    | none => return []

end Reader

end Skeletons
