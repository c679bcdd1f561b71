import Skeletons.CommandLine.Run

namespace Skeletons.Terminal

def readText (path : String) : IO (Option String) := do
  try
    return some (← IO.FS.readFile path)
  catch _ => return none

def startingVariables : IO Environment := do
  let text := (← readText "/proc/self/environ").getD ""
  return (text.splitOn "\x00").filterMap fun entry =>
    match entry.splitOn "=" with
    | name :: value :: more => some (name, "=".intercalate (value :: more))
    | _ => none

def coreCount : IO Nat := do
  let lines := ((← readText "/proc/cpuinfo").getD "").splitOn "\n"
  let count := lines.countP fun line => line.startsWith "processor"
  return if count = 0 then 4 else count

def milliseconds (nanoseconds : Nat) : String :=
  let hundredths := (nanoseconds + 5000) / 10000
  toString (hundredths / 100) ++ "." ++ toString (hundredths / 10 % 10) ++ toString (hundredths % 10)

end Skeletons.Terminal

open Skeletons Terminal in
def main (arguments : List String) : IO UInt32 := do
  match CommandLine.read arguments with
  | .error error =>
    IO.eprintln ("error: " ++ error.message)
    return 2
  | .ok (.help topic) =>
    for line in CommandLine.helpLines topic do IO.println line
    return 0
  | .ok (.run overrides command) =>
    let started ← IO.monoNanosNow
    let standard := Config.standard (← coreCount)
    let outcome ← CommandLine.run readText (← startingVariables) standard overrides command
    for line in outcome.lines do
      IO.println (line.render (milliseconds ((← IO.monoNanosNow) - started)))
    match outcome.error with
    | some text => IO.eprintln ("Error: " ++ text)
    | none => pure ()
    return UInt32.ofNat outcome.code
