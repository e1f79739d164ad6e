import Presence.Example.Sources
import Presence.Fault.Message
import Std.Time

/-!
Contract: the examples as a program.

Owns: the command line, the clock and the streams of the program. The argument `tour` runs the
tour; any other arguments are those of the two stores of users.

Does not own: what the examples do (`Presence.Example`).
-/

namespace Presence.Main

/-- The moment of the clock, in universal time. -/
def now : IO Moment := do
  let time :=
    Std.Time.DateTime.ofTimestampWithZone (← Std.Time.Timestamp.now) Std.Time.TimeZone.UTC
  return { year := time.year.toInt.toNat
           month := time.month.val.toNat
           day := time.day.val.toNat
           hour := time.hour.val.toNat
           minute := time.minute.val.toNat
           second := time.second.val.toNat
           microsecond := time.nanosecond.val.toNat / 1000 }

/-- The variables that the examples look at. -/
def environment : IO Environment := do
  match ← IO.getEnv Logger.defaultVariable with
  | some value => return ⟨[(Logger.defaultVariable, value)]⟩
  | none => return ⟨[]⟩

/-- Runs an example and writes what it wrote; the result tells whether it ended without a fault. -/
def run (script : Example.Script Unit) : IO UInt32 := do
  let (outcome, console) := script.run.run .blank
  (← IO.getStdout).putStr (String.ofList console.output)
  (← IO.getStderr).putStr (String.ofList console.errors)
  match outcome with
  | .ok () => return 0
  | .error fault => do
      (← IO.getStderr).putStrLn (fault.kind.name ++ ": " ++ fault.message)
      return 1

end Presence.Main

def main (arguments : List String) : IO UInt32 := do
  match arguments with
  | ["tour"] => Presence.Main.run Presence.Example.tour
  | arguments => do
      Presence.Main.run
        (Presence.Example.sources (← Presence.Main.environment) (← Presence.Main.now) arguments)
