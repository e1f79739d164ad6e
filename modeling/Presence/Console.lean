/-!
Contract: the text that a program writes while it runs.

Owns: `Console`, the text written to the two standard streams and to named streams of its own.

Does not own: who writes.
-/

namespace Presence

/-- Where text is written to. -/
inductive Channel where
  | output
  | errors
  | named (name : String)
deriving DecidableEq, Repr

/-- What was written so far. Named streams stand in the order in which they were first written
to. -/
structure Console where
  output : List Char
  errors : List Char
  streams : List (String × List Char)

namespace Console

def blank : Console := ⟨[], [], []⟩

/-- Adds text to a named stream. -/
def addTo (name : String) (text : List Char) : List (String × List Char) → List (String × List Char)
  | [] => [(name, text)]
  | stream :: rest =>
      if stream.1 = name then (name, stream.2 ++ text) :: rest else stream :: addTo name text rest

/-- Writes one line. -/
def writeLine (console : Console) (channel : Channel) (line : List Char) : Console :=
  match channel with
  | .output => { console with output := console.output ++ line ++ ['\n'] }
  | .errors => { console with errors := console.errors ++ line ++ ['\n'] }
  | .named name => { console with streams := addTo name (line ++ ['\n']) console.streams }

end Console

end Presence
