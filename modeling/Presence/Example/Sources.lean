import Presence.Example.Tour
import Presence.Logger
import Presence.Managed

/-!
Contract: two stores of users, of which a command opens one or both; what was opened is closed.

Owns: the commands and what they print and log.

Does not own: opening and closing (`Presence.Managed`), and the form of log lines
(`Presence.Logger`).
-/

namespace Presence.Example

/-- What the stores are run with: a logger and the clock. -/
structure Setting where
  logger : Logger
  now : Moment

namespace Setting

/-- Logs a message about a store. -/
def log (setting : Setting) (message : String) (users : Value) : Script Unit := do
  if ← Attempt.ofExcept (setting.logger.passes .info) then
    writeLine .errors (← Attempt.ofExcept
      (setting.logger.line setting.now .info (.text message) [(.text "users", users)]))

/-- Opens a store unless there are no data for it. -/
def openStore (setting : Setting) (data : String) : Script (Managed (Optional Value Value)) :=
  Managed.openWith .clients (.text data) fun users => do
    setting.log "client opened" users
    return users

def closeStore (setting : Setting) (store : Managed (Optional Value Value)) : Script Unit :=
  store.close (setting.log "client closed")

end Setting

def sourceData : String := "[\x7b\"email\": \"user1@example.com\"\x7d]"

def destinationData : String := "[\x7b\"email\": \"user2@example.com\"\x7d]"

/-- Opens both stores, runs a body on them, and closes them. -/
def withStores
    (setting : Setting)
    (source destination : String)
    (body : Managed (Optional Value Value) → Managed (Optional Value Value) → Script Unit) :
    Script Unit := do
  let first ← setting.openStore source
  let second ← setting.openStore destination
  Attempt.closing (body first second) do
    setting.closeStore first
    setting.closeStore second

/-- Runs a command: one store alone, or a comparison of both. -/
def runCommand (setting : Setting) (command : String) : Script Unit :=
  if command = "source" then
    withStores setting sourceData "" fun source _ => do
      say [.text "Source users:", ← Attempt.ofExcept source.basic.mustGet]
  else if command = "dest" then
    withStores setting "" destinationData fun _ destination => do
      say [.text "Dest users:", ← Attempt.ofExcept destination.basic.mustGet]
  else
    withStores setting sourceData destinationData fun source destination => do
      let first ← Attempt.ofExcept source.basic.mustGet
      let second ← Attempt.ofExcept destination.basic.mustGet
      say [.text (if first == second then "data sources are in sync"
        else "data sources are NOT in sync")]

/-- Runs the command that the arguments begin with, a comparison if there are none. -/
def sources (environment : Environment) (now : Moment) (arguments : List String) : Script Unit := do
  let logger ← Attempt.ofExcept (Logger.ofEnvironment environment (.text "advanced_option")
    Logger.defaultVariable (.bool false))
  runCommand ⟨logger, now⟩ (arguments.headD "compare")

end Presence.Example
