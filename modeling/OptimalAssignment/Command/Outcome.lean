import OptimalAssignment.Command.Request
import OptimalAssignment.Scores.File
import OptimalAssignment.Settings.Document

/-!
# Outcomes

How a command ends: with an answer, with a message for the user, or with a fault that no command
handles.
-/

namespace OptimalAssignment.Command

open Files

/-- What no command handles. -/
inductive Fault where
  | access (why : AccessError)
  | encoding (why : Text.Utf8.DecodeError)
  | badDelimiter
  | arrayFile (why : ArrayFile.Stop)
  | document (why : DocumentError)
  | solver (why : SolverError)

/-- Why a command gives no answer. -/
inductive Stop where
  | refused (message : String)
  /-- A file ended too early. -/
  | aborted
  | broken (why : Fault)
  /-- A packed file is not unpacked, which no command handles either. -/
  | damaged (why : Damage)

/-- A file and its new contents. -/
structure Written where
  path : Path
  text : String
  deriving DecidableEq, Repr

structure Outcome where
  exitCode : Nat
  output : String
  errorOutput : String
  records : List Record
  fault : Option Fault
  damage : Option Damage
  written : Option Written

namespace Outcome

def printed (text : String) : Outcome :=
  ⟨0, text, "", [], none, none, none⟩

def ofUsageError (e : UsageError) : Outcome :=
  ⟨2, "", e.text, [], none, none, none⟩

def broken (why : Fault) : Outcome :=
  ⟨1, "", "", [], some why, none, none⟩

def damaged (why : Damage) : Outcome :=
  ⟨1, "", "", [], none, some why, none⟩

def ofStop : Stop → Outcome
  | .refused message => ⟨1, "", s!"Error: {message}\n", [], none, none, none⟩
  | .aborted => ⟨1, "", "\nAborted!\n", [], none, none, none⟩
  | .broken why => broken why
  | .damaged why => damaged why

/-- Puts records in front of those of an outcome. -/
def after (records : List Record) (o : Outcome) : Outcome :=
  { o with records := records ++ o.records }

def ofLogged (x : Logged Stop Outcome) : Outcome :=
  match x.result with
  | .ok o => o.after x.records
  | .error stop => (ofStop stop).after x.records

end Outcome

namespace Stop

def ofLoadError : LoadError → Stop
  | .missing path => .refused (LoadError.missingMessage path)
  | .unreadable path why => .refused (LoadError.unreadableMessage path why)
  | .folder => .broken (.access .isFolder)
  | .tooLong => .broken (.access .tooLong)
  | .badDelimiter => .broken .badDelimiter
  | .stopped .noData => .aborted
  | .stopped why => .broken (.arrayFile why)

def ofReadError : ReadError → Stop
  | .load why => ofLoadError why
  | .damaged .cutOff => .aborted
  | .damaged why => .damaged why

def ofScoreError : ScoreError → Stop
  | .refused why => .refused why.message
  | why => .broken (.solver (.scores why))

def ofSolverError : SolverError → Stop
  | .scores why => ofScoreError why
  | why => .broken (.solver why)

def ofSettingsError (why : SettingsError) : Stop :=
  .broken (.document (.settings why))

end Stop
end OptimalAssignment.Command
