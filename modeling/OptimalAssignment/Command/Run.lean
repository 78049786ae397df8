import OptimalAssignment.Assignment
import OptimalAssignment.Command.Outcome
import OptimalAssignment.Greedy

/-!
# Running commands

A command is a function of its words and of what is found around it.  A switch counts more than the
file of settings, and the file more than the standard settings.
-/

namespace OptimalAssignment.Command

open Files

def readText (entry : Entry) : Except Fault String := do
  let bytes ← entry.read.mapError .access
  let cs ← (Text.Utf8.decodeInput bytes).mapError .encoding
  return String.ofList cs

/-! ## Settings -/

/-- The settings of a file, whose path is taken without detours. -/
def loadSettings (view : View) (path : String) : Logged Stop Settings := do
  let text ← Logged.ofExcept ((readText (view.entry (Path.ofString path).direct)).mapError .broken)
  (Settings.load text view.environment).mapError fun why => .broken (.document why)

def override (f : Setting) (given : Option Value) (s : Settings) : Logged Stop Settings :=
  match given with
  | none => pure s
  | some v => (s.set f.name v).mapError .ofSettingsError

def SolveRequest.givenDirection (r : SolveRequest) : Option Value :=
  if r.maximize then some (.text Direction.maximize.word) else none

def settingsFor (view : View) (r : SolveRequest) : Logged Stop Settings := do
  let s ← match r.configPath with
    | none => pure Settings.standard
    | some path => loadSettings view path
  let s ← override .scoreDirection r.givenDirection s
  override .zeroTolerance (r.zeroTolerance.map .real) s

def typedText (s : Settings) : Logged Stop String :=
  Logged.ofExcept (s.typed.mapError fun why => .broken (.document why))

/-! ## Solving -/

def loadScores (view : View) (r : SolveRequest) : Logged Stop ScoreInput := do
  let t ← (Scores.read view (.ofString r.matrixPath) r.delimiter).mapError .ofReadError
  return .array ⟨.real 64, t.map .real⟩

abbrev Found := (n : Nat) × Matching Float n n

/-- A greedy matching does not look at the tolerance. -/
def findGreedy (s : Settings) (scores : ScoreInput) : Logged Stop Found := do
  let d ← (Direction.read s.scoreDirection).mapError fun e => .ofSolverError (.direction e)
  (Greedy.assign scores d).mapError .ofScoreError

def findOptimal (s : Settings) (scores : ScoreInput) : Logged Stop Found := do
  let solver ← s.toSolver.mapError .ofSolverError
  (solver.run scores).mapError .ofSolverError

def find (method : Method) (s : Settings) (scores : ScoreInput) : Logged Stop Found :=
  match method with
  | .hungarian => findOptimal s scores
  | .greedy => findGreedy s scores

/-- The matching that a request asks for. -/
def answer (view : View) (r : SolveRequest) : Logged Stop Found := do
  let s ← settingsFor view r
  let text ← typedText s
  Logged.write (.debug s!"Solver config:\n{text}")
  let scores ← loadScores view r
  find r.method s scores

/-! ## Reports -/

/-- A line for each pair, row by row, and one for the cost. -/
def report {n : Nat} (m : Matching Float n n) : String :=
  String.join ((Assignment.ofMatching m).pairs.map fun (i, j) => s!"{i} -> {j}\n") ++
    s!"Total cost: {Decimal.general m.cost}\n"

def summary {n : Nat} (method : Method) (m : Matching Float n n) : String :=
  s!"Matched {n} pair(s) with {method.word} ({m.direction.word}), " ++
    s!"total cost {Decimal.general m.cost}."

/-- A file to write, if there can be one. -/
def write (view : View) (path : Path) (text : String) : Except Fault Written :=
  ((view.entry path).checkWritable.mapError .access).map fun _ => ⟨path, text⟩

/-- The report is printed before anything is written. -/
def conclude (view : View) (r : SolveRequest) (found : Found) : Outcome :=
  let printed := Outcome.printed (report found.2)
  let finished := Record.info (summary r.method found.2)
  match r.outputPath with
  | none => { printed with records := [finished] }
  | some name =>
      let path := Path.ofString name
      match write view path (Assignment.ofMatching found.2).saved with
      | .error why => { Outcome.broken why with output := printed.output }
      | .ok written =>
          { printed with
            records := [.info s!"Saved assignment to {path.text}", finished]
            written := some written }

def solve (view : View) (r : SolveRequest) : Outcome :=
  .ofLogged ((answer view r).bind fun found => pure (conclude view r found))

/-! ## The standard settings -/

def printSettings : Logged Stop Outcome := do
  return .printed (← typedText .standard)

/-- Like that of a file of settings to read, the path is taken without detours. -/
def saveSettings (view : View) (name : String) : Logged Stop Outcome := do
  let path := Path.ofString name
  let text ← Logged.ofExcept (Settings.standard.saved.mapError fun why => .broken (.document why))
  let written ← Logged.ofExcept ((write view path.direct text).mapError .broken)
  let saved := Record.info s!"Saved default solver config to {path.text}"
  return { Outcome.printed "" with records := [saved], written := some written }

def config (view : View) (outputPath : Option String) : Outcome :=
  .ofLogged (match outputPath with
    | none => printSettings
    | some name => saveSettings view name)

/-! ## Commands -/

def perform (view : View) : Request → Outcome
  | .help scope => .printed scope.helpPage
  | .solve r => solve view r
  | .config outputPath => config view outputPath

def run (view : View) (args : List String) : Outcome :=
  match Request.ofArgs args with
  | .ok request => perform view request
  | .error e => .ofUsageError e

end OptimalAssignment.Command
