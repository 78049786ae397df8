import OptimalAssignment.Command.Run

/-!
# The command line

Looks at the paths that a request names, runs the request on what stands there, and carries out what
it asks for: text on the output, text and records on the error output, and a file.
-/

namespace OptimalAssignment.Terminal

open Files Command

/-- Only in a folder can the single point be opened. -/
def isFolder (path : String) : IO Bool := do
  try
    discard <| IO.FS.Handle.mk (path ++ "/.") .read
    return true
  catch _ => return false

def bytes? (path : String) : IO (Option (List UInt8)) := do
  try return some (← IO.FS.readBinFile path).toList
  catch _ => return none

/-- The paths of all folders that a path leads through. -/
def above (p : Path) : List Path :=
  (List.range p.parts.length).map fun k => { p with parts := p.parts.take k }

def entry (p : Path) : IO Entry := do
  if !p.isNameable then return .unnameable
  if p.isLong then return .overlong
  if ← isFolder p.text then return .folder
  match ← bytes? p.text with
  | some bytes => return .file bytes
  | none =>
      for folder in above p do
        unless ← isFolder folder.text do
          if Path.isLongName folder.name then return .overlong
          return if (← bytes? folder.text).isSome then .belowFile else .detached
      return if Path.isLongName p.name then .overlong else .vacant

/-- A variable and its value. -/
def binding? (bytes : List UInt8) : Option (String × String) := do
  let text ← String.fromUTF8? ⟨bytes.toArray⟩
  let (name, rest) := text.toList.span (· != '=')
  if rest.isEmpty then none else some (String.ofList name, String.ofList (rest.drop 1))

/-- The variables that are set, where the system keeps them in a file. -/
def bindings : IO (List (String × String)) := do
  let bytes := (← bytes? "/proc/self/environ").getD []
  return (bytes.splitOn 0).filterMap binding?

/-- What stands at each of some paths, and the variables.  Nothing unpacks files here. -/
def view (paths : List Path) : IO View := do
  let entries ← paths.mapM fun p => do return (p, ← entry p)
  let set ← bindings
  return {
    entry := fun p => (entries.lookup p).getD .detached
    environment := fun name => set.lookup name
    unpacker? := fun _ => none }

/-- The paths of a request, as they are and without detours. -/
def pathsOf (args : List String) : List Path :=
  match Request.ofArgs args with
  | .ok request =>
      (request.paths.map Path.ofString).flatMap fun p => if p.direct = p then [p] else [p, p.direct]
  | .error _ => []

def faultText : Fault → String
  | .access .notFound => "No such file or directory"
  | .access .isFolder => "Is a directory"
  | .access .notFolder => "Not a directory"
  | .access .tooLong => "File name too long"
  | .access .badName => "No file has such a name"
  | .encoding why => why.message
  | .badDelimiter => "A delimiter must be a single character"
  | .arrayFile _ => "The array file could not be read"
  | .document (.settings (.badDirection given)) => SettingsError.directionMessage given
  | .document (.settings (.badTolerance given)) => SettingsError.toleranceMessage given
  | .document _ => "The config file could not be used"
  | .solver (.badTolerance given) => Solver.toleranceMessage given
  | .solver _ => "The solver stopped"

def damageText : Damage → String
  | .cutOff => "The packed file ends too early"
  | .malformed why => why

def report (threshold : String) (o : Outcome) : IO Unit := do
  for r in visible threshold o.records do
    IO.eprintln s!"{r.level.name} | {r.message}"
  IO.print o.output
  IO.eprint o.errorOutput
  if let some why := o.fault then
    IO.eprintln s!"Error: {faultText why}"
  if let some why := o.damage then
    IO.eprintln s!"Error: {damageText why}"

/-- The name of the variable that holds the threshold of the records. -/
def thresholdVariable : String := "KUHN_MUNKRES_LOG_LEVEL"

end OptimalAssignment.Terminal

open OptimalAssignment

def main (args : List String) : IO UInt32 := do
  let threshold := (← IO.getEnv Terminal.thresholdVariable).map Text.upper
  let o := Command.run (← Terminal.view (Terminal.pathsOf args)) args
  Terminal.report (threshold.getD standardThreshold) o
  if let some w := o.written then
    IO.FS.writeFile w.path.text w.text
  return UInt32.ofNat o.exitCode
