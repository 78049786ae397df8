import OptimalAssignment.Log
import OptimalAssignment.Solver

/-!
# Settings

The settings of a solve as they are kept in files: values of any type, of which the direction and
the tolerance are checked whenever they are given.  A value that fails its check is not stored.
-/

namespace OptimalAssignment

inductive Setting where
  | scoreDirection
  | zeroTolerance
  | trace
  | version
  deriving DecidableEq, Repr

namespace Setting

def all : List Setting :=
  [.scoreDirection, .zeroTolerance, .trace, .version]

def name : Setting → String
  | .scoreDirection => "score_direction"
  | .zeroTolerance => "zero_tolerance"
  | .trace => "trace"
  | .version => "kuhn_munkres_version"

def ofName? (s : String) : Option Setting :=
  all.find? fun f => f.name == s

theorem ofName?_name (f : Setting) : ofName? f.name = some f := by
  cases f <;> rfl

end Setting

structure Settings where
  scoreDirection : Value
  zeroTolerance : Value
  trace : Value
  version : Value

inductive SettingsError where
  | badDirection (given : Value)
  | badTolerance (given : Value)
  /-- A tolerance that is no number. -/
  | incomparable
  /-- A name among those that settings are made from. -/
  | unexpected (name : String)
  /-- A name among those that settings are changed by. -/
  | unknown (name : String)

namespace SettingsError

def directionMessage (given : Value) : String :=
  s!"score_direction must be one of {Direction.choices}, got {given.display}"

def toleranceMessage (given : Value) : String :=
  s!"'zero_tolerance' must be >= 0: {given.spoken}"

end SettingsError

namespace Settings

def standard : Settings where
  scoreDirection := .text Direction.minimize.word
  zeroTolerance := .real Solver.standardTolerance
  trace := .bool false
  version := .text "0.1.0"

def get (s : Settings) : Setting → Value
  | .scoreDirection => s.scoreDirection
  | .zeroTolerance => s.zeroTolerance
  | .trace => s.trace
  | .version => s.version

def put (s : Settings) (f : Setting) (v : Value) : Settings :=
  match f with
  | .scoreDirection => { s with scoreDirection := v }
  | .zeroTolerance => { s with zeroTolerance := v }
  | .trace => { s with trace := v }
  | .version => { s with version := v }

theorem get_put (s : Settings) (f g : Setting) (v : Value) :
    (s.put f v).get g = if f = g then v else s.get g := by
  cases f <;> cases g <;> rfl

/-- All values under their names. -/
def fields (s : Settings) : List (String × Value) :=
  Setting.all.map fun f => (f.name, s.get f)

/-! ## Checks -/

def isDirection (v : Value) : Bool :=
  Direction.all.any fun d => v.same (.text d.word)

/-- Whether a number is at least zero; nothing for what is no number. -/
def isAtLeastZero? : Value → Option Bool
  | .bool _ => some true
  | .int i => some (0 ≤ i)
  | .real x => some (0.0 ≤ x)
  | _ => none

def check : Setting → Value → Logged SettingsError Unit
  | .scoreDirection, v =>
      if isDirection v then pure ()
      else .refuse (SettingsError.directionMessage v) (.badDirection v)
  | .zeroTolerance, v =>
      match isAtLeastZero? v with
      | some true => pure ()
      | some false => .fail (.badTolerance v)
      | none => .fail .incomparable
  | .trace, _ | .version, _ => pure ()

def checkAll (s : Settings) : Logged SettingsError Unit := do
  check .scoreDirection s.scoreDirection
  check .zeroTolerance s.zeroTolerance

def set (s : Settings) (name : String) (v : Value) : Logged SettingsError Settings :=
  match Setting.ofName? name with
  | none => .fail (.unknown name)
  | some f => do
      check f v
      return s.put f v

/-- The standard settings with some of them replaced. -/
def replaced (given : List (String × Value)) : Settings :=
  given.foldl (fun s (name, v) =>
    match Setting.ofName? name with
    | some f => s.put f v
    | none => s) standard

/-- Names are looked at before values. -/
def create (given : List (String × Value)) : Logged SettingsError Settings :=
  match given.find? fun (name, _) => (Setting.ofName? name).isNone with
  | some (name, _) => .fail (.unexpected name)
  | none => do
      let s := replaced given
      checkAll s
      return s

def same (s t : Settings) : Bool :=
  Setting.all.all fun f => (s.get f).same (t.get f)

def toSolver (s : Settings) : Logged SolverError Solver :=
  Solver.create s.scoreDirection s.zeroTolerance s.trace

def given (values : List (String × Value)) (f : Setting) : Logged SolverError Value :=
  match values.lookup f.name with
  | some v => pure v
  | none => .fail (.missing f.name)

/-- A solver from values of which none may be missing. -/
def solverOf (values : List (String × Value)) : Logged SolverError Solver := do
  let direction ← given values .scoreDirection
  let tolerance ← given values .zeroTolerance
  let trace ← given values .trace
  Solver.create direction tolerance trace

end Settings
end OptimalAssignment
