import OptimalAssignment.Settings.Scope
import OptimalAssignment.Yaml.Writer

/-!
# Settings in documents

A document gives some of the settings, in any order; the others keep their standard values.  Values
are converted to the type of the setting they are given for.  References to other settings are
followed after all values have been taken over, and the checks come last.
-/

namespace OptimalAssignment

open Yaml

namespace Settings

/-! ## Types of settings -/

def truthWords : List (String × Bool) :=
  [("yes", true), ("y", true), ("on", true), ("true", true),
    ("no", false), ("n", false), ("off", false), ("false", false)]

/-- Truth values are also given by whole numbers and, in any case, by words. -/
def toTruth : Value → Except DocumentError Value
  | .bool b => .ok (.bool b)
  | .int i => .ok (.bool (i != 0))
  | .text s =>
      match Decimal.looseInt? s with
      | some i => .ok (.bool (i != 0))
      | none =>
          match truthWords.lookup (String.ofList (s.toList.map Char.toLower)) with
          | some b => .ok (.bool b)
          | none => .error .incompatible
  | _ => .error .incompatible

def toNumber : Value → Except DocumentError Value
  | .int i =>
      match Binary.ofInt? i with
      | some x => .ok (.real x)
      | none => .error .outOfRange
  | .real x => .ok (.real x)
  | .text s =>
      match Decimal.looseReal? s with
      | some x => .ok (.real x)
      | none => .error .incompatible
  | _ => .error .incompatible

/-- Whether a whole number has more digits than are written. -/
def isTooLong (i : Int) : Bool :=
  Nat.pow 10 Decimal.maxDigits ≤ i.natAbs

def toText : Value → Except DocumentError Value
  | .null | .list _ | .record _ => .error .incompatible
  | .int i => if isTooLong i then .error .tooLong else .ok (.text (toString i))
  | v => .ok (.text v.spoken)

/-- A value as one of the type of a setting. -/
def convert : Setting → Value → Except DocumentError Value
  | .scoreDirection, v | .version, v => toText v
  | .zeroTolerance, v => toNumber v
  | .trace, v => toTruth v

def convertData (f : Setting) : Data → Except DocumentError Value
  | .leaf v => convert f v
  | _ => .error .incompatible

/-! ## References -/

/-- A value that is taken over as it is until all of them are known. -/
def isDeferred : Value → Bool
  | .text s => s == Content.missingMark || Reference.hasReference s.toList
  | _ => false

/-- What a reference gives for a setting. -/
def convertFound (name : String) (d : Data) : Except DocumentError Data :=
  match Setting.ofName? name with
  | none => .ok d
  | some f =>
      match convertData f d with
      | .ok v => .ok (.leaf v)
      | .error .incompatible => .error .incompatibleReference
      | .error e => .error e

section Following

variable (environment : String → Option String)

def scope (s : Settings) : Scope where
  root := Content.ofValue (.record s.fields)
  environment := environment
  convert := convertFound

/-- The value of a setting with references followed. -/
def follow (s : Settings) (f : Setting) : Except DocumentError Value := do
  match ← (s.scope environment).resolve f.name (.leaf (s.get f)) with
  | .leaf (.text t) => return .text (if t == Content.escapedMark then Content.missingMark else t)
  | .leaf v => return v
  | _ => .error .incompatibleReference

def followAll (s : Settings) : Except DocumentError (List (String × Value)) :=
  Setting.all.mapM fun f => do return (f.name, ← s.follow environment f)

end Following

/-! ## Merging -/

def settingOf? : Data → Option Setting
  | .leaf (.text key) => Setting.ofName? key
  | _ => none

/-- Takes over one entry; a value that is still missing changes nothing. -/
def merge (s : Settings) (entry : Data × Data) : Except DocumentError Settings :=
  match settingOf? entry.1, entry.2 with
  | none, _ => .error .unknownKey
  | some f, .leaf v =>
      if Content.isMissing (.leaf v) then .ok s
      else if isDeferred v then .ok (s.put f v)
      else (convert f v).map (s.put f)
  | some _, _ => .error .incompatible

section Merging

variable (environment : String → Option String)

def ofEntries (entries : List (Data × Data)) : Logged DocumentError Settings := do
  let merged ← Logged.ofExcept (entries.foldlM merge standard)
  let fields ← Logged.ofExcept (merged.followAll environment)
  (create fields).mapError .settings

/-- The settings that content gives, which must be a mapping. -/
def ofData : Data → Logged DocumentError Settings
  | .mapping entries => ofEntries environment entries
  | _ => .fail .notMapping

end Merging

/-! ## Reading -/

def sectionKey : String := "solver_config"

/-- A document in which values have no types of their own. -/
def looseScope (environment : String → Option String) (d : Data) : Scope where
  root := d
  environment := environment
  convert := fun _ found => .ok found

/-- Whether the items of a list include the name of the section. -/
def namesSection (scope : Scope) : Nat → List Data → Except DocumentError Bool
  | _, [] => .ok false
  | index, item :: rest => do
      if Content.isMissing item then .error .missingItem
      match ← scope.resolve (toString index) item with
      | .leaf v => if v.same (.text sectionKey) then return true
      | _ => pure ()
      namesSection scope (index + 1) rest

/-- The section of the settings, if the document has one.  It may be a reference to another part of
the document. -/
def settingsPart (environment : String → Option String) (d : Data) : Except DocumentError Data :=
  match d with
  | .mapping entries =>
      match entries.find? fun e => e.1.sameKey (.leaf (.text sectionKey)) with
      | none => .ok d
      | some (_, found) =>
          if Content.isMissing found then .ok d
          else do
            match ← (looseScope environment d).resolve sectionKey found with
            | .leaf _ | .bytes => .error .sectionScalar
            | part => return part
  | .sequence items => do
      if ← namesSection (looseScope environment d) 0 items then .error .sectionOfList
      else return d
  | _ => .ok d

/-- No variable is set. -/
def nothingSet : String → Option String :=
  fun _ => none

/-- The settings of a file, at its top level or in a section of their own. -/
def load (text : String) (environment : String → Option String := nothingSet) :
    Logged DocumentError Settings := do
  let d ← Logged.ofExcept (Content.ofFile text)
  Logged.ofExcept (Content.check d)
  ofData environment (← Logged.ofExcept (settingsPart environment d))

def valueDocument : Value → Except DocumentError Data
  | .text s => Content.ofText s
  | .null => .error .notMapping
  | .list vs => .ok (Content.ofValue (.list vs))
  | .record fields => .ok (Content.ofValue (.record fields))
  | _ => .error .incompatible

/-- The settings that a value gives. -/
def ofValue (v : Value) (environment : String → Option String := nothingSet) :
    Logged DocumentError Settings := do
  let d ← Logged.ofExcept (valueDocument v)
  Logged.ofExcept (Content.check d)
  ofData environment d

/-! ## Writing -/

/-- The settings as they are stored. -/
def saved (s : Settings) : Except DocumentError String := do
  Content.check (Content.ofValue (.record s.fields))
  return write s.fields

def typedField (s : Settings) (f : Setting) : Except DocumentError (String × Value) := do
  let v := s.get f
  if isDeferred v then
    Content.check (.leaf v)
    return (f.name, v)
  else return (f.name, ← convert f v)

/-- The settings with each value as one of its type. -/
def typed (s : Settings) : Except DocumentError String := do
  return write (← Setting.all.mapM s.typedField)

end Settings
end OptimalAssignment
