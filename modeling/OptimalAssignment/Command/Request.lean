import OptimalAssignment.Command.Help
import OptimalAssignment.Decimal.Reader
import OptimalAssignment.Text.Likeness
import OptimalAssignment.Text.Quoted

/-!
# Requests

What the words of a command line ask for.  A switch may be repeated, and its last value counts; a
word of two dashes ends the switches.  The values are looked at in the order in which their switches
were first given, then what is missing, then what is left over.
-/

namespace OptimalAssignment.Command

inductive Method where
  | hungarian
  | greedy
  deriving DecidableEq, Repr

namespace Method

def word : Method → String
  | .hungarian => "hungarian"
  | .greedy => "greedy"

def all : List Method := [.hungarian, .greedy]

def ofWord? (s : String) : Option Method :=
  all.find? fun m => m.word == s

theorem ofWord?_word (m : Method) : ofWord? m.word = some m := by
  cases m <;> rfl

end Method

/-! ## Faults -/

inductive UsageFault where
  /-- No words at all. -/
  | nothing
  | noCommand
  | unknownCommand (name : String)
  /-- A switch, with those like it. -/
  | unknownSwitch (name : String) (suggestions : List String)
  | noValue (name : String)
  | unwantedValue (name : String)
  | badMethod (given : String)
  | badTolerance (given : String)
  | noMatrix
  | leftOver (words : List String)
  deriving DecidableEq, Repr

namespace UsageFault

open Text

/-- What may have been meant, in alphabetical order. -/
def suggest (names : List String) : String :=
  match (names.mergeSort (· ≤ ·)).map quote with
  | [] => ""
  | [name] => s!" Did you mean {name}?"
  | names => " (Did you mean one of: " ++ ", ".intercalate names ++ "?)"

def message : UsageFault → String
  | .nothing | .noCommand => "Missing command."
  | .unknownCommand name =>
      s!"No such command {quote name}." ++ suggest (closest name (Scope.named.map Prod.fst))
  | .unknownSwitch name suggestions => s!"No such option {quote name}." ++ suggest suggestions
  | .noValue name => s!"Option {quote name} requires an argument."
  | .unwantedValue name => s!"Option {quote name} does not take a value."
  | .badMethod given =>
      s!"Invalid value for '{Switch.method.long}': {quote given} is not one of " ++
        ", ".intercalate (Method.all.map fun m => quote m.word) ++ "."
  | .badTolerance given =>
      s!"Invalid value for '{Switch.zeroTolerance.long}': {quote given} is not a valid float."
  | .noMatrix => s!"Missing option '{Switch.matrixPath.long}' / '-i'."
  | .leftOver [word] => s!"Got unexpected extra argument ({word})"
  | .leftOver words => "Got unexpected extra arguments (" ++ " ".intercalate words ++ ")"

/-- Whether the message stands by itself, without the usage of the command. -/
def isBare : UsageFault → Bool
  | .noValue _ | .unwantedValue _ => true
  | _ => false

end UsageFault

structure UsageError where
  scope : Scope
  fault : UsageFault
  deriving DecidableEq, Repr

/-- Who gives no words at all is shown the help. -/
def UsageError.text (e : UsageError) : String :=
  if e.fault = .nothing then e.scope.helpPage
  else if e.fault.isBare then s!"Error: {e.fault.message}\n"
  else
    s!"{e.scope.usage}\nTry '{e.scope.path} --help' for help.\n\nError: {e.fault.message}\n"

/-! ## Words -/

inductive Word where
  /-- The end of the switches. -/
  | ending
  | argument
  | unknown (name : String) (suggestions : List String)
  /-- A switch as it was written, and what was joined to it. -/
  | switch (s : Switch) (name : String) (value : Option String)
  deriving DecidableEq, Repr

/-- A word in front of its first `=`, and what comes after. -/
def splitValue (cs : List Char) : String × Option String :=
  match cs.dropWhile (· != '=') with
  | _ :: value => (String.ofList (cs.takeWhile (· != '=')), some (String.ofList value))
  | [] => (String.ofList cs, none)

/-- A word that starts with one dash: a short form, with its value joined to it or in the next
word. -/
def Word.ofShort (switches : List Switch) (cs : List Char) : Word :=
  let name := String.ofList (cs.take 2)
  let value := cs.drop 2
  match switches.find? fun s => s.short? == some name with
  | some s => .switch s name (if value.isEmpty then none else some (String.ofList value))
  | none => .unknown name []

/-- Only a word with two dashes is compared with the switches that there are. -/
def Word.ofDashed (switches : List Switch) (cs : List Char) : Word :=
  let (name, value) := splitValue cs
  match switches.find? fun s => s.long == name with
  | some s => .switch s name value
  | none =>
      if cs.take 2 = ['-', '-'] then
        .unknown name (Text.closest name (switches.map Switch.long))
      else .ofShort switches cs

def Word.of (switches : List Switch) (s : String) : Word :=
  match s.toList with
  | ['-', '-'] => .ending
  | ['-'] => .argument
  | '-' :: cs => .ofDashed switches ('-' :: cs)
  | _ => .argument

/-- The switches with their values, in the order given, and all other words. -/
structure Reading where
  given : List (Switch × String)
  others : List String
  deriving DecidableEq, Repr

namespace Reading

def addGiven (s : Switch) (value : String) (r : Reading) : Reading :=
  { r with given := (s, value) :: r.given }

def addOther (word : String) (r : Reading) : Reading :=
  { r with others := word :: r.others }

/-- Reads words, the first of them as the value of a switch that waits for one. -/
def read (scope : Scope) : Option (Switch × String) → List String → Except UsageFault Reading
  | none, [] => .ok ⟨[], []⟩
  | some (_, name), [] => .error (.noValue name)
  | some (s, _), value :: rest => (read scope none rest).map (addGiven s value)
  | none, word :: rest =>
      match Word.of scope.switches word with
      | .ending => .ok ⟨[], rest⟩
      | .argument =>
          -- Above the commands, the first word that is no switch ends them.
          if scope = .top then .ok ⟨[], word :: rest⟩
          else (read scope none rest).map (addOther word)
      | .unknown name suggestions => .error (.unknownSwitch name suggestions)
      | .switch s name value =>
          if s.takesValue then
            match value with
            | some v => (read scope none rest).map (addGiven s v)
            | none => read scope (some (s, name)) rest
          else if value.isSome then .error (.unwantedValue name)
          else (read scope none rest).map (addGiven s "")

def ofWords (scope : Scope) (words : List String) : Except UsageFault Reading :=
  read scope none words

def has (r : Reading) (s : Switch) : Bool :=
  r.given.any fun g => g.1 = s

/-- The last value of a switch. -/
def value? (r : Reading) (s : Switch) : Option String :=
  r.given.reverse.lookup s

/-- The switches, each once, by their first place. -/
def order (r : Reading) : List Switch :=
  (r.given.map Prod.fst).eraseDups

end Reading

/-! ## Requests -/

structure SolveRequest where
  matrixPath : String
  outputPath : Option String
  configPath : Option String
  maximize : Bool
  method : Method
  zeroTolerance : Option Float
  delimiter : Option String

inductive Request where
  | help (scope : Scope)
  | solve (r : SolveRequest)
  | config (outputPath : Option String)

def readMethod (given : String) : Except UsageFault Method :=
  match Method.ofWord? given with
  | some m => .ok m
  | none => .error (.badMethod given)

def readTolerance (given : String) : Except UsageFault Float :=
  match Decimal.looseReal? given with
  | some x => .ok x
  | none => .error (.badTolerance given)

/-- Whether the last value of a switch can be read. -/
def checkValue (r : Reading) (s : Switch) : Except UsageFault Unit :=
  match s, r.value? s with
  | .method, some v => (readMethod v).map fun _ => ()
  | .zeroTolerance, some v => (readTolerance v).map fun _ => ()
  | _, _ => .ok ()

def checkOthers (r : Reading) : Except UsageFault Unit :=
  if r.others.isEmpty then .ok () else .error (.leftOver r.others)

namespace SolveRequest

def ofReading (r : Reading) : Except UsageFault SolveRequest := do
  for s in r.order do checkValue r s
  match r.value? .matrixPath with
  | none => .error .noMatrix
  | some matrixPath =>
      checkOthers r
      return {
        matrixPath
        outputPath := r.value? .outputPath
        -- An empty path stands for no file of settings.
        configPath := (r.value? .configPath).filter fun s => !s.isEmpty
        maximize := r.has .maximize
        method := ((r.value? .method).bind Method.ofWord?).getD .hungarian
        zeroTolerance := (r.value? .zeroTolerance).bind Decimal.looseReal?
        delimiter := r.value? .delimiter }

end SolveRequest

namespace Request

/-- The files and folders that a request may look at. -/
def paths : Request → List String
  | .help _ => []
  | .solve r => r.matrixPath :: (r.outputPath.toList ++ r.configPath.toList)
  | .config outputPath => outputPath.toList

/-- The request of a command; who asks for help is given nothing else. -/
def ofCommand (scope : Scope) (words : List String) : Except UsageFault Request := do
  let r ← Reading.ofWords scope words
  if r.has .help then return .help scope
  match scope with
  | .solve => return .solve (← SolveRequest.ofReading r)
  | _ =>
      checkOthers r
      return .config (r.value? .outputPath)

/-- A name that is no command; if it has a dash in front, it is read once more for what it may say
as a switch. -/
def ofUnknown (name : String) (words : List String) : Except UsageFault Request := do
  let r ← Reading.ofWords .top (name :: words)
  if r.has .help then return .help .top
  .error (.unknownCommand name)

def ofArgs (args : List String) : Except UsageError Request := do
  if args.isEmpty then .error ⟨.top, .nothing⟩
  let r ← (Reading.ofWords .top args).mapError (⟨.top, ·⟩)
  if r.has .help then return .help .top
  match r.others with
  | [] => .error ⟨.top, .noCommand⟩
  | name :: words =>
      match Scope.ofName? name with
      | some scope => (ofCommand scope words).mapError (⟨scope, ·⟩)
      | none => (ofUnknown name words).mapError (⟨.top, ·⟩)

end Request
end OptimalAssignment.Command
