import OptimalAssignment.Log
import OptimalAssignment.Text.Upper
import OptimalAssignment.Value.Display

/-!
# Score directions

Whether small or large scores are better.  A direction is given by its word or, in any case, by
its name.
-/

namespace OptimalAssignment

inductive Direction where
  | minimize
  | maximize
  deriving DecidableEq, Repr

namespace Direction

def all : List Direction := [.minimize, .maximize]

def word : Direction → String
  | .minimize => "minimize"
  | .maximize => "maximize"

def name : Direction → String
  | .minimize => "MINIMIZE_IS_BEST"
  | .maximize => "MAXIMIZE_IS_BEST"

def ofWord? (s : String) : Option Direction :=
  all.find? fun d => d.word == s

/-- Case does not matter in a name. -/
def ofName? (s : String) : Option Direction :=
  all.find? fun d => d.name == Text.upper s

/-- The words that messages offer. -/
def choices : String :=
  (Value.list (all.map fun d => .text d.word)).display

/-- A value that is neither the word nor the name of a direction. -/
structure Unknown where
  given : Value

def Unknown.message (e : Unknown) : String :=
  s!"Invalid score direction: {e.given.display}. Must be one of {choices}."

def ofValue : Value → Except Unknown Direction
  | .text s =>
      match (ofWord? s).orElse fun _ => ofName? s with
      | some d => .ok d
      | none => .error ⟨.text s⟩
  | v => .error ⟨v⟩

def read (v : Value) : Logged Unknown Direction :=
  match ofValue v with
  | .ok d => pure d
  | .error e => .refuse e.message e

theorem ofWord?_word (d : Direction) : ofWord? d.word = some d := by
  cases d <;> rfl

theorem ofValue_word (d : Direction) : ofValue (.text d.word) = .ok d := by
  simp [ofValue, ofWord?_word]

end Direction
end OptimalAssignment
