/-!
# Log records

A record passes a threshold if its level is at least as severe; errors pass any threshold, also one
whose name is not known.  A `Logged` computation carries the records it has written, also when it
fails.
-/

namespace OptimalAssignment

inductive Level where
  | trace
  | debug
  | info
  | success
  | warning
  | error
  | critical
  deriving DecidableEq, Repr

namespace Level

def all : List Level :=
  [.trace, .debug, .info, .success, .warning, .error, .critical]

def severity : Level → Nat
  | .trace => 5
  | .debug => 10
  | .info => 20
  | .success => 25
  | .warning => 30
  | .error => 40
  | .critical => 50

def name : Level → String
  | .trace => "TRACE"
  | .debug => "DEBUG"
  | .info => "INFO"
  | .success => "SUCCESS"
  | .warning => "WARNING"
  | .error => "ERROR"
  | .critical => "CRITICAL"

def ofName? (s : String) : Option Level :=
  all.find? fun l => l.name == s

theorem ofName?_name (l : Level) : ofName? l.name = some l := by
  cases l <;> rfl

end Level

structure Record where
  level : Level
  message : String
  deriving DecidableEq, Repr

namespace Record

def debug (message : String) : Record := ⟨.debug, message⟩
def info (message : String) : Record := ⟨.info, message⟩
def error (message : String) : Record := ⟨.error, message⟩

end Record

/-- Whether a level passes the threshold of that name; nothing if the name is not known and the
level does not pass by itself. -/
def passes? (threshold : String) (l : Level) : Option Bool :=
  if Level.error.severity ≤ l.severity then some true
  else (Level.ofName? threshold).map fun t => t.severity ≤ l.severity

/-- The threshold in force when none is set. -/
def standardThreshold : String := "INFO"

def visible (threshold : String) (rs : List Record) : List Record :=
  rs.filter fun r => passes? threshold r.level == some true

/-! ## Computations that log -/

/-- The records of a computation, oldest first, and how it ended. -/
structure Logged (ε α : Type) where
  records : List Record
  result : Except ε α

namespace Logged

variable {ε α β : Type}

protected def pure (a : α) : Logged ε α := ⟨[], .ok a⟩

protected def bind (x : Logged ε α) (f : α → Logged ε β) : Logged ε β :=
  match x.result with
  | .error e => ⟨x.records, .error e⟩
  | .ok a => ⟨x.records ++ (f a).records, (f a).result⟩

instance : Monad (Logged ε) where
  pure := Logged.pure
  bind := Logged.bind

def write (r : Record) : Logged ε Unit := ⟨[r], .ok ()⟩

/-- Fails without a record. -/
def fail (e : ε) : Logged ε α := ⟨[], .error e⟩

/-- Fails after writing the message of the failure as an error. -/
def refuse (message : String) (e : ε) : Logged ε α := ⟨[Record.error message], .error e⟩

def ofExcept : Except ε α → Logged ε α
  | .ok a => Logged.pure a
  | .error e => fail e

def mapError {δ : Type} (f : ε → δ) (x : Logged ε α) : Logged δ α :=
  ⟨x.records, x.result.mapError f⟩

end Logged

end OptimalAssignment
