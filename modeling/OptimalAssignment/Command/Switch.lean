/-!
# Switches

The switches of the command line: how they are written, which of them take a value, and which
command has which.
-/

namespace OptimalAssignment.Command

inductive Switch where
  | matrixPath
  | outputPath
  | configPath
  | maximize
  | method
  | zeroTolerance
  | delimiter
  | help
  deriving DecidableEq, Repr

namespace Switch

def long : Switch → String
  | .matrixPath => "--matrix_path"
  | .outputPath => "--output_path"
  | .configPath => "--config_path"
  | .maximize => "--maximize"
  | .method => "--method"
  | .zeroTolerance => "--zero_tolerance"
  | .delimiter => "--delimiter"
  | .help => "--help"

def short? : Switch → Option String
  | .matrixPath => some "-i"
  | .outputPath => some "-o"
  | .configPath => some "-c"
  | _ => none

def takesValue : Switch → Bool
  | .maximize | .help => false
  | _ => true

end Switch

/-- The commands, and what stands above them. -/
inductive Scope where
  | top
  | solve
  | config
  deriving DecidableEq, Repr

namespace Scope

def switches : Scope → List Switch
  | .top => [.help]
  | .solve =>
      [.matrixPath, .outputPath, .configPath, .maximize, .method, .zeroTolerance, .delimiter, .help]
  | .config => [.outputPath, .help]

/-- The commands by their names. -/
def named : List (String × Scope) :=
  [("config", .config), ("solve", .solve)]

def ofName? (name : String) : Option Scope :=
  named.lookup name

/-- The words that lead to a command. -/
def path : Scope → String
  | .top => "cli"
  | .solve => "cli solve"
  | .config => "cli config"

def usage : Scope → String
  | .top => "Usage: cli [OPTIONS] COMMAND [ARGS]..."
  | .solve => "Usage: cli solve [OPTIONS]"
  | .config => "Usage: cli config [OPTIONS]"

end Scope
end OptimalAssignment.Command
