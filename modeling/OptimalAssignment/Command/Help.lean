import OptimalAssignment.Command.Switch

/-!
# Help pages

A page of help for each command, in lines of at most eighty characters.
-/

namespace OptimalAssignment.Command.Scope

def optionsOfTop : List String :=
  [
    "  --help  Show this message and exit."
  ]

def optionsOfSolve : List String :=
  [
    "  -i, --matrix_path TEXT       Path to the score matrix. Either a \x60.npy\x60 file or",
    "                               a text/CSV file with one matrix row per line.",
    "                               [required]",
    "  -o, --output_path TEXT       If provided, the assignment (pairs, cost,",
    "                               direction and 0/1 matrix) is written to this JSON",
    "                               file.",
    "  -c, --config_path TEXT       Path to a solver config YAML file. Command line",
    "                               options take precedence over the values in the",
    "                               file.",
    "  --maximize                   If True, larger scores are better and the summed",
    "                               score is maximized. Default: minimize.",
    "  --method [hungarian|greedy]  Matching algorithm. \x60hungarian\x60 is optimal,",
    "                               \x60greedy\x60 repeatedly takes the best remaining",
    "                               pair. Default: \x60hungarian\x60.",
    "  --zero_tolerance FLOAT       Entries of the reduced matrix up to this value",
    "                               are treated as zeros. If not provided, the config",
    "                               value (1e-10 by default) is used.",
    "  --delimiter TEXT             Column delimiter of text matrix files. Defaults",
    "                               to ',' for .csv files and whitespace otherwise.",
    "  --help                       Show this message and exit."
  ]

def optionsOfConfig : List String :=
  [
    "  -o, --output_path TEXT  If provided, the default config is saved to this YAML",
    "                          file instead of being printed.",
    "  --help                  Show this message and exit."
  ]

def options : Scope → List String
  | .top => optionsOfTop
  | .solve => optionsOfSolve
  | .config => optionsOfConfig

def description : Scope → List String
  | .top =>
      [
        "  kuhn-munkres: optimal one-to-one assignment for square score matrices.",
        "",
        "  Use subcommands to run different workflows:",
        "",
        "  solve    - Solve the assignment problem for a score matrix file config   -",
        "  Print or save the default solver config"
      ]
  | .solve =>
      [
        "  Solve the assignment problem for the score matrix in MATRIX_PATH.",
        "",
        "  Examples:     kuhn-munkres solve -i costs.csv     kuhn-munkres solve -i",
        "  scores.npy --maximize -o assignment.json     kuhn-munkres solve -i costs.txt",
        "  -c solver.yaml --method greedy"
      ]
  | .config => ["  Print or save the default solver config."]

/-- The commands below, with their first lines. -/
def commands : Scope → List String
  | .top =>
      [
        "",
        "Commands:",
        "  config  Print or save the default solver config.",
        "  solve   Solve the assignment problem for the score matrix in MATRIX_PATH."
      ]
  | _ => []

def helpPage (s : Scope) : String :=
  let lines := s.usage :: "" :: s.description ++ "" :: "Options:" :: s.options ++ s.commands
  String.join (lines.map (· ++ "\n"))

end OptimalAssignment.Command.Scope
