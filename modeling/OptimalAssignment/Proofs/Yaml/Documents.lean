import OptimalAssignment.Proofs.Yaml.Entries

/-!
# Documents of lines

Lines with a key and a word each are a document of their entries.
-/

namespace OptimalAssignment.Yaml

open Lexer

/-! ## Characters of lines -/

end OptimalAssignment.Yaml
