import OptimalAssignment.Proofs.Yaml.Parts.Sources

/-!
# Block scalars in parts of a document

The lines of a block scalar stand further in than the start of a line, so what comes after a part of
a document ends the scalar.
-/

namespace OptimalAssignment.Yaml

variable {rest cs text : List Char} {c : Char} {s t u : Source}

/-! ## Headers -/

end OptimalAssignment.Yaml
