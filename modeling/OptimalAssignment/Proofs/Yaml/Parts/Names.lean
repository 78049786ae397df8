import OptimalAssignment.Proofs.Yaml.Parts.Sources

/-!
# Names in parts of a document

Anchors, tags and directives end before the end of their line.
-/

namespace OptimalAssignment.Yaml

variable {rest cs text : List Char} {c : Char} {s t u : Source}

end OptimalAssignment.Yaml
