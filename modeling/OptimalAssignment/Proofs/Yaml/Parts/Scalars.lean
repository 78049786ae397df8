import OptimalAssignment.Proofs.Yaml.Parts.Sources

/-!
# Scalars in parts of a document

A scalar that is read within a part of a document is read in the same way within the document.  One
without quotes must not go on at the end of its part, so it stands in a block collection there.
-/

namespace OptimalAssignment.Yaml

open Text

variable {rest cs text : List Char} {c : Char} {above : Nat} {s t u : Source}

/-! ## Plain scalars -/

namespace Plain

def within (above : Nat) (rest : List Char) (p : Plain) : Plain :=
  ⟨p.text, p.rest.within above rest, p.crossed⟩

end Plain

variable {piece : Option (List Char)}

end OptimalAssignment.Yaml
