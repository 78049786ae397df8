import OptimalAssignment.Yaml.Node
import OptimalAssignment.Yaml.Token.Lexer

/-!
# Reading YAML

A text is read in steps: its tokens, their structure, the types of the nodes, and the values.  The
values of scalars are made together with the collection that holds them, and the outer collections
before the inner ones; of several faults the one that is met first in this order counts.
-/

namespace OptimalAssignment.Yaml

/-! ## The first fault -/

/-- A fault and the number of collections around it. -/
abbrev Making := Except (Nat × Fault)

/-- Two values, or else the outer one of their faults. -/
def both {α β : Type} (x : Making α) (y : Making β) : Making (α × β) :=
  match x, y with
  | .ok a, .ok b => .ok (a, b)
  | .error e, .ok _ => .error e
  | .ok _, .error e => .error e
  | .error e, .error e' => .error (if e'.1 < e.1 then e' else e)

/-! ## Values of nodes -/

namespace Data

def sameKey : Data → Data → Bool
  | .leaf v, .leaf w => v.same w
  | _, _ => false

/-- A later entry of the same key replaces the value of an earlier one. -/
def insert (entries : List (Data × Data)) (key value : Data) : List (Data × Data) :=
  if entries.any fun e => e.1.sameKey key then
    entries.map fun e => if e.1.sameKey key then (e.1, value) else e
  else entries ++ [(key, value)]

def ofEntries (entries : List (Data × Data)) : Data :=
  .mapping (entries.foldl (fun es (key, value) => insert es key value) [])

end Data

namespace Node

/-- The text that stands for a mapping: its default value. -/
def defaultText? : List (Node × Node) → Option String
  | [] => none
  | (.scalar .default _, .scalar _ s) :: _ => some s
  | _ :: rest => defaultText? rest

/-- A mark of a default value is a text when it is a key. -/
def keyTag : Tag → Tag
  | .default => .text
  | tag => tag

/-- A scalar inside `depth` collections. -/
def makeText (depth : Nat) (tag : Tag) (s : String) : Making Data :=
  (makeScalar tag s).mapError fun why => (if tag.isCollection then depth + 1 else depth, why)

/-- The value of a mapping that stands for its default value. -/
def makeDefault (depth : Nat) (tag : Tag) (entries : List (Node × Node)) : Making Data :=
  match defaultText? entries with
  | some s => makeText depth tag s
  | none => .error (depth, .malformed)

mutual

/-- The value of a node inside `depth` collections. -/
def make (depth : Nat) : Node → Making Data
  | .scalar tag s => makeText depth tag s
  | .loop => .ok .loop
  | .sequence .sequence items => (makeItems (depth + 1) items).map .sequence
  | .sequence .entries items => (makeSingles (depth + 1) items).map .sequence
  | .sequence .mapping items | .sequence .set items =>
      .error (depth + 1, if items.isEmpty then .malformed else .itemEntries)
  | .sequence _ _ => .error (depth, .malformed)
  | .mapping .mapping true entries => (makeEntries (depth + 1) entries).map .ofEntries
  | .mapping .set true entries => (makeEntries (depth + 1) entries).map fun _ => .set
  | .mapping tag _ entries =>
      if tag.isCollection then .error (depth + 1, .malformed) else makeDefault depth tag entries

def makeItems (depth : Nat) : List Node → Making (List Data)
  | [] => .ok []
  | item :: rest =>
      (both (make depth item) (makeItems depth rest)).map fun (v, vs) => v :: vs

/-- Keys are no collections. -/
def makeKey (depth : Nat) : Node → Making Data
  | .scalar tag s =>
      if tag.isCollection then .error (depth, .malformed) else makeText depth (keyTag tag) s
  | .mapping tag _ entries =>
      if tag.isCollection then .error (depth, .malformed) else makeDefault depth tag entries
  | .sequence _ _ | .loop => .error (depth, .malformed)

def makeEntries (depth : Nat) : List (Node × Node) → Making (List (Data × Data))
  | [] => .ok []
  | (key, value) :: rest =>
      (both (both (makeKey depth key) (make depth value)) (makeEntries depth rest)).map
        fun (e, es) => e :: es

/-- Items that are mappings of one entry, each as a key and a value. -/
def makeSingles (depth : Nat) : List Node → Making (List Data)
  | [] => .ok []
  | .mapping _ _ [(key, value)] :: rest =>
      (both (both (make depth key) (make depth value)) (makeSingles depth rest)).map
        fun ((k, v), vs) => .sequence [k, v] :: vs
  | _ :: _ => .error (depth, .malformed)

end

end Node

/-! ## Documents -/

/-- The node of a document, if it has one. -/
def node? (text : String) : Option (Option Node) := do
  match ← Tree.ofTokens? (← tokens? text) with
  | none => some none
  | some tree => (Node.ofTree [] tree).map fun (node, _) => some node

/-- The value of a document; one that holds nothing is null. -/
def read (text : String) : Except Fault Data :=
  match node? text with
  | none => .error .malformed
  | some none => .ok (.leaf .null)
  | some (some node) => (node.make 0).mapError Prod.snd

end OptimalAssignment.Yaml
