import OptimalAssignment.Yaml.Tag
import OptimalAssignment.Yaml.Tree

/-!
# Nodes with their types

A tree in which every alias has been replaced by the node it stands for, every node has its tag, and
every mapping has taken over the entries of the mappings merged into it.
-/

namespace OptimalAssignment.Yaml

inductive Node where
  | scalar (tag : Tag) (text : String)
  | sequence (tag : Tag) (items : List Node)
  /-- `isSound` says that no text is the key of two of its own entries, and that what was merged
  into it can be. -/
  | mapping (tag : Tag) (isSound : Bool) (entries : List (Node × Node))
  /-- A collection around the node that stands for it. -/
  | loop
  deriving Inhabited

namespace Node

def tag : Node → Tag
  | .scalar tag _ | .sequence tag _ | .mapping tag _ _ => tag
  | .loop => .mapping

/-! ## Entries of mappings -/

def keyText? : Node → Option String
  | .scalar .text s => some s
  | _ => none

/-- A text that is the key of two entries. -/
def hasTwins (entries : List (Node × Node)) : Bool :=
  let keys := entries.filterMap fun e => keyText? e.1
  keys.eraseDups.length < keys.length

/-- The entries of a mapping that can be merged into others. -/
def entries? : Node → Option (List (Node × Node))
  | .mapping _ _ entries => some entries
  | .loop => some []
  | _ => none

/-- What a merge takes over; of several mappings, the last comes first. -/
def merged? : Node → Option (List (Node × Node))
  | .sequence _ items => (items.mapM entries?).map fun es => es.reverse.flatten
  | node => node.entries?

def isMerge (entry : Node × Node) : Bool :=
  entry.1.tag == .merge

/-- Merged entries come before those of the mapping itself, which replace them. -/
def ofEntries (tag : Tag) (entries : List (Node × Node)) : Node :=
  let own := entries.filter fun e => !isMerge e
  match (entries.filter isMerge).mapM fun e => e.2.merged? with
  | some merged => .mapping tag (!hasTwins own) (merged.flatten ++ own)
  | none => .mapping tag false own

/-! ## Anchors -/

abbrev Anchors := List (String × Node)

def tagOf (standard : Tag) : Option String → Tag
  | none => standard
  | some name => if name == Tree.openTag then standard else Tag.ofName name

/-- Names a node; no name is given twice. -/
def declare (anchors : Anchors) (anchor : Option String) (node : Node) : Option Anchors :=
  match anchor with
  | none => some anchors
  | some name => if (anchors.lookup name).isSome then none else some ((name, node) :: anchors)

/-- Replaces what an anchor stood for while its collection was read. -/
def finish (anchors : Anchors) (anchor : Option String) (node : Node) : Anchors :=
  match anchor with
  | none => anchors
  | some name => (name, node) :: anchors

mutual

/-- The node of a tree, and the anchors that are known after it. -/
def ofTree (anchors : Anchors) : Tree → Option (Node × Anchors)
  | .alias name => (anchors.lookup name).map (·, anchors)
  | .scalar anchor tag plain text => do
      let node := .scalar (tagOf (if plain then Tag.ofText text else .text) tag) text
      return (node, ← declare anchors anchor node)
  | .sequence anchor tag items => do
      let (nodes, anchors) ← ofTrees (← declare anchors anchor .loop) items
      let node := .sequence (tagOf .sequence tag) nodes
      return (node, finish anchors anchor node)
  | .mapping anchor tag entries => do
      let (nodes, anchors) ← ofPairs (← declare anchors anchor .loop) entries
      let node := ofEntries (tagOf .mapping tag) nodes
      return (node, finish anchors anchor node)

def ofTrees (anchors : Anchors) : List Tree → Option (List Node × Anchors)
  | [] => some ([], anchors)
  | tree :: rest => do
      let (node, anchors) ← ofTree anchors tree
      let (nodes, anchors) ← ofTrees anchors rest
      return (node :: nodes, anchors)

def ofPairs (anchors : Anchors) : List (Tree × Tree) → Option (List (Node × Node) × Anchors)
  | [] => some ([], anchors)
  | (key, value) :: rest => do
      let (key, anchors) ← ofTree anchors key
      let (value, anchors) ← ofTree anchors value
      let (nodes, anchors) ← ofPairs anchors rest
      return ((key, value) :: nodes, anchors)

end

end Node
end OptimalAssignment.Yaml
