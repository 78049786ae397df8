import OptimalAssignment.Yaml.Token

/-!
# The structure of a document

Tokens as a tree of scalars, sequences and mappings, with the anchors and tags that were given. At
most four steps go by between two tokens, so a multiple of the number of tokens always suffices as
the number of steps.
-/

namespace OptimalAssignment.Yaml

/-- `plain` says that a scalar has no tag and no quotes, so that its text tells its type. -/
inductive Tree where
  | alias (name : String)
  | scalar (anchor tag : Option String) (plain : Bool) (text : String)
  | sequence (anchor tag : Option String) (items : List Tree)
  | mapping (anchor tag : Option String) (entries : List (Tree × Tree))
  deriving Inhabited

namespace Tree

/-- A node that has been left out. -/
def empty : Tree :=
  .scalar none none true ""

/-! ## Tags -/

abbrev Handles := List (String × String)

def standardHandles : Handles :=
  [("!", "!"), ("!!", "tag:yaml.org,2002:")]

def expand (handles : Handles) (handle suffix : String) : Option String :=
  if handle.isEmpty then some suffix else (handles.lookup handle).map (· ++ suffix)

structure Properties where
  anchor : Option String
  tag : Option String

/-- An anchor and a tag, in any order. -/
def properties (handles : Handles) : List Token → Option (Properties × List Token)
  | .anchor name :: .tag handle suffix :: ts | .tag handle suffix :: .anchor name :: ts =>
      (expand handles handle suffix).map fun tag => (⟨some name, some tag⟩, ts)
  | .anchor name :: ts => some (⟨some name, none⟩, ts)
  | .tag handle suffix :: ts =>
      (expand handles handle suffix).map fun tag => (⟨none, some tag⟩, ts)
  | ts => some (⟨none, none⟩, ts)

/-- The tag that asks for the type that the text tells. -/
def openTag : String := "!"

def Properties.scalar (p : Properties) (plain : Bool) (text : String) : Tree :=
  match p.tag with
  | none => .scalar p.anchor none plain text
  | some tag =>
      if tag == openTag then .scalar p.anchor none true text
      else .scalar p.anchor (some tag) false text

/-- Only a tag or an anchor stands for a node without more. -/
def Properties.empty (p : Properties) : Option Tree :=
  match p.anchor, p.tag with
  | none, none => none
  | anchor, none => some (.scalar anchor none true "")
  | anchor, some tag =>
      some (.scalar anchor (if tag == openTag then none else some tag) false "")

/-! ## Nodes -/

def endsValue : List Token → Bool
  | .key :: _ | .value :: _ | .blockEnd :: _ => true
  | _ => false

def endsItem : List Token → Bool
  | .item :: _ | .blockEnd :: _ => true
  | _ => false

def endsFlowItem : List Token → Bool
  | .separator :: _ | .flowSequenceEnd :: _ => true
  | _ => false

def endsFlowEntry : List Token → Bool
  | .separator :: _ | .flowMappingEnd :: _ => true
  | _ => false

def startsValue : List Token → Bool
  | .value :: _ => true
  | _ => false

/-- What a node is followed by when it is a key: its value, or an empty one where there is none. -/
def value (read : List Token → Option (Tree × List Token)) :
    List Token → Option (Tree × List Token)
  | .value :: ts => read ts
  | ts => some (.empty, ts)

/-- The place of the next item; between two items there is a comma. -/
def nextItem : Bool → List Token → Option (List Token)
  | true, ts => some ts
  | false, .separator :: ts => some ts
  | false, _ => none

mutual

/-- A node; block collections and sequences without a start of their own are not allowed
everywhere. -/
def node (handles : Handles) (inBlock unopened : Bool) :
    Nat → List Token → Option (Tree × List Token)
  | 0, _ => none
  | _ + 1, .alias name :: ts => some (.alias name, ts)
  | fuel + 1, ts => do
      let (p, ts) ← properties handles ts
      nodeBehind handles inBlock unopened p fuel ts

/-- What stands behind the properties of a node. -/
def nodeBehind (handles : Handles) (inBlock unopened : Bool) (p : Properties) :
    Nat → List Token → Option (Tree × List Token)
  | 0, _ => none
  | fuel + 1, ts =>
      let sequence (r : Option (List Tree × List Token)) : Option (Tree × List Token) :=
        r.map fun (items, rest) => (.sequence p.anchor p.tag items, rest)
      let mapping (r : Option (List (Tree × Tree) × List Token)) : Option (Tree × List Token) :=
        r.map fun (entries, rest) => (.mapping p.anchor p.tag entries, rest)
      match ts, inBlock, unopened with
      | .scalar plain text :: rest, _, _ => some (p.scalar plain text, rest)
      | .flowSequence :: rest, _, _ => sequence (flowItems handles fuel true rest)
      | .flowMapping :: rest, _, _ => mapping (flowEntries handles fuel true rest)
      | .blockSequence :: rest, true, _ => sequence (items handles fuel rest)
      | .blockMapping :: rest, true, _ => mapping (entries handles fuel rest)
      | .item :: _, _, true => sequence (unopenedItems handles fuel ts)
      | _, _, _ => p.empty.map (·, ts)

/-- A node, or an empty one where it has been left out. -/
def nodeUnless (handles : Handles) (inBlock unopened : Bool) (isEnd : List Token → Bool) :
    Nat → List Token → Option (Tree × List Token)
  | 0, _ => none
  | fuel + 1, ts =>
      if isEnd ts then some (.empty, ts) else node handles inBlock unopened fuel ts

/-- The items of a block sequence, up to its end. -/
def items (handles : Handles) : Nat → List Token → Option (List Tree × List Token)
  | 0, _ => none
  | fuel + 1, .item :: ts => do
      let (first, ts) ← nodeUnless handles true false endsItem fuel ts
      let (rest, ts) ← items handles fuel ts
      return (first :: rest, ts)
  | _ + 1, .blockEnd :: ts => some ([], ts)
  | _ + 1, _ => none

/-- The items of a sequence at the column of its key, up to the next key. -/
def unopenedItems (handles : Handles) : Nat → List Token → Option (List Tree × List Token)
  | 0, _ => none
  | fuel + 1, .item :: ts => do
      let (first, ts) ←
        nodeUnless handles true false (fun ts => endsItem ts || endsValue ts) fuel ts
      let (rest, ts) ← unopenedItems handles fuel ts
      return (first :: rest, ts)
  | _ + 1, ts => some ([], ts)

/-- The entries of a block mapping, up to its end. -/
def entries (handles : Handles) : Nat → List Token → Option (List (Tree × Tree) × List Token)
  | 0, _ => none
  | fuel + 1, .key :: ts => do
      let (key, ts) ← nodeUnless handles true true endsValue fuel ts
      let (value, ts) ← value (nodeUnless handles true true endsValue fuel) ts
      let (rest, ts) ← entries handles fuel ts
      return ((key, value) :: rest, ts)
  | _ + 1, .blockEnd :: ts => some ([], ts)
  | _ + 1, _ => none

/-- The items of a flow sequence, up to its end.  An entry of a mapping may stand as an item. -/
def flowItems (handles : Handles) : Nat → Bool → List Token → Option (List Tree × List Token)
  | 0, _, _ => none
  | _ + 1, _, .flowSequenceEnd :: ts => some ([], ts)
  | fuel + 1, first, ts => do
      let ts ← nextItem first ts
      match ts with
      | .flowSequenceEnd :: ts => return ([], ts)
      | .key :: ts =>
          let (item, ts) ← flowPair handles fuel ts
          let (rest, ts) ← flowItems handles fuel false ts
          return (item :: rest, ts)
      | ts =>
          let (item, ts) ← node handles false false fuel ts
          let (rest, ts) ← flowItems handles fuel false ts
          return (item :: rest, ts)

/-- An entry as an item.  Where its key has been left out, the next token is lost. -/
def flowPair (handles : Handles) : Nat → List Token → Option (Tree × List Token)
  | 0, _ => none
  | fuel + 1, ts => do
      let (key, ts) ←
        if startsValue ts || endsFlowItem ts then some (Tree.empty, ts.drop 1)
        else node handles false false fuel ts
      let (value, ts) ← value (nodeUnless handles false false endsFlowItem fuel) ts
      return (.mapping none none [(key, value)], ts)

/-- The entries of a flow mapping, up to its end.  A node alone is a key without a value. -/
def flowEntries (handles : Handles) :
    Nat → Bool → List Token → Option (List (Tree × Tree) × List Token)
  | 0, _, _ => none
  | _ + 1, _, .flowMappingEnd :: ts => some ([], ts)
  | fuel + 1, first, ts => do
      let ts ← nextItem first ts
      match ts with
      | .flowMappingEnd :: ts => return ([], ts)
      | .key :: ts =>
          let (key, ts) ←
            nodeUnless handles false false (fun ts => startsValue ts || endsFlowEntry ts) fuel ts
          let (value, ts) ← value (nodeUnless handles false false endsFlowEntry fuel) ts
          let (rest, ts) ← flowEntries handles fuel false ts
          return ((key, value) :: rest, ts)
      | ts =>
          let (key, ts) ← node handles false false fuel ts
          let (rest, ts) ← flowEntries handles fuel false ts
          return ((key, .empty) :: rest, ts)

end

/-! ## Documents -/

/-- The handles that directives give, and what follows them; nothing gives one twice. -/
def directives : Bool → Handles → List Token → Option (Handles × List Token)
  | versioned, handles, .version major minor :: ts =>
      if versioned || major != 1 || !(minor == 1 || minor == 2) then none
      else directives true handles ts
  | versioned, handles, .handle name expansion :: ts =>
      if (handles.lookup name).isSome then none
      else directives versioned ((name, expansion) :: handles) ts
  | _, handles, ts => some (handles, ts)

def endsContent : List Token → Bool
  | [] | .version _ _ :: _ | .handle _ _ :: _ | .documentStart :: _ | .documentEnd :: _ => true
  | _ => false

/-- The node of a document, which may have directives in front. -/
def content (fuel : Nat) (ts : List Token) : Option (Tree × List Token) := do
  let (handles, rest) ← directives false [] ts
  let handles := handles ++ standardHandles
  match ts, rest with
  | _, .documentStart :: rest => nodeUnless handles true false endsContent fuel rest
  | .version _ _ :: _, _ | .handle _ _ :: _, _ => none
  | _, _ => node handles true false fuel rest

def isDocumentEnd : Token → Bool
  | .documentEnd => true
  | _ => false

/-- The only document of the tokens, if it has anything in it. -/
def ofTokens? (ts : List Token) : Option (Option Tree) :=
  if ts.isEmpty then some none
  else do
    let (tree, rest) ← content (4 * ts.length + 4) ts
    if rest.all isDocumentEnd then some (some tree) else none

end Tree
end OptimalAssignment.Yaml
