import OptimalAssignment.Scores.ArrayFile.Item.Sequence
import OptimalAssignment.Scores.Nesting

/-!
# Items of array files

What is stored item by item: a cell, a block of equal items, or fields one after the other.  The
header describes it by a name, by a pair of a description and a shape, or by a list of fields.
-/

namespace OptimalAssignment.ArrayFile

inductive Item where
  | cell (f : CellFormat)
  | block (base : Item) (count : Nat)
  /-- The fields that are no padding, each behind a number of bytes. -/
  | fields (members : List (Nat × Item)) (size : Nat)
  deriving Inhabited

namespace Item

/-- The number of bytes of an item. -/
def size : Item → Nat
  | .cell f => f.type.size
  | .block base count => base.size * count
  | .fields _ size => size

/-- The cells or fields that a block is made of, and how many of them there are. -/
def parts : Item → Item × Nat
  | .block base count => (base.parts.1, base.parts.2 * count)
  | item => (item, 1)

mutual

/-- Whether some of the cells may be anything. -/
def holdsAnything : Item → Bool
  | .cell f => f.type == .plain .any
  | .block base _ => base.holdsAnything
  | .fields members _ => holdAnything members

def holdAnything : List (Nat × Item) → Bool
  | [] => false
  | (_, item) :: rest => item.holdsAnything || holdAnything rest

end

/-! ## Pairs of a description and a shape -/

inductive Fault where
  /-- The description is none. -/
  | unknown
  /-- A pair without its second member. -/
  | missing
  | surrogates (first last : Nat) (code : Nat)
  | time (why : TimeUnit.Fault)
  | sequence (why : Sequence.Fault)
  | shape
  | negativeLength
  | longLength
  | largeSize
  | itemSize
  | sizeMismatch
  | tooFew (expected found : Nat)
  | tooMany (expected : Nat)
  | nameType
  | nameTaken
  | titleTaken

def maxCount : Nat := CellType.maxSize

/-- The lengths of a shape that is a whole number, or a list or a tuple of some. -/
def lengths? : Literal → Option (List Int)
  | .int i => some [i]
  | .tuple items | .list items => items.mapM length?
  | _ => none
where
  length? : Literal → Option Int
    | .int i => if Kind.ofInt i = .int 64 then some i else none
    | _ => none

def product (lengths : List Int) : Int := lengths.foldl (· * ·) 1

/-- An item for each place of a shape. -/
def ofShape (base : Item) (shape : Literal) : Except Fault Item :=
  match lengths? shape with
  | none => .error .shape
  | some lengths =>
      if Nesting.depthLimit < lengths.length then .error .shape
      else if lengths.any (· < 0) then .error .negativeLength
      else if lengths.any ((maxCount : Int) < ·) then .error .longLength
      else
        let count := (product lengths).toNat
        if maxCount < count ∨ maxCount < base.size * count then .error .largeSize
        else .ok (.block base count)

/-- Cells without a length take the second member for it. -/
def ofPair (base : Item) (second : Literal) : Except Fault Item :=
  match base with
  | .cell f =>
      if f.type.isUnsized then
        match second with
        | .int i =>
            if 0 ≤ i ∧ i ≤ maxCount then
              .ok (.cell { f with type := f.type.withLength i.toNat })
            else .error .itemSize
        | _ => .error .itemSize
      else ofShape base second
  | base => ofShape base second

/-- The place of the first run of code points that are no characters. -/
def surrogateRun? (codes : List Nat) : Option (Nat × Nat × Nat) :=
  let before := codes.takeWhile Nat.isValidChar
  match codes.drop before.length with
  | [] => none
  | code :: rest =>
      let run := (rest.takeWhile fun n => !decide n.isValidChar).length
      some (before.length, before.length + run, code)

/-! ## Names -/

/-- Fields one after the other. -/
def inSequence (items : List Item) : Item :=
  let (members, size) := items.foldl
    (fun (found, offset) item => (found ++ [(offset, item)], offset + item.size)) ([], 0)
  .fields members size

/-- The item with a name, which may be a sequence of names; parts of a sequence are shorter. -/
def ofChars : Nat → List Char → Except Fault Item
  | 0, _ => .error .unknown
  | steps + 1, cs =>
      if Sequence.isSequence cs then do
        let (parts, many) ← (Sequence.read cs).mapError .sequence
        let items ← parts.mapM fun (name, shape) => do
          let base ← ofChars steps name
          match shape with
          | none => return base
          | some shape => ofPair base shape
        match items, many with
        | [item], false => return item
        | items, _ => return inSequence items
      else
        match CellFormat.ofName cs with
        | .ok f => .ok (.cell f)
        | .error .unknown => .error .unknown
        | .error (.time .unknown) => .error .unknown
        | .error (.time why) => .error (.time why)

def ofName (codes : List Nat) : Except Fault Item :=
  match surrogateRun? codes with
  | some (first, last, code) => .error (.surrogates first last code)
  | none => ofChars (codes.length + 1) (codes.map Char.ofNat)

/-- The second member of a pair may describe the item as well, which then has the same size. -/
def ofTwo (base : Item) (second : Literal) : Except Fault Item :=
  match second with
  | .none => if base.size = 8 ∨ base.size = 0 then .ok base else .error .sizeMismatch
  | .text codes =>
      match ofName codes with
      | .ok item => if base.size = item.size ∨ base.size = 0 then .ok base else .error .sizeMismatch
      | .error _ => ofPair base second
  | second => ofPair base second

/-! ## Fields -/

/-- The parts of a literal that can be taken apart. -/
def partsOf? : Literal → Option (List Literal)
  | .tuple items | .list items | .set items => some items
  | .record entries => some (entries.map Prod.fst)
  | .text codes => some (codes.map fun n => .text [n])
  | .bytes codes => some (codes.map fun (n : Nat) => .int n)
  | _ => none

/-- A name, a description, and perhaps a shape. -/
def splitField (field : Literal) : Except Fault (Literal × Literal × Option Literal) :=
  match partsOf? field with
  | none => .error .unknown
  | some [name, description] => .ok (name, description, none)
  | some [name, description, shape] => .ok (name, description, some shape)
  | some parts => .error (if parts.length < 3 then .tooFew 3 parts.length else .tooMany 3)

/-- A title and a name, or a name alone. -/
def splitName : Literal → Except Fault (Option Literal × Literal)
  | .tuple [title, name] => .ok (some title, name)
  | .tuple parts => .error (if parts.length < 2 then .tooFew 2 parts.length else .tooMany 2)
  | name => .ok (none, name)

/-- Fields without a name and without a meaning are padding. -/
def isPadding (name : Literal) (item : Item) : Bool :=
  match name, item with
  | .text [], .cell ⟨.untyped _, _⟩ | .text [], .block _ _ => true
  | _, _ => false

/-- Names and titles are texts that do not occur twice. -/
def takeName (taken : List (List Nat)) (title : Option Literal) (name : Literal) :
    Except Fault (List (List Nat)) :=
  match name with
  | .text codes =>
      if taken.contains codes then .error .nameTaken
      else
        match title with
        | some (.text t) =>
            if (codes :: taken).contains t then .error .titleTaken else .ok (t :: codes :: taken)
        | some t => if t.isKey then .ok (codes :: taken) else .error .unknown
        | none => .ok (codes :: taken)
  | _ => .error .nameType

structure Field where
  title : Option Literal
  name : Literal
  offset : Nat
  item : Item

/-- Fields are read before their names are compared. -/
def ofFields (found : List Field × Nat) : Except Fault Item := do
  let _ ← found.1.foldlM (fun taken f => takeName taken f.title f.name) []
  return .fields (found.1.map fun f => (f.offset, f.item)) found.2

/-- Adds a field, for what describes its item. -/
def addField (describe : Literal → Except Fault Item) (found : List Field × Nat)
    (field : Literal) : Except Fault (List Field × Nat) := do
  let (name, description, shape) ← splitField field
  let base ← describe description
  let item ← match shape with
    | none => pure base
    | some shape => ofTwo base shape
  let (earlier, offset) := found
  if isPadding name item then return (earlier, offset + item.size)
  let (title, name) ← splitName name
  return (earlier ++ [⟨title, name, offset, item⟩], offset + item.size)

/-- The item that a literal describes, for as many steps as brackets can be nested. -/
def describedBy : Nat → Literal → Except Fault Item
  | 0, _ => .error .unknown
  | steps + 1, v =>
      match v with
      | .text codes => ofName codes
      | .tuple (first :: second :: _) => do ofTwo (← describedBy steps first) second
      | .tuple [first] => do
          let _ ← describedBy steps first
          .error .missing
      | .tuple [] => .error .missing
      | v =>
          match partsOf? v with
          | some parts => do ofFields (← parts.foldlM (addField (describedBy steps)) ([], 0))
          | none => .error .unknown

def ofLiteral (v : Literal) : Except Fault Item :=
  describedBy (Literal.Token.maxDepth + 2) v

end Item
end OptimalAssignment.ArrayFile
