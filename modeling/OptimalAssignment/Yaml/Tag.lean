import OptimalAssignment.Decimal.Reader
import OptimalAssignment.Value
import OptimalAssignment.Yaml.Scalar

/-!
# Types of nodes

A tag names the type of a node.  A scalar without a tag and without quotes has the type that its
text looks like.  `makeScalar` gives the value that a text has under a tag.
-/

namespace OptimalAssignment.Yaml

inductive Tag where
  | null
  | truth
  | whole
  | real
  | bytes
  | moment
  | text
  | sequence
  | mapping
  | set
  /-- A sequence of mappings with one entry each. -/
  | entries
  /-- The mark of entries that are taken over from other mappings. -/
  | merge
  /-- The mark of a default value. -/
  | default
  | unknown
  deriving DecidableEq, Repr

namespace Tag

def names : List (String × Tag) :=
  [("null", null), ("bool", truth), ("int", whole), ("float", real), ("binary", bytes),
    ("timestamp", moment), ("str", text), ("seq", sequence), ("map", mapping), ("set", set),
    ("omap", entries), ("pairs", entries), ("merge", merge), ("value", default)].map
      fun (name, tag) => ("tag:yaml.org,2002:" ++ name, tag)

def ofName (s : String) : Tag :=
  (names.lookup s).getD unknown

/-- The type that a text looks like. -/
def ofText (s : String) : Tag :=
  let cs := s.toList
  if (truths.lookup s).isSome then truth
  else if nulls.contains s then null
  else if isWhole cs then whole
  else if isReal cs then real
  else if s == "<<" then merge
  else if s == "=" then default
  else if ["!", "&", "*"].contains s then unknown
  else text

/-- The types whose values are made together with those of their items. -/
def isCollection : Tag → Bool
  | sequence | mapping | set | entries => true
  | _ => false

end Tag

/-! ## Values -/

/-- Why a node has no value. -/
inductive Fault where
  | malformed
  | unknownTruth
  | noDigits
  | badNumber
  | badMoment
  | impossibleMoment
  /-- A text or a sequence in the place of a mapping. -/
  | textEntries
  | itemEntries
  deriving DecidableEq, Repr

/-- The values that documents hold. -/
inductive Data where
  | leaf (v : Value)
  | bytes
  | moment
  | set
  | sequence (items : List Data)
  | mapping (entries : List (Data × Data))
  /-- A collection that is a part of itself. -/
  | loop
  deriving Inhabited

def signed (negative : Bool) (i : Int) : Int :=
  if negative then -i else i

def orFault {α : Type} (why : Fault) : Option α → Except Fault α
  | some x => .ok x
  | none => .error why

def wholeText? (cs : List Char) : Option Int :=
  Decimal.looseInt? (String.ofList cs)

/-- Numbers of whose places each counts sixty times the next one. -/
def sexagesimal? (cs : List Char) : Option Int :=
  (splitAtColons cs).foldlM (fun n part => (wholeText? part).map (60 * n + ·)) 0

def magnitude? : List Char → Option Int
  | ['0'] => some 0
  | '0' :: 'b' :: cs => Decimal.looseIntIn? 2 (String.ofList cs)
  | '0' :: 'x' :: cs => Decimal.looseIntIn? 16 (String.ofList cs)
  | '0' :: cs => Decimal.looseIntIn? 8 (String.ofList ('0' :: cs))
  | cs => if cs.contains ':' then sexagesimal? cs else wholeText? cs

def withoutGroups (s : String) : List Char :=
  s.toList.filter (· != '_')

/-- Whether a number is negative, and its text without the sign. -/
def splitSign (cs : List Char) : Bool × List Char :=
  (cs.head? == some '-', unsigned cs)

def wholeOf (s : String) : Except Fault Int := do
  let (negative, cs) := splitSign (withoutGroups s)
  if cs.isEmpty then .error .noDigits
  else return signed negative (← orFault .badNumber (magnitude? cs))

/-- The places of a number to the base of sixty, each times its weight, from the last one on. -/
def sexagesimalReal? (cs : List Char) : Option Float := do
  let parts ← (splitAtColons cs).mapM fun part => Decimal.looseReal? (String.ofList part)
  let weight (k : Nat) : Float :=
    (Binary.ofInt? (Nat.pow 60 k : Nat)).getD (Binary.infinity false)
  return (parts.reverse.zipIdx.foldl (fun acc (x, k) => acc + x * weight k) 0.0)

def realMagnitude? (cs : List Char) : Option Float :=
  if cs.contains ':' then sexagesimalReal? cs else Decimal.looseReal? (String.ofList cs)

def realOf (s : String) : Except Fault Float :=
  let cs := (withoutGroups s).map Char.toLower
  let (negative, rest) := splitSign cs
  if cs.isEmpty then .error .noDigits
  else if rest == ".inf".toList then .ok (Binary.infinity negative)
  else if rest == ".nan".toList then .ok Binary.notANumber
  else do
    let x ← orFault .badNumber (realMagnitude? rest)
    return if negative then -x else x

def truthOf (s : String) : Except Fault Bool :=
  orFault .unknownTruth (truths.lookup (String.ofList (s.toList.map Char.toLower)))

/-! ### Bytes -/

def isBase64Digit (c : Char) : Bool :=
  c.isAlphanum || c == '+' || c == '/'

/-- Whether groups of four characters write bytes; others than digits and padding do not count. -/
def isBase64 (place : Nat) (padding : Nat) : List Char → Bool
  | [] => place == 0
  | c :: cs =>
      if c == '=' then
        if 2 ≤ place && 4 ≤ place + padding + 1 then true
        else isBase64 place (if 2 ≤ place then padding + 1 else padding) cs
      else if isBase64Digit c then isBase64 ((place + 1) % 4) 0 cs
      else isBase64 place padding cs

def bytesOf (s : String) : Except Fault Data :=
  if s.toList.all (fun c => c.toNat < 128) && isBase64 0 0 s.toList then .ok .bytes
  else .error .malformed

/-! ### All types -/

def momentOf (s : String) : Except Fault Data := do
  let m ← orFault .badMoment (Moment.read? s.toList)
  if m.isValid then return .moment else .error .impossibleMoment

/-- The value of a text under a tag. -/
def makeScalar : Tag → String → Except Fault Data
  | .null, _ => .ok (.leaf .null)
  | .truth, s => (truthOf s).map fun b => .leaf (.bool b)
  | .whole, s => (wholeOf s).map fun i => .leaf (.int i)
  | .real, s => (realOf s).map fun x => .leaf (.real x)
  | .bytes, s => bytesOf s
  | .moment, s => momentOf s
  | .text, s => .ok (.leaf (.text s))
  | .mapping, s | .set, s => .error (if s.isEmpty then .malformed else .textEntries)
  | .sequence, _ | .entries, _ | .merge, _ | .default, _ | .unknown, _ => .error .malformed

end OptimalAssignment.Yaml
