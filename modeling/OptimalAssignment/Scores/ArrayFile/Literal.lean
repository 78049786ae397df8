import OptimalAssignment.Decimal.Reader
import OptimalAssignment.Value.Display
import OptimalAssignment.Value.Order

/-!
# Literals

The values that stand in the header of an array file: words, numbers, texts and byte strings, and
these in brackets.  A text is kept by its code points, since an escape may name one that is no
character.
-/

namespace OptimalAssignment.ArrayFile

inductive Literal where
  | none
  | dots
  | bool (b : Bool)
  | int (i : Int)
  | real (x : Float)
  | complex (re im : Float)
  | text (codes : List Nat)
  | bytes (codes : List Nat)
  | tuple (items : List Literal)
  | list (items : List Literal)
  | set (items : List Literal)
  | record (entries : List (Literal × Literal))
  deriving Inhabited

namespace Literal

def ofString (s : String) : Literal :=
  .text (s.toList.map Char.toNat)

/-! ## Writing -/

/-- A single item in round brackets is followed by a comma. -/
def tupleText : List String → String
  | [item] => "(" ++ item ++ ",)"
  | items => "(" ++ ", ".intercalate items ++ ")"

def curly (items : List String) : String :=
  "\x7b" ++ ", ".intercalate items ++ "\x7d"

mutual

def display : Literal → String
  | .none => "None"
  | .dots => "Ellipsis"
  | .bool b => if b then "True" else "False"
  | .int i => toString i
  | .real x => Decimal.plain.write x
  | .complex re im => Value.displayComplex re im
  | .text codes => Text.quoteCodes codes
  | .bytes codes => Text.quoteByteCodes codes
  | .tuple items => tupleText (displayItems items)
  | .list items => "[" ++ ", ".intercalate (displayItems items) ++ "]"
  | .set items => if items.isEmpty then "set()" else curly (displayItems items)
  | .record entries => curly (displayEntries entries)

def displayItems : List Literal → List String
  | [] => []
  | item :: rest => display item :: displayItems rest

def displayEntries : List (Literal × Literal) → List String
  | [] => []
  | (key, v) :: rest => (display key ++ ": " ++ display v) :: displayEntries rest

end

mutual

/-- Whether no whole number has more digits than are written. -/
def isShort : Literal → Bool
  | .int i => i.natAbs < Decimal.pow10 Decimal.maxDigits
  | .tuple items | .list items | .set items => areShort items
  | .record entries => haveShort entries
  | _ => true

def areShort : List Literal → Bool
  | [] => true
  | item :: rest => isShort item && areShort rest

def haveShort : List (Literal × Literal) → Bool
  | [] => true
  | (key, v) :: rest => isShort key && isShort v && haveShort rest

end

/-! ## Equality and order of keys -/

def number? : Literal → Option Value
  | .bool b => some (.bool b)
  | .int i => some (.int i)
  | .real x => some (.real x)
  | .complex re im => some (.complex re im)
  | _ => Option.none

def sameNumber (v w : Literal) : Bool :=
  match v.number?, w.number? with
  | some x, some y => x.same y
  | _, _ => false

mutual

/-- Lists, sets and records are no keys. -/
def isKey : Literal → Bool
  | .list _ | .set _ | .record _ => false
  | .tuple items => areKeys items
  | _ => true

def areKeys : List Literal → Bool
  | [] => true
  | item :: rest => isKey item && areKeys rest

end

mutual

/-- Equality of keys: numbers by value. -/
def same : Literal → Literal → Bool
  | .none, .none | .dots, .dots => true
  | .text s, .text t | .bytes s, .bytes t => s == t
  | .tuple vs, .tuple ws => sameItems vs ws
  | v, w => sameNumber v w

def sameItems : List Literal → List Literal → Bool
  | [], [] => true
  | v :: vs, w :: ws => same v w && sameItems vs ws
  | _, _ => false

end

mutual

/-- Whether a key comes before another; nothing if there is no order between them. -/
def precedes? : Literal → Literal → Option Bool
  | .text s, .text t | .bytes s, .bytes t => some (s < t)
  | .tuple vs, .tuple ws => itemsPrecede? vs ws
  | v, w =>
      match v.number?, w.number? with
      | some x, some y => x.numberPrecedes? y
      | _, _ => Option.none

def itemsPrecede? : List Literal → List Literal → Option Bool
  | v :: vs, w :: ws => if same v w then itemsPrecede? vs ws else precedes? v w
  | [], ws => some !ws.isEmpty
  | _ :: _, [] => some false

end

/-- Adds a member that is not there yet. -/
def addMember (items : List Literal) (v : Literal) : List Literal :=
  if items.any (same v) then items else items ++ [v]

/-- Adds an entry, or replaces the value of the first equal key. -/
def putEntry (entries : List (Literal × Literal)) (key v : Literal) : List (Literal × Literal) :=
  if entries.any fun e => same key e.1 then
    entries.map fun e => if same key e.1 then (e.1, v) else e
  else entries ++ [(key, v)]

end Literal
end OptimalAssignment.ArrayFile
