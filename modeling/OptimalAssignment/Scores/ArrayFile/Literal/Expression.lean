import OptimalAssignment.Binary.Real
import OptimalAssignment.Scores.ArrayFile.Literal.Slots
import OptimalAssignment.Scores.ArrayFile.Literal.Token

/-!
# Reading literals

A text is first read as an expression: constants, signs, sums, and brackets with expressions in
them. The value of an expression is a literal if all of its parts are, and if signs and sums are
those of numbers.
-/

namespace OptimalAssignment.ArrayFile

inductive Expression where
  | constant (v : Literal)
  /-- Something that has no value by itself, such as a name. -/
  | other
  | signed (negative : Bool) (e : Expression)
  | sum (negative : Bool) (left right : Expression)
  | tuple (items : List Expression)
  | list (items : List Expression)
  | set (items : List Expression)
  | record (entries : List (Expression × Expression))
  /-- In the place of a key: the value is a record whose entries are taken over. -/
  | spread
  deriving Inhabited

namespace Expression

open Literal (Token addMember putEntry inSlots)

/-! ## From tokens

At most six steps go by between two tokens. -/

/-- Quotations that follow each other; texts and byte strings do not mix. -/
def joinQuoted (v : Literal) : List Token → Option (Literal × List Token)
  | .quoted w :: rest =>
      match v, w with
      | .text s, .text t => joinQuoted (.text (s ++ t)) rest
      | .bytes s, .bytes t => joinQuoted (.bytes (s ++ t)) rest
      | _, _ => none
  | rest => some (v, rest)

/-- What stands between round brackets is a tuple if there is a comma. -/
def grouped : List Expression × Bool → Expression
  | ([item], false) => item
  | (items, _) => .tuple items

mutual

/-- Signed terms with signs between them, from left to right. -/
def sum? : Nat → List Token → Option (Expression × List Token)
  | 0, _ => none
  | steps + 1, ts => do
      let (left, rest) ← signed? steps ts
      moreTerms steps left rest

def moreTerms : Nat → Expression → List Token → Option (Expression × List Token)
  | 0, _, _ => none
  | steps + 1, left, ts =>
      match ts with
      | .mark '+' :: rest => do
          let (right, rest) ← signed? steps rest
          moreTerms steps (.sum false left right) rest
      | .mark '-' :: rest => do
          let (right, rest) ← signed? steps rest
          moreTerms steps (.sum true left right) rest
      | ts => some (left, ts)

def signed? : Nat → List Token → Option (Expression × List Token)
  | 0, _ => none
  | steps + 1, ts =>
      match ts with
      | .mark '+' :: rest => (signed? steps rest).map fun (e, rest) => (.signed false e, rest)
      | .mark '-' :: rest => (signed? steps rest).map fun (e, rest) => (.signed true e, rest)
      | ts => atom? steps ts

def atom? : Nat → List Token → Option (Expression × List Token)
  | 0, _ => none
  | steps + 1, ts =>
      match ts with
      | .constant v :: rest => some (.constant v, rest)
      | .quoted v :: rest => (joinQuoted v rest).map fun (v, rest) => (.constant v, rest)
      | .name "set" :: .mark '(' :: .mark ')' :: rest => some (.constant (.set []), rest)
      | .name _ :: rest => some (.other, rest)
      | .mark '(' :: rest =>
          (items? steps ')' rest).map fun (found, rest) => (grouped found, rest)
      | .mark '[' :: rest =>
          (items? steps ']' rest).map fun (found, rest) => (.list found.1, rest)
      | .mark '\x7b' :: .mark '\x7d' :: rest => some (.record [], rest)
      | .mark '\x7b' :: .spread :: rest =>
          (entries? steps (.spread :: rest)).map fun (found, rest) => (.record found, rest)
      | .mark '\x7b' :: rest => do
          let (item, rest) ← sum? steps rest
          match rest with
          | .mark ':' :: rest =>
              let (v, rest) ← sum? steps rest
              let (entries, rest) ← moreEntries steps rest
              return (.record ((item, v) :: entries), rest)
          | .mark ',' :: rest =>
              let ((items, _), rest) ← items? steps '\x7d' rest
              return (.set (item :: items), rest)
          | .mark '\x7d' :: rest => return (.set [item], rest)
          | _ => none
      | _ => none

/-- Items up to a closing bracket, and whether a comma follows the last of them. -/
def items? : Nat → Char → List Token → Option ((List Expression × Bool) × List Token)
  | 0, _, _ => none
  | steps + 1, closing, ts =>
      match ts with
      | .mark c :: rest =>
          if c == closing then some (([], false), rest) else moreItems steps closing ts
      | ts => moreItems steps closing ts

def moreItems : Nat → Char → List Token → Option ((List Expression × Bool) × List Token)
  | 0, _, _ => none
  | steps + 1, closing, ts => do
      let (item, rest) ← sum? steps ts
      match rest with
      | .mark ',' :: rest =>
          let ((items, _), rest) ← items? steps closing rest
          return ((item :: items, true), rest)
      | .mark c :: rest => if c == closing then return (([item], false), rest) else none
      | _ => none

/-- Entries up to the closing bracket. -/
def entries? : Nat → List Token → Option (List (Expression × Expression) × List Token)
  | 0, _ => none
  | steps + 1, ts =>
      match ts with
      | .mark '\x7d' :: rest => some ([], rest)
      | ts => do
          let (entry, rest) ← entry? steps ts
          let (entries, rest) ← moreEntries steps rest
          return (entry :: entries, rest)

/-- A comma and more entries, or the closing bracket. -/
def moreEntries : Nat → List Token → Option (List (Expression × Expression) × List Token)
  | 0, _ => none
  | steps + 1, ts =>
      match ts with
      | .mark ',' :: rest => entries? steps rest
      | .mark '\x7d' :: rest => some ([], rest)
      | _ => none

def entry? : Nat → List Token → Option ((Expression × Expression) × List Token)
  | 0, _ => none
  | steps + 1, ts =>
      match ts with
      | .spread :: rest => (sum? steps rest).map fun (e, rest) => ((.spread, e), rest)
      | ts => do
          match ← sum? steps ts with
          | (key, .mark ':' :: rest) =>
              let (v, rest) ← sum? steps rest
              return ((key, v), rest)
          | _ => none

end

/-- Expressions up to the end of the line, with commas between them. -/
def line? : Nat → List Token → Option ((List Expression × Bool) × List Token)
  | 0, _ => none
  | steps + 1, ts => do
      let (item, rest) ← sum? (8 * ts.length + 8) ts
      match rest with
      | [.mark ','] => return (([item], true), [])
      | .mark ',' :: .lineEnd :: rest => return (([item], true), .lineEnd :: rest)
      | .mark ',' :: rest =>
          let ((items, _), rest) ← line? steps rest
          return ((item :: items, true), rest)
      | rest => return (([item], false), rest)

def isLineEnd : Token → Bool
  | .lineEnd => true
  | _ => false

/-- The only expression of a text. -/
def ofText? (cs : List Char) : Option Expression := do
  let ts ← Token.ofText? cs
  let (found, rest) ← line? (ts.length + 1) ts
  if rest.all isLineEnd then return grouped found else none

/-! ## Values -/

inductive Fault where
  /-- The text is no expression. -/
  | malformed
  /-- The text holds `U+0000`. -/
  | nullCharacter
  | notLiteral
  /-- Entries are taken over from a record. -/
  | spread
  /-- A key or a member of a set is a list, a set or a record. -/
  | badKey
  /-- A whole number in a sum is beyond the reals. -/
  | outOfRange
  deriving DecidableEq, Repr

def signedNumber? (negative : Bool) : Literal → Except Fault Literal
  | .int i => .ok (.int (if negative then -i else i))
  | .real x => .ok (.real (if negative then -x else x))
  | .complex re im => .ok (if negative then .complex (-re) (-im) else .complex re im)
  | _ => .error .notLiteral

/-- A number, perhaps with a sign. -/
def number? : Expression → Except Fault Literal
  | .constant v => signedNumber? false v
  | .signed negative (.constant v) => signedNumber? negative v
  | _ => .error .notLiteral

/-- A real number and one of the imaginary axis. -/
def complexSum (negative : Bool) (left right : Literal) : Except Fault Literal := do
  let x ← match left with
    | .int i =>
        match Binary.ofInt? i with
        | some x => pure x
        | none => .error .outOfRange
    | .real x => pure x
    | _ => .error .notLiteral
  match right with
  | .complex re im =>
      return if negative then .complex (x - re) (0.0 - im) else .complex (x + re) (0.0 + im)
  | _ => .error .notLiteral

/-- The right side of a sum has no sign of its own. -/
def sumValue (negative : Bool) (left right : Expression) : Except Fault Literal := do
  match right with
  | .constant v => complexSum negative (← number? left) v
  | _ => .error .notLiteral

mutual

def value : Expression → Except Fault Literal
  | .constant v => .ok v
  | .signed negative (.constant v) => signedNumber? negative v
  | .sum negative left right => sumValue negative left right
  | .tuple items => (values items).map .tuple
  | .list items => (values items).map .list
  | .set items => (members [] items).map fun found => .set (inSlots found)
  | .record entries => (fields [] entries).map .record
  | .spread => .error .spread
  | _ => .error .notLiteral

def values : List Expression → Except Fault (List Literal)
  | [] => .ok []
  | e :: rest => do
      let v ← value e
      return v :: (← values rest)

def members (found : List Literal) : List Expression → Except Fault (List Literal)
  | [] => .ok found
  | e :: rest => do
      let v ← value e
      if v.isKey then members (addMember found v) rest else .error .badKey

/-- An entry replaces the value of an earlier one with an equal key. -/
def fields (found : List (Literal × Literal)) :
    List (Expression × Expression) → Except Fault (List (Literal × Literal))
  | [] => .ok found
  | (key, e) :: rest => do
      let k ← value key
      let v ← value e
      if k.isKey then fields (putEntry found k v) rest else .error .badKey

end

end Expression

namespace Literal

/-- The literal that a text writes; blanks in front of it do not count. -/
def read (cs : List Char) : Except Expression.Fault Literal :=
  let cs := cs.dropWhile fun c => c == ' ' || c == '\t'
  if cs.contains '\x00' then .error .nullCharacter
  else
    match Expression.ofText? cs with
    | some e => e.value
    | Option.none => .error .malformed

end Literal
end OptimalAssignment.ArrayFile
