import OptimalAssignment.Decimal.Reader
import OptimalAssignment.Settings.Reference

/-!
# Reading references

An odd number of backslashes in front of an opening mark makes it a part of the text.  Every step
takes a character, so the length of the text always suffices as the number of steps.
-/

namespace OptimalAssignment.Reference

def isSpace (c : Char) : Bool :=
  c == ' ' || c == '\t'

def skipSpace (cs : List Char) : List Char :=
  cs.dropWhile isSpace

/-! ## Paths and names -/

/-- A piece of what stands between the braces, in front of a colon if there is one. -/
inductive Piece where
  | dot
  | opening
  | closing
  | key (cs : List Char)
  | nested (part : Part)

namespace Piece

def isDot : Piece → Bool
  | dot => true
  | _ => false

def isKey : Piece → Bool
  | key _ | nested _ => true
  | _ => false

def isName : Piece → Bool
  | key (c :: cs) => isLetter c && cs.all fun d => isWordChar d || d == '-'
  | nested _ => true
  | _ => false

def part : Piece → Part
  | dot => .literal ['.']
  | opening => .literal ['[']
  | closing => .literal [']']
  | key cs => .literal cs
  | nested part => part

end Piece

/-- Keys behind points or in brackets. -/
def isPathTail : List Piece → Bool
  | [] => true
  | .dot :: p :: rest => p.isKey && isPathTail rest
  | .opening :: p :: .closing :: rest => p.isKey && isPathTail rest
  | _ => false

/-- Points in front lead to the collections around. -/
def isPath (pieces : List Piece) : Bool :=
  match pieces.dropWhile Piece.isDot with
  | [] => false
  | p :: rest => if p.isKey then isPathTail rest else isPathTail (p :: rest)

/-- Names with points between them. -/
def isCallName : List Piece → Bool
  | [p] => p.isName
  | p :: .dot :: rest => p.isName && isCallName rest
  | _ => false

/-- The characters that end a key. -/
def keyEnds : List Char :=
  ['\\', '\x7b', '\x7d', '(', ')', '[', ']', ':', '.', ' ', '\t', '\'', '"']

def isKeyChar (c : Char) : Bool :=
  !keyEnds.contains c

/-! ## Values without quotes -/

def unsigned : List Char → List Char
  | '+' :: cs | '-' :: cs => cs
  | cs => cs

def isDigits (cs : List Char) : Bool :=
  (cs.splitOn '_').all fun part => !part.isEmpty && part.all Char.isDigit

/-- A whole number has no zero in front. -/
def isNatural (cs : List Char) : Bool :=
  isDigits cs && (cs.length == 1 || cs.head? != some '0')

def isPointed (cs : List Char) : Bool :=
  match cs.span (· != '.') with
  | (whole, '.' :: fraction) =>
      (isNatural whole && (fraction.isEmpty || isDigits fraction)) ||
        (whole.isEmpty && isDigits fraction)
  | _ => false

def isExponentMark (c : Char) : Bool :=
  c == 'e' || c == 'E'

def isReal (cs : List Char) : Bool :=
  let ds := unsigned cs
  let word := String.ofList (ds.map Char.toLower)
  if word == "inf" || word == "nan" || isPointed ds then true
  else
    match ds.span (!isExponentMark ·) with
    | (mantissa, _ :: exponent) =>
        (isNatural mantissa || isPointed mantissa) && isDigits (unsigned exponent)
    | _ => false

/-- The value of a text without quotes and escapes. -/
def plainValue (cs : List Char) : Value :=
  let s := String.ofList cs
  let word := String.ofList (cs.map Char.toLower)
  if isReal cs then ((Decimal.looseReal? s).map Value.real).getD (.text s)
  else if isNatural (unsigned cs) then ((Decimal.looseInt? s).map Value.int).getD (.text s)
  else if word == "true" then .bool true
  else if word == "false" then .bool false
  else if word == "null" then .null
  else .text s

/-- What has been read of a value without quotes; a bare one has neither escapes nor spaces at its
end that count. -/
structure Primitive where
  parts : List Part
  bare : Bool
  rest : List Char

def Primitive.prepend (cs : List Char) (p : Primitive) : Primitive :=
  { p with parts := Reference.prepend cs p.parts }

def Primitive.element (p : Primitive) : Option Element :=
  match p.parts with
  | [] => none
  | [.literal cs] => some (.value (if p.bare then plainValue cs else .text (String.ofList cs)))
  | parts => some (.joined parts)

/-- The characters that a backslash may stand before. -/
def escapable : List Char :=
  ['\\', '(', ')', '[', ']', '\x7b', '\x7d', ':', '=', ',', ' ', '\t']

def isPrimitiveChar (c : Char) : Bool :=
  isWordChar c || argumentMarks.contains c

/-- The marks that end a value. -/
def isEndMark (c : Char) : Bool :=
  c == ',' || c == '\x7d' || c == ']'

/-! ## Texts, references and elements -/

mutual

/-- A text up to its closing quote, or to the end if it has none. -/
def parts (quote : Option Char) : Nat → List Char → Option (List Part × List Char)
  | 0, _ => none
  | fuel + 1, cs =>
      let slashes := (cs.takeWhile (· == '\\')).length
      let half := List.replicate (slashes / 2) '\\'
      let literal (text : List Char) (r : Option (List Part × List Char)) :=
        r.map fun (ps, rest) => (prepend text ps, rest)
      match cs.drop slashes with
      | '$' :: '\x7b' :: inner =>
          if slashes % 2 == 1 then literal (half ++ ['$', '\x7b']) (parts quote fuel inner)
          else do
            let (part, rest) ← reference fuel (skipSpace inner)
            let (ps, rest) ← parts quote fuel rest
            return (prepend half (part :: ps), rest)
      | c :: rest =>
          if quote != some c then
            literal (List.replicate slashes '\\' ++ [c]) (parts quote fuel rest)
          else if slashes % 2 == 1 then literal (half ++ [c]) (parts quote fuel rest)
          else some (prepend half [], rest)
      | [] =>
          if quote.isNone then some (prepend (List.replicate slashes '\\') [], []) else none

/-- A reference from behind its opening mark. -/
def reference : Nat → List Char → Option (Part × List Char)
  | 0, _ => none
  | fuel + 1, cs => do
      let (ps, rest) ← pieces fuel cs
      match skipSpace rest with
      | '\x7d' :: rest => if isPath ps then some (.path (ps.map Piece.part), rest) else none
      | ':' :: rest =>
          let (arguments, rest) ← items '\x7d' fuel false rest
          if isCallName ps then some (.call (ps.map Piece.part) arguments, rest) else none
      | _ => none

/-- The pieces in front of a colon or a closing brace. -/
def pieces : Nat → List Char → Option (List Piece × List Char)
  | 0, _ => none
  | fuel + 1, cs =>
      let more (p : Piece) (rest : List Char) : Option (List Piece × List Char) :=
        (pieces fuel rest).map fun (ps, rest) => (p :: ps, rest)
      match cs with
      | '$' :: '\x7b' :: inner => do
          let (part, rest) ← reference fuel (skipSpace inner)
          more (.nested part) rest
      | '.' :: rest => more .dot rest
      | '[' :: rest => more .opening rest
      | ']' :: rest => more .closing rest
      | _ =>
          let key := cs.takeWhile isKeyChar
          if key.isEmpty then some ([], cs) else more (.key key) (cs.drop key.length)

/-- Elements with commas between them; one that has been left out is an empty text. -/
def items (close : Char) : Nat → Bool → List Char → Option (List Element × List Char)
  | 0, _, _ => none
  | fuel + 1, afterComma, cs =>
      match skipSpace cs with
      | [] => none
      | c :: rest =>
          let empty := Element.value (.text "")
          if c == close then some (if afterComma then [empty] else [], rest)
          else if c == ',' then
            (items close fuel true rest).map fun (es, rest) => (empty :: es, rest)
          else do
            let (e, rest) ← element fuel (c :: rest)
            match skipSpace rest with
            | ',' :: rest =>
                let (es, rest) ← items close fuel true rest
                return (e :: es, rest)
            | c :: rest => if c == close then some ([e], rest) else none
            | [] => none

def element : Nat → List Char → Option (Element × List Char)
  | 0, _ => none
  | fuel + 1, cs =>
      match cs with
      | '\'' :: rest => (parts (some '\'') fuel rest).map fun (ps, rest) => (.quoted ps, rest)
      | '"' :: rest => (parts (some '"') fuel rest).map fun (ps, rest) => (.quoted ps, rest)
      | '[' :: rest => (items ']' fuel false rest).map fun (es, rest) => (.list es, rest)
      | '\x7b' :: rest => (entries fuel true rest).map fun (es, rest) => (.record es, rest)
      | _ => do
          let p ← primitive true fuel cs
          return (← p.element, p.rest)

/-- Entries with commas between them. -/
def entries : Nat → Bool → List Char → Option (List (Value × Element) × List Char)
  | 0, _, _ => none
  | fuel + 1, first, cs =>
      match first, skipSpace cs with
      | true, '\x7d' :: rest => some ([], rest)
      | _, cs => do
          let p ← primitive false fuel cs
          match ← p.element, skipSpace p.rest with
          | .value key, ':' :: rest =>
              let (e, rest) ← element fuel (skipSpace rest)
              match skipSpace rest with
              | ',' :: rest =>
                  let (es, rest) ← entries fuel false rest
                  return ((key, e) :: es, rest)
              | '\x7d' :: rest => return ([(key, e)], rest)
              | _ => none
          | _, _ => none

/-- A value without quotes, up to a mark that ends it. -/
def primitive (allowsColon : Bool) : Nat → List Char → Option Primitive
  | 0, _ => none
  | fuel + 1, cs =>
      match cs with
      | [] => some ⟨[], true, []⟩
      | '$' :: '\x7b' :: inner => do
          let (part, rest) ← reference fuel (skipSpace inner)
          let p ← primitive allowsColon fuel rest
          return { p with parts := part :: p.parts }
      | '\\' :: c :: rest =>
          if escapable.contains c then
            (primitive allowsColon fuel rest).map fun p => { p.prepend [c] with bare := false }
          else (primitive allowsColon fuel (c :: rest)).map (·.prepend ['\\'])
      | c :: rest =>
          if isSpace c then
            let spaces := (c :: rest).takeWhile isSpace
            let after := (c :: rest).drop spaces.length
            if after.head?.any fun d => isEndMark d || (d == ':' && !allowsColon) then
              some ⟨[], true, after⟩
            else (primitive allowsColon fuel after).map (·.prepend spaces)
          else if c == ':' && allowsColon then
            let spaces := rest.takeWhile isSpace
            (primitive allowsColon fuel (rest.drop spaces.length)).map (·.prepend (c :: spaces))
          else if isEndMark c || c == ':' then some ⟨[], true, c :: rest⟩
          else if isPrimitiveChar c then (primitive allowsColon fuel rest).map (·.prepend [c])
          else none

end

/-! ## Whole texts -/

/-- More steps than any reader takes for a text. -/
def steps (cs : List Char) : Nat :=
  4 * cs.length + 4

/-- The parts of a text; nothing if a reference is malformed. -/
def parts? (s : String) : Option (List Part) :=
  let cs := s.toList
  (parts none (steps cs) cs).map Prod.fst

/-- A text that is an element. -/
def element? (s : String) : Option Element := do
  let cs := s.toList
  let (e, rest) ← element (steps cs) cs
  if rest.isEmpty then some e else none

/-- Whether a text may be kept: its references are of the usual kind, or else well formed. -/
def isKept (s : String) : Bool :=
  let cs := s.toList
  !hasReference cs || isUsual cs || (parts? s).isSome

end OptimalAssignment.Reference
