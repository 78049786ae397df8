import OptimalAssignment.Scores.ArrayFile.Literal
import OptimalAssignment.Text.Digit

/-!
# Quotations in literals

A text or a byte string stands between single or triple quotes.  Letters in front of the quotes say
that it is a byte string, and that backslashes are no escapes.
-/

namespace OptimalAssignment.ArrayFile.Literal

/-- What the letters in front of a quotation say. -/
structure QuoteStyle where
  bytes : Bool
  raw : Bool
  deriving DecidableEq, Repr

def QuoteStyle.ofLetters? (letters : List Char) : Option QuoteStyle :=
  match letters.map Char.toLower with
  | [] | ['u'] => some ⟨false, false⟩
  | ['r'] => some ⟨false, true⟩
  | ['b'] => some ⟨true, false⟩
  | ['b', 'r'] | ['r', 'b'] => some ⟨true, true⟩
  | _ => Option.none

/-- The characters up to a single quote mark, and the rest; a line ends only behind a backslash. -/
def upTo (mark : Char) : List Char → Option (List Char × List Char)
  | '\\' :: c :: cs => (upTo mark cs).map fun (body, rest) => ('\\' :: c :: body, rest)
  | c :: cs =>
      if c == mark then some ([], cs)
      else if c == '\n' then Option.none
      else (upTo mark cs).map fun (body, rest) => (c :: body, rest)
  | [] => Option.none

/-- The characters up to three quote marks, and the rest. -/
def upToThree (mark : Char) : List Char → Option (List Char × List Char)
  | '\\' :: c :: cs => (upToThree mark cs).map fun (body, rest) => ('\\' :: c :: body, rest)
  | c :: cs =>
      if c == mark && cs.take 2 == [mark, mark] then some ([], cs.drop 2)
      else (upToThree mark cs).map fun (body, rest) => (c :: body, rest)
  | [] => Option.none

/-! ## Escapes -/

/-- Letters behind a backslash that stand for a control character. -/
def controls : List (Char × Nat) :=
  [('a', 0x07), ('b', 0x08), ('f', 0x0c), ('n', 0x0a), ('r', 0x0d), ('t', 0x09), ('v', 0x0b)]

/-- Letters behind a backslash, and the number of hexadecimal digits after them. -/
def hexWidths (bytes : Bool) : List (Char × Nat) :=
  if bytes then [('x', 2)] else [('x', 2), ('u', 4), ('U', 8)]

/-- The largest code point. -/
def maxCode : Nat := 0x10ffff

/-- What an escape stands for, and the number of characters it takes after the backslash. -/
def escape? (bytes : Bool) (cs : List Char) : Option (List Nat × Nat) :=
  match cs with
  | [] => some ([0x5c], 0)
  | c :: rest =>
      let octal := (cs.take 3).takeWhile fun d => '0' ≤ d && d ≤ '7'
      if c == '\n' then some ([], 1)
      else if c == '\\' || c == '\'' || c == '"' then some ([c.toNat], 1)
      else if !octal.isEmpty then
        let n := octal.foldl (fun n d => 8 * n + (d.toNat - 0x30)) 0
        some ([if bytes then n % 256 else n], octal.length)
      else
        match controls.lookup c, (hexWidths bytes).lookup c with
        | some n, _ => some ([n], 1)
        | _, some width =>
            match Text.hex? width rest with
            | some n => if n ≤ maxCode then some ([n], 1 + width) else Option.none
            | Option.none => Option.none
        | _, _ =>
            if c == 'N' && !bytes then Option.none
            else some ([0x5c], 0)

/-- The code points of the characters between quotes; unknown escapes are kept as they are. -/
def unescape (bytes : Bool) : Nat → List Char → Option (List Nat)
  | _, [] => some []
  | 0, _ => Option.none
  | steps + 1, '\\' :: cs => do
      let (codes, taken) ← escape? bytes cs
      return codes ++ (← unescape bytes steps (cs.drop taken))
  | steps + 1, c :: cs => (unescape bytes steps cs).map (c.toNat :: ·)

def QuoteStyle.read? (style : QuoteStyle) (body : List Char) : Option Literal := do
  if style.bytes && !body.all fun c => c.toNat < 0x80 then Option.none
  let codes ← if style.raw then some (body.map Char.toNat)
    else unescape style.bytes body.length body
  return if style.bytes then .bytes codes else .text codes

/-- The quotation behind its letters, from its first quote mark on. -/
def quotation (style : QuoteStyle) (cs : List Char) : Option (Literal × List Char) :=
  match cs with
  | [] => Option.none
  | mark :: cs => do
      let (body, rest) ← if cs.take 2 == [mark, mark] then upToThree mark (cs.drop 2)
        else upTo mark cs
      return (← style.read? body, rest)

end OptimalAssignment.ArrayFile.Literal
