import OptimalAssignment.Proofs.Yaml.Parts.Blocks
import OptimalAssignment.Proofs.Yaml.Parts.Names
import OptimalAssignment.Proofs.Yaml.Parts.Scalars
import OptimalAssignment.Proofs.Yaml.Tokens

/-!
# Tokens of parts of a document

A lexer that reads a part of a document takes the same steps within the document, with the tokens
in front of the part before its own.
-/

namespace OptimalAssignment.Yaml

variable {above : Nat} {rest : List Char} {before : List Token}

/-! ## Lexers within a document -/

/-- A candidate with more lines above it and more tokens in front. -/
def Candidate.within (above places : Nat) (k : Candidate) : Candidate :=
  { k with place := k.place + places, line := k.line + above }

namespace Lexer

/-- A lexer with more lines above it, the rest of the document after it, and the tokens in front,
the last one first. -/
def within (above : Nat) (rest : List Char) (before : List Token) (l : Lexer) : Lexer where
  source := l.source.within above rest
  done := l.done ++ before
  columns := l.columns
  candidate := l.candidate.map (·.within above before.length)
  outer := l.outer.map (Option.map (·.within above before.length))
  keyAllowed := l.keyAllowed

variable {l l' : Lexer}

section Marks

variable {t : Token} {width : Nat} {keyAllowed : Bool}

variable (hlength : 1 ≤ l.source.chars.length) (hs : Inside rest (l.source.drop 1).chars)
include hlength hs

end Marks

/-! ## Names and scalars -/

/-- A lexer in no flow collection, whose last scalar does not go on at the start of a line. -/
structure Stops (l : Lexer) : Prop where
  flow : l.inFlow = false
  last : 0 < l.floor ∨ ∀ text, l.done.head? ≠ some (.scalar true text)

/-- The lexer behind the gap in front of it. -/
def skipped (l : Lexer) : Lexer :=
  let gap := skipGap l.inFlow false l.keyAllowed l.source.line l.source.col l.source.chars
  { l with source := gap.2, keyAllowed := gap.1 }

/-- The rest of a run, from in front of a token on. -/
def next (fuel : Nat) (l : Lexer) : Option (List Token) :=
  match l.source.chars with
  | [] => l.finish
  | c :: cs => (l.token c cs).bind (run fuel)

end Lexer
end OptimalAssignment.Yaml
