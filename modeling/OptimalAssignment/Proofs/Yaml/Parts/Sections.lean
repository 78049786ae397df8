import OptimalAssignment.Proofs.Yaml.Documents
import OptimalAssignment.Proofs.Yaml.Parts.Tokens
import OptimalAssignment.Proofs.Yaml.Parts.Trees

/-!
# Sections of a document

Lines below a key of a document, which holds whatever else it likes in front of the key and behind
the lines.  What stands there is read by itself, and it is the same within the document.
-/

namespace OptimalAssignment.Yaml

open Lexer

/-! ## Lines in front of a key -/

theorem getLast?_unifyBreaks (cs : List Char) : (unifyBreaks cs).getLast? =
    cs.getLast?.map fun c => if c == '\r' || c == '\u0085' then '\n' else c := by
  induction cs using unifyBreaks.induct with
  | case1 cs ih =>
      rw [unifyBreaks, List.getLast?_cons, List.getLast?_cons, List.getLast?_cons, ih]
      cases cs.getLast? <;> rfl
  | case2 c cs hc ih =>
      rw [unifyBreaks, List.getLast?_cons, List.getLast?_cons, ih]
      · cases cs.getLast? <;> rfl
      · exact hc
  | case3 => rfl

/-- The ends of lines stay ends of lines. -/
theorem Inside.unifyBreaks {rest cs : List Char} (h : Inside rest cs) :
    Inside rest (unifyBreaks cs) := by
  intro hne
  obtain ⟨c, hc, hbreak⟩ := h hne
  rw [getLast?_unifyBreaks, hc]
  refine ⟨_, rfl, ?_⟩
  show isBreak (if _ then _ else _) = true
  split
  · decide
  · exact hbreak

theorem StartsKey.head {c : Char} {cs : List Char} (h : StartsKey (c :: cs)) (ds : List Char) :
    StartsKey (c :: ds) := by
  intro d hd
  cases hd
  exact h c rfl

/-- Whether a token is a scalar that may go on with the next line. -/
def goesOn : Token → Bool
  | .scalar plain _ => plain
  | _ => false

namespace Lexer

variable {l : Lexer} {rest : List Char}

end Lexer

namespace Tree

variable {handles : Handles} {fuel fuel' : Nat} {ts us vs rest : List Token}
  {es es' : List (Tree × Tree)}

end Tree

/-! ## Lines behind a section -/

namespace Lexer

end Lexer

namespace Tree

end Tree

/-! ## Sections -/

/-- Lines below a key, between the beginning of a document and its end. -/
def around (key front back : List Char) (n : Nat) (es : List Entry) : String :=
  String.ofList (front ++ (key ++ ':' :: '\n' :: (lines n es ++ back)))

section

variable {key front back : List Char} {n : Nat} {es : List Entry} {ts us : List Token}
  {columns : List Nat}

end

end OptimalAssignment.Yaml
