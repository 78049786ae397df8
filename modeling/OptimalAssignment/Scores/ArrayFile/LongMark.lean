import OptimalAssignment.Scores.ArrayFile.LongMark.Piece

/-!
# Long marks

Old headers have an `L` behind their whole numbers.  `drop` takes these letters out, whatever else
the header holds: the pieces around them stay where they were, and the gaps are filled with blanks
and with lines that go on behind a backslash.
-/

namespace OptimalAssignment.ArrayFile.LongMark

/-- The pieces without the names `L` that follow a number. -/
def unmarked (afterNumber : Bool) : List Piece → List Piece
  | [] => []
  | p :: rest =>
      if afterNumber && p.kind == .name && p.text == ['L'] then unmarked true rest
      else p :: unmarked (p.kind == .number) rest

/-- How far pieces have been laid out. -/
structure Progress where
  row : Nat
  col : Nat
  indents : List (List Char)
  /-- Whether a line has just ended. -/
  lineStart : Bool

/-- The blanks in front of a line that has at least as many. -/
def indentOf (s : Progress) (p : Piece) : List Char :=
  match s.indents with
  | indent :: _ =>
      if s.lineStart && p.kind != .lineEnd && indent.length ≤ p.start.col then indent else []
  | [] => []

/-- What stands between the place that has been reached and a piece. -/
def gap (row col : Nat) (start : Place) : Except Fault (List Char) :=
  if start.row < row ∨ (start.row = row ∧ start.col < col) then .error (.overlap start ⟨row, col⟩)
  else
    let rows := start.row - row
    let col := if rows = 0 then col else 0
    .ok ((List.replicate rows ['\\', '\n']).flatten ++ List.replicate (start.col - col) ' ')

def lay (s : Progress) : List Piece → Except Fault (List Char)
  | [] => .ok []
  | p :: rest =>
      match p.kind with
      | .indent => lay { s with indents := p.text :: s.indents } rest
      | .dedent =>
          lay { s with indents := s.indents.tail, row := p.stop.row, col := p.stop.col } rest
      | .lineEnd => do
          let blanks ← gap s.row s.col p.start
          let more ← lay { s with row := p.stop.row + 1, col := 0, lineStart := true } rest
          return blanks ++ p.text ++ more
      | _ => do
          let indent := indentOf s p
          let blanks ← gap s.row (if indent.isEmpty then s.col else indent.length) p.start
          let lineStart := s.lineStart && s.indents.isEmpty
          let more ← lay { s with row := p.stop.row, col := p.stop.col, lineStart } rest
          return indent ++ blanks ++ p.text ++ more

/-- A header without its long marks. -/
def drop (cs : List Char) : Except Fault (List Char) := do
  lay ⟨1, 0, [], false⟩ (unmarked false (← Piece.all cs))

end OptimalAssignment.ArrayFile.LongMark
