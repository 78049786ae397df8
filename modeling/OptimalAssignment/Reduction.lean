import OptimalAssignment.Direction
import OptimalAssignment.Entries
import OptimalAssignment.Grid

/-!
# Reduction of scores

Scores become costs by taking them from the largest score if large scores are better.  Then the
least entry of each row is taken from the row, and afterwards the least entry of each column from
the column.
-/

namespace OptimalAssignment.Grid

variable {α : Type} {r c : Nat} [Zero α] [Sub α] [LE α] [DecidableLE α]

def rowLeasts (g : Grid α r c) : Vector α r :=
  Vector.ofFn fun i => (leastOf? (g.row i)).getD 0

def columnLeasts (g : Grid α r c) : Vector α c :=
  Vector.ofFn fun j => (leastOf? (g.column j)).getD 0

def lowerRows (g : Grid α r c) : Grid α r c :=
  let amounts := g.rowLeasts
  ofFn fun i j => g.get i j - amounts.get i

def lowerColumns (g : Grid α r c) : Grid α r c :=
  let amounts := g.columnLeasts
  ofFn fun i j => g.get i j - amounts.get j

def reduce (g : Grid α r c) : Grid α r c :=
  g.lowerRows.lowerColumns

/-- The entries as costs, given the largest of them. -/
def orient (direction : Direction) (top : α) (g : Grid α r c) : Grid α r c :=
  match direction with
  | .minimize => g
  | .maximize => g.map (top - ·)

def top (g : Grid α r c) : α :=
  (greatestOf? g.toList).getD 0

def normalize (direction : Direction) (g : Grid α r c) : Grid α r c :=
  (g.orient direction g.top).reduce

end OptimalAssignment.Grid
