/-!
# Extremes and totals of entries

The entries of a matrix can be added and compared.  An entry that is not even at most itself is
undefined, and it is the extreme of any entries it is among.  Totals are taken pairwise, which keeps
the rounding errors of long sums small.
-/

namespace OptimalAssignment

variable {α : Type}

/-! ## Extremes -/

section Extremes

variable [LE α] [DecidableLE α]

def least (a b : α) : α :=
  if a ≤ b ∨ ¬a ≤ a then a else b

def greatest (a b : α) : α :=
  if b ≤ a ∨ ¬a ≤ a then a else b

def leastOf? : List α → Option α
  | [] => none
  | x :: xs => some (xs.foldl least x)

def greatestOf? : List α → Option α
  | [] => none
  | x :: xs => some (xs.foldl greatest x)

end Extremes

/-! ## Totals -/

section Totals

variable [Zero α] [Add α]

/-- The entries at the places `k`, `k + 8`, … of the first blocks of eight, added up. -/
def lane (xs : Array α) (blocks k : Nat) : α :=
  match (List.range blocks).filterMap fun b => xs[8 * b + k]? with
  | [] => 0
  | x :: rest => rest.foldl (· + ·) x

/-- Adds up blocks of eight in eight lanes, then the lanes pair by pair, then the rest. -/
def blockTotal (xs : List α) : α :=
  let blocks := xs.length / 8
  let l := lane xs.toArray blocks
  let lanes := ((l 0 + l 1) + (l 2 + l 3)) + ((l 4 + l 5) + (l 6 + l 7))
  (xs.drop (8 * blocks)).foldl (· + ·) lanes

/-- Long lists are cut in two, the first part into whole blocks. -/
def pairwiseTotal (xs : List α) : α :=
  if xs.length < 8 then xs.foldl (· + ·) 0
  else if _h : xs.length ≤ 128 then blockTotal xs
  else
    let half := xs.length / 2 / 8 * 8
    pairwiseTotal (xs.take half) + pairwiseTotal (xs.drop half)
termination_by xs.length
decreasing_by
  all_goals simp only [List.length_take, List.length_drop]; omega

def total (xs : List α) : α :=
  0 + pairwiseTotal xs

end Totals
end OptimalAssignment
