/-!
# Likeness of texts

Two texts are alike as far as they have characters in common: the longest part that both have, and
in turn the longest parts in front of it and behind it.
-/

namespace OptimalAssignment.Text

/-! ## Common parts -/

def commonStart : List Char → List Char → Nat
  | a :: as, b :: bs => if a == b then commonStart as bs + 1 else 0
  | _, _ => 0

/-- A part of two texts: where it starts in each of them, and its length. -/
structure Common where
  left : Nat
  right : Nat
  length : Nat
  deriving DecidableEq, Repr

/-- The longest common part; of several, the first one. -/
def longestCommon (as bs : List Char) : Common :=
  let places := (List.range as.length).flatMap fun i => (List.range bs.length).map fun j => (i, j)
  places.foldl (fun best (i, j) =>
    let n := commonStart (as.drop i) (bs.drop j)
    if best.length < n then ⟨i, j, n⟩ else best) ⟨0, 0, 0⟩

/-- The number of characters in common; each step removes some from the first text. -/
def commonCount : Nat → List Char → List Char → Nat
  | 0, _, _ => 0
  | fuel + 1, as, bs =>
      let c := longestCommon as bs
      if c.length = 0 then 0
      else
        commonCount fuel (as.take c.left) (bs.take c.right) + c.length +
          commonCount fuel (as.drop (c.left + c.length)) (bs.drop (c.right + c.length))

/-! ## Likeness -/

/-- A share of characters in common. -/
structure Likeness where
  common : Nat
  total : Nat

namespace Likeness

/-- The characters of both texts count. -/
def of (s t : String) : Likeness :=
  let as := s.toList
  let bs := t.toList
  ⟨2 * commonCount (as.length + 1) as bs, as.length + bs.length⟩

/-- Compares shares as fractions. -/
def lt (x y : Likeness) : Bool :=
  x.common * y.total < y.common * x.total

/-- At least three of five characters. -/
def isClose (x : Likeness) : Bool :=
  3 * x.total ≤ 5 * x.common

end Likeness

/-- The number of suggestions at most. -/
def maxSuggestions : Nat := 3

/-- Texts like a given one, at most three: the more alike come first, and of equally alike ones
those that come later in the alphabet. -/
def closest (given : String) (known : List String) : List String :=
  let close := (known.map fun s => (Likeness.of s given, s)).filter fun x => x.1.isClose
  let sorted := close.mergeSort fun x y =>
    y.1.lt x.1 || (!x.1.lt y.1 && (y.2 < x.2 || x.2 == y.2))
  (sorted.take maxSuggestions).map Prod.snd

end OptimalAssignment.Text
