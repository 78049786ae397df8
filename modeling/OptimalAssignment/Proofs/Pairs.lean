import OptimalAssignment.Assignment
import OptimalAssignment.Pairs
import OptimalAssignment.Proofs.Binary.Nearest
import OptimalAssignment.Proofs.Grid
import OptimalAssignment.Proofs.Results
import OptimalAssignment.Proofs.Scores.Leaves

/-!
# Pairs and matrices

Pairs of indices that are in range make a matrix of zeros and ones, and its pairs are theirs,
counted from the front, each of them once and row by row.  The pairs of a matrix make the matrix
that shows where it is not zero.  An index that is out of range makes nothing, wherever it stands.
-/

namespace OptimalAssignment

open Binary

/-! ## Zeros and ones -/

namespace Value

theorem real_equalsInt {x : Float} {i : Int} :
    (Value.real x).equalsInt i = true ↔ x.isFinite = true ∧ value x = i := by
  rw [← compareInt?_eq_iff]
  exact beq_iff_eq

theorem isTrue_of_equalsInt_zero {v : Value} (h : v.equalsInt 0 = true) : v.isTrue = false := by
  cases v with
  | bool b =>
      cases b with
      | false => rfl
      | true => cases h
  | int i =>
      obtain rfl := eq_of_beq h
      rfl
  | real x =>
      rw [real_equalsInt, Int.cast_zero, ← beq_zero_iff] at h
      show (!(x == 0.0)) = false
      rw [h]
      rfl
  | complex re im =>
      obtain ⟨him, hre⟩ := Bool.and_eq_true_iff.1 h
      have hre' : (Value.real re).equalsInt 0 = true := hre
      rw [real_equalsInt, Int.cast_zero, ← beq_zero_iff] at hre'
      show (!(re == 0.0) || !(im == 0.0)) = false
      rw [him, hre']
      rfl
  | _ => cases h

theorem isTrue_of_equalsInt_one {v : Value} (h : v.equalsInt 1 = true) : v.isTrue = true := by
  -- no double is zero and one
  have hreal {x : Float} (hx : (Value.real x).equalsInt 1 = true) : (x == 0.0) = false := by
    rw [real_equalsInt] at hx
    rw [← Bool.not_eq_true, beq_zero_iff, hx.2]
    norm_num
  cases v with
  | bool b =>
      cases b with
      | true => rfl
      | false => cases h
  | int i =>
      obtain rfl := eq_of_beq h
      rfl
  | real x =>
      show (!(x == 0.0)) = true
      rw [hreal h]
      rfl
  | complex re im =>
      show (!(re == 0.0) || _) = true
      rw [hreal (Bool.and_eq_true_iff.1 h).2]
      rfl
  | _ => cases h

end Value

namespace Pairs

variable {memory n : Nat}

/-! ## Indices -/

/-- Both indices count lines from the front or from the end. -/
def InRange (n : Nat) (pair : Int × Int) : Prop :=
  (-n ≤ pair.1 ∧ pair.1 < n) ∧ -n ≤ pair.2 ∧ pair.2 < n

instance : DecidablePred (InRange n) := fun pair =>
  inferInstanceAs (Decidable ((-n ≤ pair.1 ∧ pair.1 < n) ∧ -n ≤ pair.2 ∧ pair.2 < n))

/-- The index of the same line, counted from the front. -/
def wrap (n : Nat) (i : Int) : Int :=
  if i < 0 then i + n else i

theorem place?_eq_some {i : Int} {k : Fin n} :
    place? n i = some k ↔ (-n ≤ i ∧ i < n) ∧ (k : Int) = wrap n i := by
  unfold place? wrap
  split
  · rw [if_neg (by omega), Option.some_inj, Fin.ext_iff]
    simp only []
    omega
  · split
    · rw [if_pos (by omega), Option.some_inj, Fin.ext_iff]
      simp only []
      omega
    · constructor
      · exact nofun
      · omega

theorem exists_place {i : Int} (h : -n ≤ i ∧ i < n) : ∃ k : Fin n, place? n i = some k := by
  have hwrap : 0 ≤ wrap n i ∧ wrap n i < n := by
    unfold wrap
    split <;> omega
  refine ⟨⟨(wrap n i).toNat, by omega⟩, place?_eq_some.2 ⟨h, ?_⟩⟩
  simp only []
  omega

theorem cell?_eq_some {pair : Int × Int} {x : Cell n n} : cell? n pair = some x ↔
    InRange n pair ∧ (x.1 : Int) = wrap n pair.1 ∧ (x.2 : Int) = wrap n pair.2 := by
  unfold cell?
  constructor
  · intro h
    split at h
    · rename_i i j hi hj
      cases h
      rw [place?_eq_some] at hi hj
      exact ⟨⟨hi.1, hj.1⟩, hi.2, hj.2⟩
    · cases h
  · rintro ⟨⟨hrow, hcol⟩, hi, hj⟩
    rw [place?_eq_some.2 ⟨hrow, hi⟩, place?_eq_some.2 ⟨hcol, hj⟩]

theorem exists_cell {pair : Int × Int} (h : InRange n pair) : ∃ x, cell? n pair = some x := by
  obtain ⟨i, hi⟩ := exists_place h.1
  obtain ⟨j, hj⟩ := exists_place h.2
  rw [place?_eq_some] at hi hj
  exact ⟨(i, j), cell?_eq_some.2 ⟨h, hi.2, hj.2⟩⟩

theorem cell?_eq_none {pair : Int × Int} (h : ¬InRange n pair) : cell? n pair = none := by
  cases hcell : cell? n pair with
  | none => rfl
  | some x => exact absurd (cell?_eq_some.1 hcell).1 h

/-! ## Matrices -/

theorem mapM_cell? {pairs : List (Int × Int)} (h : ∀ pair ∈ pairs, InRange n pair) :
    ∃ cells, pairs.mapM (cell? n) = some cells ∧
      List.Forall₂ (fun pair x => cell? n pair = some x) pairs cells := by
  induction pairs with
  | nil => exact ⟨[], rfl, .nil⟩
  | cons pair pairs ih =>
      obtain ⟨x, hx⟩ := exists_cell (h pair List.mem_cons_self)
      obtain ⟨cells, hcells, hall⟩ := ih fun p hp => h p (List.mem_cons_of_mem _ hp)
      refine ⟨x :: cells, ?_, .cons hx hall⟩
      rw [List.mapM_cons, hx, hcells]
      rfl

theorem mem_cells {pairs : List (Int × Int)} {cells : List (Cell n n)}
    (h : List.Forall₂ (fun pair x => cell? n pair = some x) pairs cells) {x : Cell n n} :
    x ∈ cells ↔ ∃ pair ∈ pairs, cell? n pair = some x := by
  induction h with
  | nil => simp
  | cons hpair hrest ih =>
      rw [List.mem_cons, ih, List.exists_mem_cons_iff, hpair, Option.some_inj, eq_comm]

theorem matrix?_eq_none {pairs : List (Int × Int)} (h : ∃ pair ∈ pairs, ¬InRange n pair) :
    matrix? n pairs = none := by
  have hnone : pairs.mapM (cell? n) = none := by
    obtain ⟨pair, hpair, hout⟩ := h
    induction pairs with
    | nil => cases hpair
    | cons first pairs ih =>
        rw [List.mapM_cons]
        rcases List.mem_cons.1 hpair with rfl | hrest
        · rw [cell?_eq_none hout]
          rfl
        · rw [ih hrest]
          cases cell? n first <;> rfl
  unfold matrix?
  rw [hnone]
  rfl

/-! ## Reading -/

def pairValue (pair : Int × Int) : Value :=
  .list [.int pair.1, .int pair.2]

/-- Pairs as callers hand them over. -/
def toValue (pairs : List (Int × Int)) : Value :=
  .list (pairs.map pairValue)

/-- An integer of 64 bits with a sign. -/
def IsWord (i : Int) : Prop :=
  -2 ^ 63 ≤ i ∧ i < 2 ^ 63

/-- An integer that fits 64 bits only without a sign. -/
def IsLong (i : Int) : Prop :=
  2 ^ 63 ≤ i ∧ i < 2 ^ 64

/-- The first index that is no word is a long one. -/
def Overflows (pair : Int × Int) : Prop :=
  IsLong pair.1 ∨ IsWord pair.1 ∧ IsLong pair.2

/-- An index that names no line. -/
def Failure.isIndex : Failure → Bool
  | .selector .unusable | .badIndex => true
  | _ => false

theorem ofIndex_cases (i : Int) : (IsWord i ∧ Selector.ofIndex i = .ok (.index i)) ∨
    (IsLong i ∧ Selector.ofIndex i = .error .outOfRange) ∨
    (¬IsWord i ∧ ¬IsLong i ∧ Selector.ofIndex i = .error .unusable) := by
  unfold IsWord IsLong Selector.ofIndex Kind.ofInt
  rw [show (pow2 63 : Int) = 2 ^ 63 from rfl, show (pow2 64 : Int) = 2 ^ 64 from rfl]
  by_cases hword : -2 ^ 63 ≤ i ∧ i < 2 ^ 63
  · rw [if_pos hword]
    exact .inl ⟨hword, rfl⟩
  · rw [if_neg hword]
    by_cases hlong : 0 ≤ i ∧ i < 2 ^ 64
    · rw [if_pos hlong]
      exact .inr (.inl ⟨by omega, rfl⟩)
    · rw [if_neg hlong]
      exact .inr (.inr ⟨hword, by omega, rfl⟩)

theorem ofIndex_word {i : Int} (h : IsWord i) : Selector.ofIndex i = .ok (.index i) := by
  rcases ofIndex_cases i with ⟨-, hi⟩ | ⟨hlong, -⟩ | ⟨hword, -, -⟩
  · exact hi
  · unfold IsWord IsLong at *
    omega
  · exact absurd h hword

theorem readCells_pair (pair : Int × Int) : readCells n (pairValue pair) = (do
    let first ← (Selector.ofIndex pair.1).mapError .selector
    let second ← (Selector.ofIndex pair.2).mapError .selector
    match Selector.cells? n first second with
    | some found => return found
    | none => .error .badIndex) :=
  rfl

/-- The cells of a square can be counted and kept. -/
structure Kept (memory n : Nat) : Prop where
  counted : n * n < 2 ^ 63
  fits : n * n ≤ memory

instance : Decidable (Kept memory n) :=
  decidable_of_iff (n * n < 2 ^ 63 ∧ n * n ≤ memory) ⟨fun h => ⟨h.1, h.2⟩, fun h => ⟨h.1, h.2⟩⟩

theorem isWord_of_inRange {i : Int} (hn : Kept memory n) (h : -n ≤ i ∧ i < n) : IsWord i := by
  have hside : n ≤ n * n := Nat.le_mul_self n
  have hcounted := hn.counted
  unfold IsWord
  omega

theorem readCells_of_cell (hn : Kept memory n) {pair : Int × Int} {x : Cell n n}
    (h : cell? n pair = some x) : readCells n (pairValue pair) = .ok [x] := by
  obtain ⟨⟨hrow, hcol⟩, -⟩ := cell?_eq_some.1 h
  rw [readCells_pair, ofIndex_word (isWord_of_inRange hn hrow),
    ofIndex_word (isWord_of_inRange hn hcol)]
  show (match (cell? n pair).map ([·]) with
    | some found => Except.ok found
    | none => .error Failure.badIndex) = _
  rw [h]
  rfl

/-- How a pair fails that is out of range. -/
theorem readCells_of_not_inRange {pair : Int × Int} (h : ¬InRange n pair) :
    ∃ why, readCells n (pairValue pair) = .error why ∧
      (Overflows pair → why = .selector .outOfRange) ∧
      (¬Overflows pair → why.isIndex = true) := by
  rw [readCells_pair]
  unfold Overflows
  rcases ofIndex_cases pair.1 with ⟨hrow, hrow'⟩ | ⟨hrow, hrow'⟩ | ⟨hrow, hlong, hrow'⟩ <;>
    rw [hrow']
  · rcases ofIndex_cases pair.2 with ⟨hcol, hcol'⟩ | ⟨hcol, hcol'⟩ | ⟨hcol, hlong, hcol'⟩ <;>
      rw [hcol']
    -- two words select a cell, but this one is not there
    · refine ⟨.badIndex, ?_, ?_, fun _ => rfl⟩
      · show (match (cell? n pair).map ([·]) with
          | some found => Except.ok found
          | none => .error Failure.badIndex) = _
        rw [cell?_eq_none h]
        rfl
      · unfold IsWord IsLong at *
        omega
    · exact ⟨_, rfl, fun _ => rfl, fun hno => absurd (.inr ⟨hrow, hcol⟩) hno⟩
    · refine ⟨.selector .unusable, rfl, ?_, fun _ => rfl⟩
      unfold IsWord IsLong at *
      omega
  -- the second index is not looked at if the first one is no word
  · exact ⟨_, rfl, fun _ => rfl, fun hno => absurd (.inl hrow) hno⟩
  · exact ⟨.selector .unusable, rfl, fun hyes => by tauto, fun _ => rfl⟩

theorem readSize_natural (memory n : Nat) : readSize memory (.int n) =
    if 2 ^ 63 ≤ n * n then .error .hugeSize
    else if memory < n * n then .error .noMemory else .ok n := by
  have hnonneg : ¬(n : Int) < 0 := by omega
  have hhuge : (pow2 63 : Int) ≤ n * n ↔ 2 ^ 63 ≤ n * n := by
    rw [show (pow2 63 : Int) = (2 ^ 63 : Nat) from rfl]
    norm_cast
  have hmemory : (memory : Int) < n * n ↔ memory < n * n := by norm_cast
  show (if (n : Int) < 0 then Except.error Failure.negativeSize
    else if (pow2 63 : Int) ≤ n * n then .error .hugeSize
    else if (memory : Int) < n * n then .error .noMemory else .ok (n : Int).toNat) = _
  rw [if_neg hnonneg, Int.toNat_natCast, if_congr hhuge rfl (if_congr hmemory rfl rfl)]

theorem readSize_of_kept (hn : Kept memory n) : readSize memory (.int n) = .ok n := by
  rw [readSize_natural, if_neg (Nat.not_le.2 hn.counted), if_neg (Nat.not_lt.2 hn.fits)]

/-- Pairs are read one by one. -/
theorem read_toValue (hn : Kept memory n) (pairs : List (Int × Int)) :
    read (.int n) (toValue pairs) memory =
      (pairs.mapM fun pair => readCells n (pairValue pair)).map
        fun found => ⟨n, Matching.indicator found.flatten⟩ := by
  unfold read
  rw [readSize_of_kept hn]
  show (do
    let found ← (pairs.map pairValue).mapM (readCells n)
    return (⟨n, Matching.indicator found.flatten⟩ : (n : Nat) × Grid Nat n n)) = _
  rw [List.mapM_map]
  show _ = Except.map _ (pairs.mapM (readCells n ∘ pairValue))
  cases pairs.mapM (readCells n ∘ pairValue) <;> rfl

/-- The pairs make the matrix, and as long as it can be kept they are read as it. -/
def Makes (memory n : Nat) (pairs : List (Int × Int)) (g : Grid Nat n n) : Prop :=
  matrix? n pairs = some g ∧
    (Kept memory n → read (.int n) (toValue pairs) memory = .ok ⟨n, g⟩)

theorem makes_indicator {pairs : List (Int × Int)} {cells : List (Cell n n)}
    (hcells : pairs.mapM (cell? n) = some cells)
    (hall : List.Forall₂ (fun pair x => cell? n pair = some x) pairs cells) :
    Makes memory n pairs (Matching.indicator cells) := by
  constructor
  · unfold matrix?
    rw [hcells]
    rfl
  · intro hn
    have hread : List.Forall₂ (fun pair found => readCells n (pairValue pair) = .ok found) pairs
        (cells.map fun x => [x]) :=
      List.forall₂_map_right_iff.2 (hall.imp fun pair x hx => readCells_of_cell hn hx)
    have hflatten : (cells.map fun x => [x]).flatten = cells := List.flatMap_singleton' cells
    rw [read_toValue hn, mapM_ok_iff.2 hread]
    show Except.ok (⟨n, Matching.indicator _⟩ : (n : Nat) × Grid Nat n n) = _
    rw [hflatten]

/-- Pairs in range make the matrix with ones at their cells. -/
theorem exists_makes {pairs : List (Int × Int)} (h : ∀ pair ∈ pairs, InRange n pair) :
    ∃ cells : List (Cell n n), Makes memory n pairs (Matching.indicator cells) ∧ ∀ x, x ∈ cells ↔
      ∃ pair ∈ pairs, (x.1 : Int) = wrap n pair.1 ∧ (x.2 : Int) = wrap n pair.2 := by
  obtain ⟨cells, hcells, hall⟩ := mapM_cell? h
  refine ⟨cells, makes_indicator hcells hall, fun x => ?_⟩
  rw [mem_cells hall]
  constructor
  · rintro ⟨pair, hpair, hx⟩
    exact ⟨pair, hpair, (cell?_eq_some.1 hx).2⟩
  · rintro ⟨pair, hpair, hx⟩
    exact ⟨pair, hpair, cell?_eq_some.2 ⟨h pair hpair, hx⟩⟩

/-! ## Pairs of a matrix -/

/-- Row by row. -/
def Rising (found : List (Nat × Nat)) : Prop :=
  found.Pairwise fun x y => x.1 < y.1 ∨ x.1 = y.1 ∧ x.2 < y.2

theorem marked?_square {t : Tensor Value} (hshape : t.shape = [n, n]) :
    t.marked? = some ((List.range t.cells.size).filterMap fun k =>
      if t.cells[k]?.any Value.isTrue then some (k / n, k % n) else none) := by
  unfold Tensor.marked?
  rw [hshape]
  simp

theorem rising_marked {t : Tensor Value} (hshape : t.shape = [n, n]) {found : List (Nat × Nat)}
    (h : t.marked? = some found) : Rising found := by
  rw [marked?_square hshape] at h
  cases h
  apply List.pairwise_filterMap.2
  refine List.pairwise_lt_range.imp fun {k l} hlt x hx y hy => ?_
  obtain ⟨-, hx⟩ := Option.ite_none_right_eq_some.1 hx
  obtain ⟨-, hy⟩ := Option.ite_none_right_eq_some.1 hy
  cases hx
  cases hy
  -- in one row the columns decide
  rcases Nat.lt_or_eq_of_le (Nat.div_le_div_right (c := n) hlt.le) with hrow | hrow
  · exact .inl hrow
  · right
    have hk := Nat.div_add_mod k n
    have hl := Nat.div_add_mod l n
    rw [hrow] at hk
    exact ⟨hrow, by omega⟩

theorem mem_marked {t : Tensor Value} (hshape : t.shape = [n, n]) (hsize : t.cells.size = n * n)
    {found : List (Nat × Nat)} (h : t.marked? = some found) (x : Nat × Nat) : x ∈ found ↔
      ∃ i j : Fin n, x = (i.val, j.val) ∧
        t.cells[i.val * n + j.val]?.any Value.isTrue = true := by
  rw [marked?_square hshape, hsize] at h
  cases h
  simp only [List.mem_filterMap, List.mem_range, Option.ite_none_right_eq_some, Option.some_inj]
  constructor
  · rintro ⟨k, hk, htrue, rfl⟩
    have hn : 0 < n := Nat.pos_of_ne_zero (by rintro rfl; simp at hk)
    refine ⟨⟨k / n, Nat.div_lt_of_lt_mul hk⟩, ⟨k % n, Nat.mod_lt k hn⟩, rfl, ?_⟩
    rw [Nat.div_add_mod' k n]
    exact htrue
  · rintro ⟨i, j, rfl, htrue⟩
    have hn : 0 < n := i.pos
    refine ⟨i.val * n + j.val, index_lt i.isLt j.isLt, htrue, ?_⟩
    rw [Nat.mul_comm, Nat.mul_add_div hn, Nat.div_eq_of_lt j.isLt, Nat.mul_add_mod,
      Nat.mod_eq_of_lt j.isLt, Nat.add_zero]

/-- The table of a matrix. -/
def table (g : Grid Nat n n) : Tensor Value :=
  ⟨[n, n], (g.toList.map fun (k : Nat) => Value.int k).toArray⟩

theorem size_table (g : Grid Nat n n) : (table g).cells.size = n * n := by
  simp [table, Grid.toList, length_allCells]

theorem getElem?_table (g : Grid Nat n n) (i j : Fin n) :
    (table g).cells[i.val * n + j.val]? = some (.int (g.get i j)) := by
  simp [table, Grid.toList, getElem?_allCells, Grid.entry]

/-! ## Conversions -/

theorem exists_first_out_of_range {pairs : List (Int × Int)}
    (h : ∃ pair ∈ pairs, ¬InRange n pair) : ∃ before pair after,
      pairs = before ++ pair :: after ∧ (∀ p ∈ before, InRange n p) ∧ ¬InRange n pair := by
  obtain ⟨bad, hbad, hout⟩ := h
  have hfound : (pairs.find? fun pair => decide (¬InRange n pair)).isSome = true :=
    List.find?_isSome.2 ⟨bad, hbad, decide_eq_true hout⟩
  obtain ⟨pair, hpair⟩ := Option.isSome_iff_exists.1 hfound
  obtain ⟨hpair, before, after, hsplit, hbefore⟩ := List.find?_eq_some_iff_append.1 hpair
  exact ⟨before, pair, after, hsplit, fun p hp => by simpa using hbefore p hp,
    of_decide_eq_true hpair⟩

/-- The first pair that is out of range decides how reading fails. -/
theorem read_of_not_inRange {pair : Int × Int} (before after : List (Int × Int))
    (hbefore : ∀ p ∈ before, InRange n p) (h : ¬InRange n pair) :
    ∃ why, (Kept memory n →
        read (.int n) (toValue (before ++ pair :: after)) memory = .error why) ∧
      (Overflows pair → why = .selector .outOfRange) ∧
      (¬Overflows pair → why.isIndex = true) := by
  obtain ⟨why, hfails, hkind⟩ := readCells_of_not_inRange h
  refine ⟨why, fun hn => ?_, hkind⟩
  have herror :
      (before ++ pair :: after).mapM (fun p => readCells n (pairValue p)) = .error why := by
    apply mapM_error_iff.2
    refine ⟨before, pair, after, rfl, fun p hp => ?_, hfails⟩
    obtain ⟨x, hx⟩ := exists_cell (hbefore p hp)
    exact ⟨_, readCells_of_cell hn hx⟩
  rw [read_toValue hn, herror]
  rfl

/-- A matrix that cannot be kept is not made, whatever the pairs are. -/
theorem read_of_not_kept (hn : ¬Kept memory n) (v : Value) :
    read (.int n) v memory = .error .hugeSize ∨ read (.int n) v memory = .error .noMemory := by
  unfold read
  rw [readSize_natural]
  by_cases hhuge : 2 ^ 63 ≤ n * n
  · rw [if_pos hhuge]
    exact .inl rfl
  · have hmemory : memory < n * n := by
      by_contra hfits
      exact hn ⟨Nat.not_le.1 hhuge, Nat.not_lt.1 hfits⟩
    rw [if_neg hhuge, if_pos hmemory]
    exact .inr rfl

theorem indicator_ne_zero {cells : List (Cell n n)} {i j : Fin n} :
    (Value.int ((Matching.indicator cells).get i j : Nat)).isTrue = true ↔ (i, j) ∈ cells := by
  unfold Matching.indicator
  rw [Grid.get_ofFn]
  by_cases h : (i, j) ∈ cells <;> simp [h, Value.isTrue]

theorem inRange_natural (i j : Fin n) : InRange n ((i.val : Int), (j.val : Int)) := by
  unfold InRange
  omega

theorem wrap_natural (k : Nat) : wrap n k = k :=
  if_neg (by omega)

theorem marked_of_pairs {pairs : List (Int × Int)} (h : ∀ pair ∈ pairs, InRange n pair) :
    ∃ g found, Makes memory n pairs g ∧ (table g).marked? = some found ∧ Rising found ∧
      ∀ x, x ∈ found ↔ ∃ pair ∈ pairs,
        (x.1 : Int) = wrap n pair.1 ∧ (x.2 : Int) = wrap n pair.2 := by
  obtain ⟨cells, hmakes, hcells⟩ := exists_makes h
  have hmarked := marked?_square (t := table (Matching.indicator cells)) rfl
  refine ⟨_, _, hmakes, hmarked, rising_marked rfl hmarked, fun x => ?_⟩
  rw [mem_marked rfl (size_table _) hmarked]
  simp only [getElem?_table, Option.any_some, indicator_ne_zero]
  constructor
  · rintro ⟨i, j, rfl, hmem⟩
    exact (hcells (i, j)).1 hmem
  -- the cell of a pair in range is a cell of the matrix
  · rintro ⟨pair, hpair, hrow, hcol⟩
    obtain ⟨y, hy⟩ := exists_cell (h pair hpair)
    have hwrap := (cell?_eq_some.1 hy).2
    refine ⟨y.1, y.2, ?_, (hcells y).2 ⟨pair, hpair, hwrap⟩⟩
    apply Prod.ext <;> simp only [] <;> omega

theorem matrix_of_marked {t : Tensor Value} (hshape : t.shape = [n, n])
    (hsize : t.cells.size = n * n) : ∃ found g, t.marked? = some found ∧
      Makes memory n (found.map fun x => ((x.1 : Int), (x.2 : Int))) g ∧
      ∀ (i j : Fin n) v, t.cells[i.val * n + j.val]? = some v →
        g.get i j = if v.isTrue then 1 else 0 := by
  have hmarked := marked?_square hshape
  generalize List.filterMap _ _ = found at hmarked
  have hfound := mem_marked hshape hsize hmarked
  have hrange : ∀ pair ∈ found.map fun x => ((x.1 : Int), (x.2 : Int)), InRange n pair := by
    intro pair hpair
    obtain ⟨x, hx, rfl⟩ := List.mem_map.1 hpair
    obtain ⟨i, j, rfl, -⟩ := (hfound x).1 hx
    exact inRange_natural i j
  obtain ⟨cells, hmakes, hcells⟩ := exists_makes hrange
  refine ⟨found, _, hmarked, hmakes, fun i j v hv => ?_⟩
  -- places of the matrix are counted from the front already, so they stay as they are
  have hmem : (i, j) ∈ cells ↔ v.isTrue = true := by
    rw [hcells]
    constructor
    · rintro ⟨pair, hpair, hrow, hcol⟩
      obtain ⟨x, hx, rfl⟩ := List.mem_map.1 hpair
      obtain ⟨k, l, rfl, htrue⟩ := (hfound x).1 hx
      rw [wrap_natural, Nat.cast_inj, Fin.val_inj] at hrow hcol
      subst hrow hcol
      rw [hv] at htrue
      exact htrue
    · intro htrue
      refine ⟨_, List.mem_map.2 ⟨(i.val, j.val), (hfound _).2 ⟨i, j, rfl, ?_⟩, rfl⟩, ?_, ?_⟩
      · rw [hv]
        exact htrue
      · rw [wrap_natural]
      · rw [wrap_natural]
  unfold Matching.indicator
  rw [Grid.get_ofFn]
  exact if_congr hmem rfl rfl

/-- Pairs in range make a matrix that has them as its pairs, counted from the front, and the pairs
of a matrix make it again, with ones for what counts there.  A pair that is out of range is refused
wherever it stands, for its index unless that is too long, and a matrix that cannot be kept is
refused before any pair. -/
theorem every_conversion_keeps_the_cells (memory n : Nat) :
    (∀ pairs : List (Int × Int), (∀ pair ∈ pairs, InRange n pair) →
      ∃ g found, Makes memory n pairs g ∧ (table g).marked? = some found ∧ Rising found ∧
        ∀ x, x ∈ found ↔ ∃ pair ∈ pairs,
          (x.1 : Int) = wrap n pair.1 ∧ (x.2 : Int) = wrap n pair.2) ∧
    (∀ t : Tensor Value, t.shape = [n, n] → t.cells.size = n * n →
      ∃ found g, t.marked? = some found ∧
        Makes memory n (found.map fun x => ((x.1 : Int), (x.2 : Int))) g ∧
        ∀ (i j : Fin n) v, t.cells[i.val * n + j.val]? = some v →
          g.get i j = (if v.isTrue then 1 else 0) ∧
          (v.equalsInt 0 = true ∨ v.equalsInt 1 = true → v.equalsInt (g.get i j) = true)) ∧
    (∀ pairs : List (Int × Int), (∃ pair ∈ pairs, ¬InRange n pair) → matrix? n pairs = none ∧
      ∃ before pair after why, pairs = before ++ pair :: after ∧ (∀ p ∈ before, InRange n p) ∧
        ¬InRange n pair ∧ (Kept memory n → read (.int n) (toValue pairs) memory = .error why) ∧
        (Overflows pair → why = .selector .outOfRange) ∧
        (¬Overflows pair → why.isIndex = true)) ∧
    (¬Kept memory n → ∀ v,
      read (.int n) v memory = .error .hugeSize ∨ read (.int n) v memory = .error .noMemory) := by
  refine ⟨fun pairs h => marked_of_pairs h, fun t hshape hsize => ?_, fun pairs h => ?_,
    fun hn v => read_of_not_kept hn v⟩
  · obtain ⟨found, g, hmarked, hmakes, hget⟩ := matrix_of_marked hshape hsize
    refine ⟨found, g, hmarked, hmakes, fun i j v hv => ⟨hget i j v hv, fun hbit => ?_⟩⟩
    rw [hget i j v hv]
    rcases hbit with hzero | hone
    · rw [Value.isTrue_of_equalsInt_zero hzero]
      exact hzero
    · rw [Value.isTrue_of_equalsInt_one hone]
      exact hone
  · refine ⟨matrix?_eq_none h, ?_⟩
    obtain ⟨before, pair, after, rfl, hbefore, hout⟩ := exists_first_out_of_range h
    obtain ⟨why, hread, hkind⟩ := read_of_not_inRange before after hbefore hout
    exact ⟨before, pair, after, why, rfl, hbefore, hout, hread, hkind⟩

/-- Three lines, of which some are named from the end, and one cell twice. -/
def repeatedPairs : List (Int × Int) :=
  [(2, 1), (-3, -1), (1, 0), (-1, 1)]

/-- Repeated pairs, a matrix of one entry, a pair that is out of range, and a side that is. -/
theorem repeated_pairs_keep_their_cells :
    (∀ pair ∈ repeatedPairs, InRange 3 pair) ∧
    (∃ g found, read (.int 3) (toValue repeatedPairs) = .ok ⟨3, g⟩ ∧
      (table g).marked? = some found ∧ Rising found ∧ (0, 2) ∈ found) ∧
    (∃ found, (⟨[1, 1], #[.int 7]⟩ : Tensor Value).marked? = some found ∧
      ∃ g, Makes 1 1 (found.map fun x => ((x.1 : Int), (x.2 : Int))) g ∧ g.get 0 0 = 1) ∧
    (¬InRange 3 (3, 0) ∧ ∃ why, read (.int 3) (toValue [(0, 0), (3, 0)]) = .error why) ∧
    (read (.int 3) .null 8 = .error .hugeSize ∨ read (.int 3) .null 8 = .error .noMemory) := by
  have hrange : ∀ pair ∈ repeatedPairs, InRange 3 pair := by decide
  have hout : ∃ pair ∈ [((0 : Int), (0 : Int)), (3, 0)], ¬InRange 3 pair := by decide
  have hkept : Kept standardMemory 3 := by decide
  obtain ⟨hpairs, -, hrefused, -⟩ := every_conversion_keeps_the_cells standardMemory 3
  obtain ⟨g, found, hmakes, hmarked, hrising, hmem⟩ := hpairs repeatedPairs hrange
  obtain ⟨-, before, pair, after, why, -, -, -, hread, -⟩ := hrefused _ hout
  obtain ⟨lone, h, hlone, hmade, hget⟩ :=
    (every_conversion_keeps_the_cells 1 1).2.1 ⟨[1, 1], #[.int 7]⟩ rfl rfl
  -- nine cells are one more than can be kept
  have hlarge := (every_conversion_keeps_the_cells 8 3).2.2.2 (by decide) .null
  refine ⟨hrange, ⟨g, found, hmakes.2 hkept, hmarked, hrising, ?_⟩,
    ⟨lone, hlone, h, hmade, (hget 0 0 (.int 7) rfl).1⟩, ⟨by decide, why, hread hkept⟩, hlarge⟩
  exact (hmem (0, 2)).2 ⟨(-3, -1), by decide, by decide, by decide⟩

/-- An index that is out of range, and fails for its length. -/
theorem long_index_fails_for_its_length : ¬InRange 2 (2 ^ 63, 0) ∧
    read (.int 2) (toValue [(2 ^ 63, 0)]) = .error (.selector .outOfRange) ∧
    Failure.isIndex (.selector .outOfRange) = false := by
  have hout : ¬InRange 2 (2 ^ 63, 0) := by decide
  have hkept : Kept standardMemory 2 := by decide
  obtain ⟨why, hread, hlong, -⟩ := read_of_not_inRange [] [] nofun hout
  have hoverflows : Overflows (2 ^ 63, 0) := .inl ⟨by decide, by decide⟩
  rw [hlong hoverflows] at hread
  exact ⟨hout, hread hkept, rfl⟩

end Pairs

end OptimalAssignment
