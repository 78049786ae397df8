import OptimalAssignment.Assignment
import OptimalAssignment.Proofs.Decimal.Layout
import OptimalAssignment.Proofs.Grid
import OptimalAssignment.Proofs.Json.Unambiguous

/-!
# Saved assignments

An assignment is saved with its matrix and, besides, with the pairs of the cells that are not zero.
The text can be read in one way only, so it says what the matrix, the direction and the written cost
are, and the pairs it holds are those of the matrix it holds.
-/

namespace OptimalAssignment

/-! ## Matrices of whole numbers -/

/-- A matrix with at least one row and with whole numbers in its cells. -/
structure Tensor.IsWhole (t : Tensor Value) (r c : Nat) : Prop where
  shape : t.shape = [r, c]
  rows : 0 < r
  size : t.cells.size = r * c
  whole : ∀ v ∈ t.cells, ∃ i : Int, v = .int i

/-- The whole number in a cell. -/
def Tensor.wholeAt (t : Tensor Value) (k : Nat) : Int :=
  match t.cells[k]? with
  | some (.int i) => i
  | _ => 0

/-- The rows of a matrix, each with its entries. -/
def Tensor.rowsOf (t : Tensor Value) (r c : Nat) : List (List Int) :=
  (List.range r).map fun i => (List.range c).map fun j => t.wholeAt (i * c + j)

namespace Tensor.IsWhole

variable {t : Tensor Value} {r c : Nat}

theorem getElem?_cells (h : t.IsWhole r c) {k : Nat} (hk : k < r * c) :
    t.cells[k]? = some (.int (t.wholeAt k)) := by
  have hsize : k < t.cells.size := h.size ▸ hk
  obtain ⟨i, hi⟩ := h.whole _ (Array.getElem_mem hsize)
  unfold Tensor.wholeAt
  rw [Array.getElem?_eq_getElem hsize, hi]

theorem toValue_eq (h : t.IsWhole r c) :
    t.toValue id = .list ((t.rowsOf r c).map fun row => .list (row.map .int)) := by
  unfold Tensor.toValue Tensor.rowsOf
  rw [h.shape, List.map_map]
  show Value.list _ = Value.list _
  congr 1
  refine List.map_congr_left fun i hi => ?_
  show Value.list _ = Value.list _
  rw [List.map_map]
  congr 1
  refine List.map_congr_left fun j hj => ?_
  have hcell := h.getElem?_cells (index_lt (List.mem_range.1 hi) (List.mem_range.1 hj))
  show (t.cells[0 + i * (1 * c) + j * 1]?.map id).getD .null = _
  rw [show 0 + i * (1 * c) + j * 1 = i * c + j by ring, hcell]
  rfl

/-- Rows and entries say what the matrix is. -/
theorem eq_of_rowsOf {u : Tensor Value} {r' c' : Nat} (ht : t.IsWhole r c) (hu : u.IsWhole r' c')
    (h : t.rowsOf r c = u.rowsOf r' c') : t = u := by
  have hr : r = r' := by
    have hlength := congrArg List.length h
    simpa [Tensor.rowsOf] using hlength
  subst hr
  have hentry : ∀ i < r, (List.range c).map (fun j => t.wholeAt (i * c + j)) =
      (List.range c').map fun j => u.wholeAt (i * c' + j) := by
    intro i hi
    exact List.map_inj_left.1 h i (List.mem_range.2 hi)
  obtain rfl : c = c' := by
    have hlength := congrArg List.length (hentry 0 ht.rows)
    simpa using hlength
  have hcells : t.cells = u.cells := by
    apply Array.ext_getElem?
    intro k
    by_cases hk : k < r * c
    · have hc : 0 < c := Nat.pos_of_ne_zero fun h => by simp [h] at hk
      have hrow : k / c < r := Nat.div_lt_of_lt_mul (Nat.mul_comm r c ▸ hk)
      have heq := List.map_inj_left.1 (hentry (k / c) hrow) (k % c)
        (List.mem_range.2 (Nat.mod_lt k hc))
      rw [Nat.div_add_mod'] at heq
      rw [ht.getElem?_cells hk, hu.getElem?_cells hk, heq]
    · rw [Array.getElem?_eq_none (by rw [ht.size]; omega),
        Array.getElem?_eq_none (by rw [hu.size]; omega)]
  cases t
  cases u
  exact congrArg₂ Tensor.mk (ht.shape.trans hu.shape.symm) hcells

end Tensor.IsWhole

/-! ## Pairs -/

/-- The places of the entries of a row that are not zero. -/
def nonzeroPlaces (row : List Int) : List Nat :=
  row.zipIdx.filterMap fun (v, j) => if v = 0 then none else some j

/-- The cells of a matrix that are not zero, row by row. -/
def nonzeroCells (rows : List (List Int)) : List (Nat × Nat) :=
  rows.zipIdx.flatMap fun (row, i) => (nonzeroPlaces row).map fun j => (i, j)

theorem range_mul (r c : Nat) :
    List.range (r * c) = (List.range r).flatMap fun i => (List.range c).map fun j => i * c + j := by
  induction r with
  | zero => simp
  | succ r ih =>
      rw [Nat.succ_mul, List.range_add, ih, List.range_succ, List.flatMap_append,
        List.flatMap_singleton]

theorem zipIdx_map_range {α : Type} (f : Nat → α) (n : Nat) :
    ((List.range n).map f).zipIdx = (List.range n).map fun k => (f k, k) := by
  apply List.ext_getElem?
  intro k
  rw [List.getElem?_zipIdx, List.getElem?_map, List.getElem?_map]
  by_cases hk : k < n
  · simp [hk]
  · simp [hk]

theorem nonzeroCells_rowsOf (t : Tensor Value) (r c : Nat) :
    nonzeroCells (t.rowsOf r c) = (List.range r).flatMap fun i => (List.range c).filterMap fun j =>
      if t.wholeAt (i * c + j) = 0 then none else some (i, j) := by
  unfold nonzeroCells Tensor.rowsOf
  rw [zipIdx_map_range, List.flatMap_map]
  apply List.flatMap_congr
  intro i _
  show (nonzeroPlaces _).map _ = _
  unfold nonzeroPlaces
  rw [zipIdx_map_range, List.filterMap_map, List.map_filterMap]
  apply List.filterMap_congr
  intro j _
  show Option.map _ (if t.wholeAt (i * c + j) = 0 then none else some j) = _
  split <;> rfl

theorem index_div {c j : Nat} (i : Nat) (hj : j < c) : (i * c + j) / c = i := by
  rw [Nat.mul_comm, Nat.mul_add_div (by omega), Nat.div_eq_of_lt hj, Nat.add_zero]

theorem index_mod {c j : Nat} (i : Nat) (hj : j < c) : (i * c + j) % c = j := by
  rw [Nat.mul_comm, Nat.mul_add_mod, Nat.mod_eq_of_lt hj]

theorem Tensor.IsWhole.marked?_eq {t : Tensor Value} {r c : Nat} (h : t.IsWhole r c) :
    t.marked? = some (nonzeroCells (t.rowsOf r c)) := by
  have hmarked : t.marked? = some ((List.range t.cells.size).filterMap fun k =>
      if t.cells[k]?.any Value.isTrue then some (k / (c * 1), k / 1 % c) else none) := by
    unfold Tensor.marked?
    rw [h.shape]
    rfl
  rw [hmarked, h.size, nonzeroCells_rowsOf, range_mul, List.filterMap_flatMap]
  congr 1
  apply List.flatMap_congr
  intro i hi
  rw [List.filterMap_map]
  apply List.filterMap_congr
  intro j hj
  have hi := List.mem_range.1 hi
  have hj := List.mem_range.1 hj
  show (if t.cells[i * c + j]?.any Value.isTrue then
    some ((i * c + j) / (c * 1), (i * c + j) / 1 % c) else none) = _
  rw [h.getElem?_cells (index_lt hi hj), Nat.mul_one, Nat.div_one, index_div i hj, index_mod i hj]
  by_cases hzero : t.wholeAt (i * c + j) = 0 <;> simp [Value.isTrue, hzero]

namespace Json

/-- Rows of whole numbers as a value. -/
def tableValue (rows : List (List Int)) : Value :=
  .list (rows.map fun row => .list (row.map .int))

theorem unambiguous_table (depth : Nat) :
    Unambiguous fun rows : List (List Int) => layout depth (tableValue rows) := by
  have hrow : Unambiguous fun row : List Int => layout (depth + 1) (.list (row.map .int)) := by
    simp only [layout_list]
    exact unambiguous_enclose (unambiguous_int _) (by decide) _
  unfold tableValue
  simp only [layout_list depth]
  exact unambiguous_enclose hrow (by decide) depth

theorem isWord_number (x : Float) : IsWord (number.write x).toList := by
  intro c hc
  have hforeign : ∀ d, d = ',' ∨ d = '\n' → ¬number.Writes d := by
    rintro d (rfl | rfl) (h | h | h) <;> exact absurd h (by decide)
  exact ⟨fun h => hforeign c (.inl h) (Decimal.mem_write hc),
    fun h => hforeign c (.inr h) (Decimal.mem_write hc)⟩

end Json

namespace Assignment

open Json

/-- The text that holds some pairs, a cost, a direction and a matrix. -/
def textOf (pairs : List (List Int)) (cost : Float) (d : Direction) (rows : List (List Int)) :
    String :=
  Json.write (.record [("pairs", tableValue pairs), ("cost", .real cost),
    ("direction", .text d.word), ("matrix", tableValue rows)])

/-- What stands between the value of an entry and that of the next one. -/
def mark (name : String) : List Char :=
  ',' :: newline 1 ++ (quote name ++ [':', ' '])

theorem ends_mark (name : String) (s : List Char) : Ends (mark name ++ s) :=
  .inl rfl

theorem textOf_toList (pairs : List (List Int)) (cost : Float) (d : Direction)
    (rows : List (List Int)) : (textOf pairs cost d rows).toList =
      '\x7b' :: newline 1 ++ (quote "pairs" ++ [':', ' ']) ++ (layout 1 (tableValue pairs) ++
        (mark "cost" ++ ((number.write cost).toList ++ (mark "direction" ++ (quote d.word ++
          (mark "matrix" ++ (layout 1 (tableValue rows) ++ (newline 0 ++ ['\x7d'])))))))) := by
  unfold textOf Json.write mark
  rw [String.toList_ofList, layout]
  simp only [layoutFields, enclose_cons, layout, later, List.flatMap_cons, List.flatMap_nil,
    List.append_assoc, List.cons_append, List.nil_append, Nat.zero_add]

theorem quote_word (d : Direction) : quote d.word = '"' :: d.word.toList ++ ['"'] := by
  cases d <;> rfl

theorem isWord_word (d : Direction) : IsWord (quote d.word) := by
  rw [quote_word]
  cases d <;> simp [IsWord, Direction.word]

/-- The four entries are read one after the other. -/
theorem textOf_inj {pairs pairs' rows rows' : List (List Int)} {cost cost' : Float}
    {d d' : Direction} (h : textOf pairs cost d rows = textOf pairs' cost' d' rows') :
    pairs = pairs' ∧ number.write cost = number.write cost' ∧ d = d' ∧ rows = rows' := by
  have h := congrArg String.toList h
  rw [textOf_toList, textOf_toList] at h
  obtain ⟨hpairs, h⟩ := unambiguous_table 1 _ _ _ _ (ends_mark _ _) (ends_mark _ _)
    (List.append_cancel_left h)
  obtain ⟨hcost, h⟩ := word_cut (isWord_number cost) (isWord_number cost') (ends_mark _ _)
    (ends_mark _ _) (List.append_cancel_left h)
  obtain ⟨hword, h⟩ := word_cut (isWord_word d) (isWord_word d') (ends_mark _ _) (ends_mark _ _)
    (List.append_cancel_left h)
  obtain ⟨hrows, -⟩ := unambiguous_table 1 _ _ _ _ (ends_newline 0 _) (ends_newline 0 _)
    (List.append_cancel_left h)
  refine ⟨hpairs, String.toList_inj.1 hcost, ?_, hrows⟩
  have hwords : d.word = d'.word := by
    rw [quote_word, quote_word] at hword
    exact String.toList_inj.1 (List.append_cancel_right (List.cons.inj hword).2)
  have hread := congrArg Direction.ofWord? hwords
  rw [Direction.ofWord?_word, Direction.ofWord?_word] at hread
  exact Option.some.inj hread

/-! ## Saved assignments -/

/-- Pairs as rows of two numbers. -/
def pairRows (pairs : List (Nat × Nat)) : List (List Int) :=
  pairs.map fun (i, j) => [(i : Int), (j : Int)]

theorem saved_eq {a : Assignment} {r c : Nat} (h : a.matrix.IsWhole r c) {cost : Float}
    (hcost : a.cost = .real cost) :
    a.saved = textOf (pairRows (nonzeroCells (a.matrix.rowsOf r c))) cost a.direction
      (a.matrix.rowsOf r c) := by
  unfold Assignment.saved Assignment.document Assignment.pairs textOf tableValue pairRows
  rw [h.toValue_eq, h.marked?_eq, hcost, List.map_map]
  rfl

/-- The text of a saved assignment says what its matrix, its direction and its written cost are.
Whatever pairs and matrix a saved text can be read as, the pairs are those of the cells of this
matrix that are not zero, row by row. -/
theorem every_saved_assignment_is_told :
    (∀ {a b : Assignment} {r c r' c' : Nat} {x y : Float}, a.matrix.IsWhole r c →
      b.matrix.IsWhole r' c' → a.cost = .real x → b.cost = .real y → a.saved = b.saved →
        a.matrix = b.matrix ∧ a.direction = b.direction ∧ number.write x = number.write y) ∧
    ∀ {a : Assignment} {r c : Nat} {x : Float}, a.matrix.IsWhole r c → a.cost = .real x →
      (∃ pairs rows, a.saved = textOf pairs x a.direction rows) ∧
      ∀ {pairs rows : List (List Int)} {y : Float} {d : Direction},
        a.saved = textOf pairs y d rows →
          pairs = pairRows (nonzeroCells rows) ∧ rows = a.matrix.rowsOf r c := by
  constructor
  · intro a b r c r' c' x y ha hb hx hy h
    rw [saved_eq ha hx, saved_eq hb hy] at h
    obtain ⟨-, hcost, hdirection, hrows⟩ := textOf_inj h
    exact ⟨ha.eq_of_rowsOf hb hrows, hdirection, hcost⟩
  · intro a r c x ha hx
    refine ⟨⟨_, _, saved_eq ha hx⟩, fun h => ?_⟩
    rw [saved_eq ha hx] at h
    obtain ⟨rfl, -, -, rfl⟩ := textOf_inj h
    exact ⟨rfl, rfl⟩

/-- Two rows with a negative number and one of two digits, and a cost that is no number. -/
def mixedAssignment : Assignment :=
  ⟨⟨[2, 2], #[.int 0, .int (-3), .int 12, .int 0]⟩, .real Binary.notANumber, .maximize⟩

/-- Two rows without columns. -/
def bareAssignment : Assignment :=
  ⟨⟨[2, 0], #[]⟩, .real 0.0, .minimize⟩

def swappedMatching : Matching Float 2 2 :=
  ⟨⟨#v[#v[0, 1], #v[1, 0]]⟩, 5.0, .minimize⟩

/-- What is read from the texts of mixed numbers, of rows without columns, and of a matching that is
saved like its matrix. -/
theorem mixed_and_bare_assignments_are_told :
    (Assignment.ofMatching swappedMatching).matrix = ⟨[2, 2], #[.int 0, .int 1, .int 1, .int 0]⟩ ∧
      [[0, 1], [1, 0]] = pairRows (nonzeroCells [[0, -3], [12, 0]]) ∧
      [] = pairRows (nonzeroCells [[], []]) := by
  have hmixed : mixedAssignment.matrix.IsWhole 2 2 := by
    refine ⟨rfl, by decide, rfl, fun v hv => ?_⟩
    simp only [mixedAssignment, List.mem_toArray, List.mem_cons, List.not_mem_nil, or_false] at hv
    rcases hv with rfl | rfl | rfl | rfl <;> exact ⟨_, rfl⟩
  have hbare : bareAssignment.matrix.IsWhole 2 0 := ⟨rfl, by decide, rfl, nofun⟩
  have hswapped : Tensor.IsWhole ⟨[2, 2], #[.int 0, .int 1, .int 1, .int 0]⟩ 2 2 := by
    refine ⟨rfl, by decide, rfl, fun v hv => ?_⟩
    simp only [List.mem_toArray, List.mem_cons, List.not_mem_nil, or_false] at hv
    rcases hv with rfl | rfl | rfl | rfl <;> exact ⟨_, rfl⟩
  have hplain : (⟨⟨[2, 2], #[.int 0, .int 1, .int 1, .int 0]⟩, .real 5.0, .minimize⟩ :
      Assignment).matrix.IsWhole 2 2 := hswapped
  refine ⟨(every_saved_assignment_is_told.1 hswapped hplain rfl rfl rfl).1, ?_, ?_⟩
  · exact ((every_saved_assignment_is_told.2 hmixed rfl).2 (saved_eq hmixed rfl)).1
  · exact ((every_saved_assignment_is_told.2 hbare rfl).2 (saved_eq hbare rfl)).1

end Assignment

end OptimalAssignment
