import OptimalAssignment.Proofs.Grid
import OptimalAssignment.Proofs.Scores.Readings

/-!
# Nested numbers as scores

Lists of numbers, nested to any depth and of any lengths, are accepted if they are the rows of a
square of finite leaves that are not negative.  What is no square is refused for its shape, a square
with a leaf that is not finite for that, and any other one at its first negative leaf.
-/

namespace OptimalAssignment

open Binary

namespace Value

/-- Truth values, reals, and integers of 64 bits, with a sign or without. -/
inductive Plain : Value → Prop where
  | bool (b : Bool) : Plain (.bool b)
  | int {i : Int} : -2 ^ 63 ≤ i → i < 2 ^ 64 → Plain (.int i)
  | real (x : Float) : Plain (.real x)

/-- Lists within lists, to any depth and of any lengths. -/
inductive Nested : Value → Prop where
  | leaf {v : Value} : v.Plain → Nested v
  | list {vs : List Value} : (∀ v ∈ vs, Nested v) → Nested (.list vs)

def isFinite : Value → Bool
  | .real x => x.isFinite
  | _ => true

/-- Below zero; the negative zero is not. -/
def isNegative : Value → Bool
  | .int i => i < 0
  | .real x => x < 0.0
  | _ => false

/-- The value is the list of the rows, and the entries are no lists. -/
structure IsSquareOf {n : Nat} (v : Value) (g : Grid Value n n) : Prop where
  rows : v = .list (g.toLists.map .list)
  leaves : ∀ i j, Nesting.isList (g.get i j) = false

/-! ## Plain leaves -/

namespace Plain

variable {v : Value} {x : Float}

theorem toReal (h : v.Plain) : ∃ x, v.toReal = .ok x := by
  cases h with
  | bool b => exact ⟨_, rfl⟩
  | real x => exact ⟨x, rfl⟩
  | @int i hlow hhigh =>
      have hsmall : i.natAbs ≤ pow2 64 := by
        rw [show pow2 64 = 2 ^ 64 from rfl]
        omega
      have hlarge : pow2 64 < pow2 1023 := pow2_lt (by decide)
      have hbound := overflow_bounds.1
      have hsome : ofInt? i ≠ none := by
        rw [Ne, ofInt?_eq_none]
        omega
      obtain ⟨x, hx⟩ := Option.ne_none_iff_exists'.1 hsome
      exact ⟨x, by rw [toReal_int, hx]⟩

theorem means (h : v.Plain) (hx : v.toReal = .ok x) : v.Means x := by
  apply means_of_ne_null _ hx
  rintro rfl
  cases h

theorem rank_le_two (h : v.Plain) : (Kind.ofLeaf v).rank ≤ 2 := by
  cases h with
  | bool b => exact Nat.zero_le 2
  | real x => exact Nat.le_refl 2
  | @int i hlow hhigh =>
      show (Kind.ofInt i).rank ≤ 2
      unfold Kind.ofInt
      rw [show (pow2 63 : Int) = 2 ^ 63 from rfl, show (pow2 64 : Int) = 2 ^ 64 from rfl]
      split
      · decide
      · rw [if_pos (by omega)]
        decide

theorem isFinite_eq (h : v.Plain) (hmeans : v.Means x) : v.isFinite = x.isFinite := by
  cases hmeans with
  | bool b => cases b <;> rfl
  | int hnear => exact hnear.finite.symm
  | real x => rfl
  | text hread => cases h

theorem isNegative_eq (h : v.Plain) (hmeans : v.Means x) : v.isNegative = decide (x < 0.0) := by
  cases hmeans with
  | bool b => cases b <;> rfl
  | int hnear => exact decide_eq_decide.2 hnear.lt_zero_iff.symm
  | real x => rfl
  | text hread => cases h

end Plain

theorem Nested.plain {v : Value} (h : v.Nested) (hleaf : Nesting.isList v = false) : v.Plain := by
  cases h with
  | leaf hplain => exact hplain
  | list hvs => cases hleaf

theorem Nested.items {v : Value} (h : v.Nested) : ∀ w ∈ Nesting.items v, w.Nested := by
  cases h with
  | leaf hplain => cases hplain <;> exact nofun
  | list hvs => exact hvs

end Value

/-! ## Squares -/

namespace Value

open Nesting

theorem eq_list_of_items {v : Value} (h : 0 < (Nesting.items v).length) :
    v = .list (Nesting.items v) := by
  cases v with
  | list vs => rfl
  | _ => cases h

/-- The cells of nested values are nested values. -/
theorem nested_levels (depth : Nat) (vs : List Value) (h : ∀ v ∈ vs, v.Nested) :
    ∀ w ∈ (levels depth vs).2, w.Nested := by
  induction depth generalizing vs with
  | zero => exact h
  | succ depth ih =>
      cases hn : commonLength? vs with
      | none =>
          rw [levels_succ_none hn]
          exact h
      | some n =>
          rw [levels_succ_some hn]
          apply ih
          intro w hw
          obtain ⟨v, hv, hwv⟩ := List.mem_flatMap.1 hw
          exact (h v hv).items w hwv

theorem Nested.cells {v : Value} (h : v.Nested) : ∀ w ∈ (spread v).cells, w.Nested := by
  intro w hw
  apply nested_levels depthLimit [v]
  · intro u hu
    rw [List.mem_singleton.1 hu]
    exact h
  · exact List.mem_toArray.1 hw

section Squares

variable {n : Nat} {v : Value} {g : Grid Value n n}

theorem IsSquareOf.entryAt? (h : v.IsSquareOf g) (i j : Fin n) :
    (ScoreInput.nested v).entryAt? i j = some (g.get i j) := by
  rw [h.rows]
  simp [ScoreInput.entryAt?, Nesting.items, Grid.toLists, Grid.row]

theorem IsSquareOf.shape (h : v.IsSquareOf g) (hn : 0 < n) : (spread v).shape = [n, n] := by
  -- the rows are alike, and their items are leaves
  have hrows : commonLength? [v] = some n := by
    apply commonLength?_of_alike _ (List.cons_ne_nil _ _)
    rw [h.rows]
    simp [isList, Nesting.items, Grid.toLists]
  have hitems : commonLength? (Nesting.items v) = some n := by
    rw [h.rows]
    apply commonLength?_of_alike
    · simp [isList, Nesting.items, Grid.toLists, Grid.row]
    · simp [Nesting.items, Grid.toLists, Nat.pos_iff_ne_zero.1 hn]
  have hleaves : commonLength? ((Nesting.items v).flatMap Nesting.items) = none := by
    apply commonLength?_leaf (w := g.get ⟨0, hn⟩ ⟨0, hn⟩) _ (h.leaves _ _)
    rw [h.rows]
    simp [Nesting.items, Grid.toLists, Grid.row]
  show (levels depthLimit [v]).1 = _
  rw [show depthLimit = 61 + 1 + 1 + 1 from rfl, levels_succ_some hrows, List.flatMap_singleton,
    levels_succ_some hitems, levels_succ_none hleaves]

theorem IsSquareOf.cells (h : v.IsSquareOf g) (hn : 0 < n) :
    ∀ w ∈ (spread v).cells, isList w = false := by
  obtain ⟨-, -, hcells⟩ := spread_matrix (h.shape hn)
  intro w hw
  rw [← Array.mem_toList_iff, hcells, h.rows] at hw
  obtain ⟨i, j, rfl⟩ : ∃ i j, g.get i j = w := by
    simpa [Nesting.items, Grid.toLists, Grid.row] using hw
  exact h.leaves i j

theorem pos_of_shape (h : (spread v).shape = [n, n]) : 0 < n := by
  have hlevels : (levels depthLimit [v]).1 = [n, n] := h
  obtain ⟨houter, d, hrows, -⟩ := levels_of_cons hlevels
  rw [List.flatMap_singleton] at hrows
  -- without rows there is no second level
  apply Nat.pos_of_ne_zero
  rintro rfl
  rw [List.length_eq_zero_iff.1 (houter v (List.mem_singleton_self v)).2, levels_nil] at hrows
  cases hrows

example : (spread (.list [])).shape = [0] ∧ (spread (.list [.list []])).shape = [1, 0] ∧
    (spread (.list [.list [], .list []])).shape = [2, 0] :=
  ⟨rfl, rfl, rfl⟩

/-- The entries at their places. -/
def square (n : Nat) (v : Value) : Grid Value n n :=
  .ofFn fun i j => ((ScoreInput.nested v).entryAt? i j).getD .null

theorem isSquareOf_square (hshape : (spread v).shape = [n, n])
    (hleaves : ∀ w ∈ (spread v).cells, isList w = false) : v.IsSquareOf (square n v) := by
  have hn := pos_of_shape hshape
  obtain ⟨hlength, hrows, hcells⟩ := spread_matrix hshape
  have hget (i j : Fin n) (row : Value) (hrow : (Nesting.items v)[i.val]? = some row) :
      (Nesting.items row)[j.val]? = some ((square n v).get i j) := by
    have hitems := hrows row (List.mem_of_getElem? hrow)
    have hj : j.val < (Nesting.items row).length := by omega
    unfold square
    rw [Grid.get_ofFn, ScoreInput.entryAt?, hrow, Option.bind_some, List.getElem?_eq_getElem hj]
    rfl
  constructor
  -- the lists are those of the grid, row by row and in each row entry by entry
  · refine (eq_list_of_items (by omega)).trans (congrArg Value.list ?_)
    apply List.ext_getElem
    · simp [hlength, Grid.toLists]
    · intro i hi hi'
      have hitems := hrows _ (List.getElem_mem hi)
      rw [eq_list_of_items (v := (Nesting.items v)[i]) (by omega), List.getElem_map]
      apply congrArg
      apply List.ext_getElem
      · simp [hitems, Grid.toLists, Grid.row]
      · intro j hj hj'
        have hentry := hget ⟨i, by omega⟩ ⟨j, by omega⟩ _ (List.getElem?_eq_getElem hi)
        rw [List.getElem?_eq_getElem hj, Option.some_inj] at hentry
        simp [hentry, Grid.toLists, Grid.row]
  · intro i j
    apply hleaves
    rw [← Array.mem_toList_iff, hcells, List.mem_flatMap]
    have hi : i.val < (Nesting.items v).length := by omega
    exact ⟨_, List.getElem_mem hi,
      List.mem_of_getElem? (hget i j _ (List.getElem?_eq_getElem hi))⟩

end Squares

end Value

namespace Scores

/-! ## Entries of squares -/

/-- A square has an entry that is not finite, or all entries are finite and the first negative one
is named, or there is none. -/
theorem checkEntries_verdict {n : Nat} (g : Grid Float n n) :
    ((∃ i j, (g.get i j).isFinite = false) ∧ checkEntries g = refuse .nonFinite) ∨
    ((∀ i j, (g.get i j).isFinite = true) ∧
      ((∃ i j, g.get i j < 0.0 ∧ (∀ i' j', i' < i ∨ i' = i ∧ j' < j → ¬g.get i' j' < 0.0) ∧
          checkEntries g = refuse (.negative i j (g.get i j))) ∨
        ((∀ i j, ¬g.get i j < 0.0) ∧ checkEntries g = pure ()))) := by
  by_cases hfin : g.toList.all Float.isFinite = true
  · right
    refine ⟨fun i j => List.all_eq_true.1 hfin _ (Grid.mem_toList.2 ⟨i, j, rfl⟩), ?_⟩
    unfold checkEntries
    rw [hfin, Bool.not_true, if_neg Bool.false_ne_true]
    -- the entries are gone through in the order of their rows, so the first one found is named
    cases hselect : g.select (· < 0.0) with
    | nil =>
        refine .inr ⟨fun i j hneg => ?_, rfl⟩
        have hmem : (i, j) ∈ g.select (· < 0.0) := Grid.mem_select.2 (decide_eq_true hneg)
        rw [hselect] at hmem
        cases hmem
    | cons x rest =>
        left
        obtain ⟨i, j⟩ := x
        have hneg : (i, j) ∈ g.select (· < 0.0) := hselect ▸ List.mem_cons_self
        rw [Grid.mem_select] at hneg
        refine ⟨i, j, of_decide_eq_true hneg, fun i' j' hbefore => ?_, rfl⟩
        have hfirst := Grid.first_of_select hselect hbefore
        exact of_decide_eq_false hfirst
  · left
    unfold checkEntries
    rw [Bool.eq_false_iff.2 hfin, Bool.not_false, if_pos rfl]
    refine ⟨?_, rfl⟩
    obtain ⟨x, hx, hinf⟩ := List.all_eq_false.1 (Bool.eq_false_iff.2 hfin)
    obtain ⟨i, j, rfl⟩ := Grid.mem_toList.1 hx
    exact ⟨i, j, Bool.eq_false_iff.2 hinf⟩

variable {n : Nat} {v : Value} {g : Grid Value n n}

theorem plain_leaves (hv : v.Nested) (hn : 0 < n) (hg : v.IsSquareOf g) :
    ∀ w ∈ (ScoreInput.nested v).leaves, w.Plain := by
  intro w hw
  have hcell := Array.mem_toList_iff.1 hw
  exact (hv.cells w hcell).plain (hg.cells hn w hcell)

/-- Numbers in a square may be real. -/
theorem isSquare_of_isSquareOf (hv : v.Nested) (hn : 0 < n) (hg : v.IsSquareOf g) :
    ∃ a, (ScoreInput.nested v).IsSquare a n := by
  have hreal := Kind.mayBeReal_ofLeaves fun w hw => (plain_leaves hv hn hg w hw).rank_le_two
  exact ⟨_, RawScores.ofNested_of_leaves (hg.cells hn), hg.shape hn, hn, hreal⟩

theorem leaf_of_isSquareOf {a : RawScores} (hsquare : (ScoreInput.nested v).IsSquare a n)
    (hg : v.IsSquareOf g) (i j : Fin n) :
    (ScoreInput.nested v).leaves[i.val * n + j.val]? = some (g.get i j) := by
  rw [← hg.entryAt? i j, ScoreInput.entryAt?_eq hsquare.raw hsquare.shape,
    if_pos ⟨i.isLt, j.isLt⟩]

theorem plain_of_isSquareOf (hv : v.Nested) (hg : v.IsSquareOf g) (i j : Fin n) :
    (g.get i j).Plain := by
  obtain ⟨a, hsquare⟩ := isSquare_of_isSquareOf hv i.pos hg
  exact plain_leaves hv i.pos hg _ (List.mem_of_getElem? (leaf_of_isSquareOf hsquare hg i j))

/-- Every entry of a square of numbers has a double. -/
theorem validate_isSquareOf (hv : v.Nested) (hn : 0 < n) (hg : v.IsSquareOf g) :
    ∃ scores : Grid Float n n, (∀ i j, (g.get i j).Means (scores.get i j)) ∧
      validate (.nested v) = (do
        checkEntries scores
        return ⟨n, hn, scores⟩) := by
  have hsound : (ScoreInput.nested v).Sound := .nested v
  obtain ⟨a, hsquare⟩ := isSquare_of_isSquareOf hv hn hg
  obtain ⟨t, hreals⟩ : ∃ t, a.toReals = .ok t := by
    obtain ⟨xs, hxs⟩ := mapM_ok fun w hw => (plain_leaves hv hn hg w hw).toReal
    rw [← ScoreInput.mapM_toReal hsquare.raw hsound hsquare.real] at hxs
    exact ⟨_, congrArg (Except.map _) hxs⟩
  have hconvert : convert a = pure t := by
    unfold convert
    rw [hreals]
  refine ⟨Grid.ofArray n n 0.0 t.cells, fun i j => ?_, ?_⟩
  · obtain ⟨w, hw, hread⟩ := converted_of_reals hsound hsquare hreals i j
    rw [leaf_of_isSquareOf hsquare hg] at hw
    obtain rfl := Option.some.inj hw
    exact (plain_of_isSquareOf hv hg i j).means hread
  · rw [validate_square hsquare, hconvert]
    rfl

/-! ## Verdicts -/

/-- What is said of the square of some leaves. -/
inductive Verdict (g : Grid Value n n) : Logged ScoreError (SquareGrid Float) → Prop where
  | nonFinite {i j : Fin n} : (g.get i j).isFinite = false → Verdict g (refuse .nonFinite)
  /-- The first negative leaf, row by row. -/
  | negative {i j : Fin n} {x : Float} : (∀ i j, (g.get i j).isFinite = true) →
      (g.get i j).isNegative = true →
      (∀ i' j', i' < i ∨ i' = i ∧ j' < j → (g.get i' j').isNegative = false) →
      (g.get i j).Means x → Verdict g (refuse (.negative i j x))
  | accepted {scores : Grid Float n n} (hn : 0 < n) :
      (∀ i j, (g.get i j).isFinite = true ∧ (g.get i j).isNegative = false) →
      (∀ i j, (g.get i j).Means (scores.get i j)) → Verdict g ⟨[], .ok ⟨n, hn, scores⟩⟩

theorem verdict_of_isSquareOf (hv : v.Nested) (hn : 0 < n) (hg : v.IsSquareOf g) :
    Verdict g (validate (.nested v)) := by
  obtain ⟨scores, hmeans, hvalidate⟩ := validate_isSquareOf hv hn hg
  have hplain := plain_of_isSquareOf hv hg
  have hfinite (i j : Fin n) := (hplain i j).isFinite_eq (hmeans i j)
  have hnegative (i j : Fin n) := (hplain i j).isNegative_eq (hmeans i j)
  rw [hvalidate]
  rcases checkEntries_verdict scores with ⟨⟨i, j, hinf⟩, hcheck⟩ |
    ⟨hfin, ⟨i, j, hneg, hfirst, hcheck⟩ | ⟨hnone, hcheck⟩⟩ <;> rw [hcheck]
  · exact .nonFinite ((hfinite i j).trans hinf)
  · apply Verdict.negative _ _ _ (hmeans i j)
    · exact fun i j => (hfinite i j).trans (hfin i j)
    · rw [hnegative, decide_eq_true hneg]
    · intro i' j' hbefore
      rw [hnegative, decide_eq_false (hfirst i' j' hbefore)]
  · apply Verdict.accepted hn _ hmeans
    intro i j
    rw [hfinite, hfin, hnegative, decide_eq_false (hnone i j)]
    exact ⟨rfl, rfl⟩

theorem Verdict.accepted_of_ok {outcome : Logged ScoreError (SquareGrid Float)}
    (h : Verdict g outcome) {scores : SquareGrid Float} (hok : outcome.result = .ok scores)
    (i j : Fin n) : (g.get i j).isFinite = true ∧ (g.get i j).isNegative = false := by
  cases h with
  | nonFinite hinf => cases hok
  | negative hfin hneg hfirst hmeans => cases hok
  | accepted hn hleaves hmeans => exact hleaves i j

theorem Verdict.ok_of_accepted {outcome : Logged ScoreError (SquareGrid Float)}
    (h : Verdict g outcome)
    (hleaves : ∀ i j, (g.get i j).isFinite = true ∧ (g.get i j).isNegative = false) :
    ∃ scores, outcome.result = .ok scores := by
  cases h with
  | @nonFinite i j hinf =>
      rw [(hleaves i j).1] at hinf
      cases hinf
  | @negative i j x hfin hneg hfirst hmeans =>
      rw [(hleaves i j).2] at hneg
      cases hneg
  | accepted hn hleaves hmeans => exact ⟨_, rfl⟩

/-- What is no square of leaves is refused for its shape. -/
theorem shape_refused (v : Value)
    (hnone : ¬∃ (n : Nat) (g : Grid Value n n), 0 < n ∧ v.IsSquareOf g) :
    ∃ why : Refusal, why.isShape = true ∧ validate (.nested v) = refuse why := by
  cases hraw : (ScoreInput.nested v).raw with
  | error why =>
      refine ⟨.irregular why, rfl, ?_⟩
      unfold validate
      rw [hraw]
  | ok a =>
      rw [validate_raw hraw]
      rcases side_cases a.shape with ⟨n, hshape, -⟩ | ⟨why, hwhy, hside⟩
      · obtain ⟨t, hregular, -⟩ := bind_ok hraw
        obtain ⟨-, hleaves⟩ := Nesting.spread_of_regular hregular
        obtain rfl := RawScores.ofNested_ok hraw
        have hsquare := Value.isSquareOf_square hshape hleaves
        exact absurd ⟨n, _, Value.pos_of_shape hshape, hsquare⟩ hnone
      · refine ⟨why, hwhy, ?_⟩
        rw [hside]
        rfl

/-- Only an array can be a matrix without rows. -/
theorem empty_refused_iff {input : ScoreInput} :
    (validate input).result = .error (.refused .empty) ↔
      ∃ a, input.raw = .ok a ∧ a.shape = [0, 0] := by
  constructor
  · intro h
    cases hraw : input.raw with
    | error why =>
        unfold validate at h
        rw [hraw] at h
        cases h
    | ok a =>
        refine ⟨a, rfl, ?_⟩
        rw [validate_raw hraw] at h
        rcases side_cases a.shape with ⟨n, hshape, hside⟩ | ⟨why, hwhy, hside⟩ <;> rw [hside] at h
        · by_cases hn : 0 < n
          -- no later check speaks of an empty matrix
          · change (dite (0 < n) _ _ : Logged ScoreError (SquareGrid Float)).result = _ at h
            rw [dif_pos hn] at h
            rcases Logged.bind_error h with h | ⟨-, -, h⟩
            · unfold refuseIf at h
              split at h <;> cases h
            · rcases Logged.bind_error h with h | ⟨t, -, h⟩
              · unfold convert at h
                split at h <;> cases h
              · rcases Logged.bind_error h with h | ⟨-, -, h⟩
                · unfold checkEntries at h
                  split at h
                  · cases h
                  · split at h <;> cases h
                · cases h
          · rw [hshape, Nat.eq_zero_of_not_pos hn]
        · cases h
          cases hwhy
  · rintro ⟨a, hraw, hshape⟩
    rw [validate_raw hraw, hshape]
    rfl

/-- Nested numbers are accepted if and only if they are the rows of a square of finite leaves that
are not negative.  Any other square is refused for its leaves, first for one that is not finite, and
what is no square for its shape; nothing nested is refused for being empty. -/
theorem every_nested_input_is_judged {v : Value} (hv : v.Nested) :
    ((∃ scores, (validate (.nested v)).result = .ok scores) ↔
      ∃ (n : Nat) (g : Grid Value n n), 0 < n ∧ v.IsSquareOf g ∧
        ∀ i j, (g.get i j).isFinite = true ∧ (g.get i j).isNegative = false) ∧
    (∀ (n : Nat) (g : Grid Value n n), 0 < n → v.IsSquareOf g →
      Verdict g (validate (.nested v))) ∧
    ((¬∃ (n : Nat) (g : Grid Value n n), 0 < n ∧ v.IsSquareOf g) →
      ∃ why : Refusal, why.isShape = true ∧ validate (.nested v) = refuse why) ∧
    ∀ w : Value, (validate (.nested w)).result ≠ .error (.refused .empty) := by
  refine ⟨⟨?_, ?_⟩, fun n g hn hg => verdict_of_isSquareOf hv hn hg, shape_refused v,
    fun w hw => ?_⟩
  · rintro ⟨scores, hok⟩
    by_cases hsquare : ∃ (n : Nat) (g : Grid Value n n), 0 < n ∧ v.IsSquareOf g
    · obtain ⟨n, g, hn, hg⟩ := hsquare
      exact ⟨n, g, hn, hg, (verdict_of_isSquareOf hv hn hg).accepted_of_ok hok⟩
    · obtain ⟨why, -, hrefuse⟩ := shape_refused v hsquare
      rw [hrefuse] at hok
      cases hok
  · rintro ⟨n, g, hn, hg, hleaves⟩
    exact (verdict_of_isSquareOf hv hn hg).ok_of_accepted hleaves
  · obtain ⟨a, hraw, hshape⟩ := empty_refused_iff.1 hw
    obtain rfl := RawScores.ofNested_ok hraw
    exact Nat.lt_irrefl 0 (Value.pos_of_shape hshape)

/-- A truth value, an integer that needs all 64 bits, a real and a negative integer. -/
def mixedLeaves : Grid Value 2 2 :=
  ⟨#v[#v[.bool true, .int (2 ^ 63)], #v[.real 0.5, .int (-1)]]⟩

theorem mixed_leaves_are_refused_at_the_last :
    (Value.list (mixedLeaves.toLists.map .list)).Nested ∧ ∃ x, (Value.int (-1)).Means x ∧
      validate (.nested (.list (mixedLeaves.toLists.map .list))) = refuse (.negative 1 1 x) := by
  have hplain : ∀ i j, (mixedLeaves.get i j).Plain := by
    intro i j
    fin_cases i <;> fin_cases j
    · exact .bool true
    · exact .int (by decide) (by decide)
    · exact .real 0.5
    · exact .int (by decide) (by decide)
  have hnested : (Value.list (mixedLeaves.toLists.map .list)).Nested := by
    refine .list fun row hrow => ?_
    obtain ⟨leaves, hleaves, rfl⟩ := List.mem_map.1 hrow
    obtain ⟨i, -, rfl⟩ := List.mem_map.1 hleaves
    refine .list fun w hw => ?_
    obtain ⟨j, -, rfl⟩ := List.mem_map.1 hw
    exact .leaf (hplain i j)
  have hsquare : (Value.list (mixedLeaves.toLists.map .list)).IsSquareOf mixedLeaves :=
    ⟨rfl, by decide⟩
  refine ⟨hnested, ?_⟩
  have hverdict := (every_nested_input_is_judged hnested).2.1 2 mixedLeaves Nat.two_pos hsquare
  have hfinite : ∀ i j, (mixedLeaves.get i j).isFinite = true := by decide
  have hnegative : ∀ i j, (mixedLeaves.get i j).isNegative = (i == 1 && j == 1) := by decide
  generalize validate _ = outcome at hverdict ⊢
  cases hverdict with
  | @nonFinite i j hinf =>
      rw [hfinite] at hinf
      cases hinf
  | @negative i j x hfin hneg hfirst hmeans =>
      rw [hnegative, Bool.and_eq_true, beq_iff_eq, beq_iff_eq] at hneg
      obtain ⟨rfl, rfl⟩ := hneg
      exact ⟨x, hmeans, rfl⟩
  | accepted hn hleaves hmeans => exact absurd (hleaves 1 1).2 (by decide)

end Scores

end OptimalAssignment
