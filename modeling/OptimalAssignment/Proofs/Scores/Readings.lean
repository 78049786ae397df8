import OptimalAssignment.Proofs.Scores.Refusals

/-!
# Entries of accepted scores

Every score that is accepted is what the entry at its place means: one or zero for a truth value,
the nearest double to a whole number, and a real as it is.  Nothing else is accepted but texts that
read as numbers, in arrays that hold anything.
-/

namespace OptimalAssignment

open Binary

namespace ScoreInput

/-- A text among values of any kind. -/
def IsLooseText (input : ScoreInput) (v : Value) : Prop :=
  ∃ a s, input.raw = .ok a ∧ a.kind = .any ∧ v = .text s

end ScoreInput

namespace Scores

variable {input : ScoreInput}

theorem length_of_square (hsound : input.Sound) {a : RawScores} {n : Nat}
    (hsquare : input.IsSquare a n) : input.leaves.length = n * n := by
  rw [input.length_leaves hsquare.raw hsound, hsquare.shape, List.prod_cons, List.prod_cons,
    List.prod_nil, Nat.mul_one]

/-- The doubles of a square are its leaves, converted one by one. -/
theorem converted_of_reals (hsound : input.Sound) {a : RawScores} {t : Tensor Float} {n : Nat}
    (hsquare : input.IsSquare a n) (hreals : a.toReals = .ok t) (i j : Fin n) :
    ∃ v, input.leaves[i.val * n + j.val]? = some v ∧
      v.toReal = .ok ((Grid.ofArray n n 0.0 t.cells).get i j) := by
  obtain ⟨cells, hcells, rfl⟩ := map_ok hreals
  rw [ScoreInput.mapM_toReal hsquare.raw hsound hsquare.real, mapM_ok_iff] at hcells
  have hk : i.val * n + j.val < input.leaves.length := by
    rw [length_of_square hsound hsquare]
    exact index_lt i.isLt j.isLt
  have hk' : i.val * n + j.val < cells.length := hcells.length_eq ▸ hk
  refine ⟨_, List.getElem?_eq_getElem hk, ?_⟩
  unfold Grid.ofArray
  rw [Grid.get_ofFn, List.getElem?_toArray, List.getElem?_eq_getElem hk']
  exact hcells.get hk hk'

theorem converted_of_ok (hsound : input.Sound) {scores : SquareGrid Float}
    (h : (validate input).result = .ok scores) (i j : Fin scores.size) :
    ∃ v, input.leaves[i.val * scores.size + j.val]? = some v ∧
      v.toReal = .ok (scores.grid.get i j) := by
  obtain ⟨a, t, hsquare, hreals, hgrid⟩ := square_of_ok h
  rw [hgrid]
  exact converted_of_reals hsound hsquare hreals i j

/-- Every leaf stands in some row and column. -/
theorem exists_place (hsound : input.Sound) {a : RawScores} {n : Nat}
    (hsquare : input.IsSquare a n) {v : Value} (hv : v ∈ input.leaves) :
    ∃ i j : Fin n, input.leaves[i.val * n + j.val]? = some v := by
  obtain ⟨k, hk, rfl⟩ := List.getElem_of_mem hv
  have hrow : k / n < n := Nat.div_lt_of_lt_mul (length_of_square hsound hsquare ▸ hk)
  refine ⟨⟨k / n, hrow⟩, ⟨k % n, Nat.mod_lt k hsquare.pos⟩, ?_⟩
  rw [Nat.div_add_mod' k n]
  exact List.getElem?_eq_getElem hk

theorem entryAt?_isSome_iff (hsound : input.Sound) {scores : SquareGrid Float}
    (h : (validate input).result = .ok scores) (i j : Nat) :
    (input.entryAt? i j).isSome = true ↔ i < scores.size ∧ j < scores.size := by
  obtain ⟨a, t, hsquare, -, -⟩ := square_of_ok h
  rw [input.entryAt?_eq hsquare.raw hsquare.shape]
  constructor
  · intro hsome
    by_contra hout
    rw [if_neg hout] at hsome
    cases hsome
  · intro hin
    obtain ⟨v, hv, -⟩ := converted_of_ok hsound h ⟨i, hin.1⟩ ⟨j, hin.2⟩
    rw [if_pos hin, show input.leaves[i * scores.size + j]? = some v from hv]
    rfl

/-- An accepted leaf is a number or a text among values of any kind. -/
theorem isNumber_or_looseText (hsound : input.Sound) {a : RawScores} {n : Nat}
    (hsquare : input.IsSquare a n) {v : Value} (hv : v ∈ input.leaves) {x : Float}
    (hmeans : v.Means x) : v.isNumber = true ∨ input.IsLooseText v := by
  rcases input.isNumber_of_mem hsquare.raw hsound hsquare.real hv with hany | hnumber
  · cases hmeans with
    | text hread => exact .inr ⟨a, _, hsquare.raw, hany, rfl⟩
    | _ => exact .inl rfl
  · exact .inl hnumber

theorem leaf_of_ok (hsound : input.Sound) {scores : SquareGrid Float}
    (h : (validate input).result = .ok scores) (i j : Fin scores.size) :
    ∃ v, input.leaves[i.val * scores.size + j.val]? = some v ∧
      v.Means (scores.grid.get i j) ∧ (v.isNumber = true ∨ input.IsLooseText v) := by
  obtain ⟨a, t, hsquare, -, -⟩ := square_of_ok h
  obtain ⟨v, hv, hreal⟩ := converted_of_ok hsound h i j
  have hmeans := Value.means_of_toReal hreal (validate_ok h i j).2
  exact ⟨v, hv, hmeans, isNumber_or_looseText hsound hsquare (List.mem_of_getElem? hv) hmeans⟩

/-- The entries of accepted scores are numbers and texts among values of any kind, and the scores
are what these mean.  An input with any other leaf is not accepted. -/
theorem every_accepted_entry_is_read (input : ScoreInput) (hsound : input.Sound) :
    (∀ scores, (validate input).result = .ok scores →
      (∀ i j, (input.entryAt? i j).isSome = true ↔ i < scores.size ∧ j < scores.size) ∧
      ∀ i j : Fin scores.size, ∃ v, input.entryAt? i j = some v ∧
        v.Means (scores.grid.get i j) ∧ (v.isNumber = true ∨ input.IsLooseText v)) ∧
    ∀ v ∈ input.leaves, v.isNumber = false → ¬input.IsLooseText v →
      ∃ why, (validate input).result = .error why := by
  refine ⟨fun scores h => ⟨entryAt?_isSome_iff hsound h, fun i j => ?_⟩,
    fun v hv hnumber htext => ?_⟩
  · obtain ⟨a, t, hsquare, -, -⟩ := square_of_ok h
    rw [input.entryAt?_eq hsquare.raw hsquare.shape, if_pos ⟨i.isLt, j.isLt⟩]
    exact leaf_of_ok hsound h i j
  · cases h : (validate input).result with
    | error why => exact ⟨why, rfl⟩
    -- the leaf has a place, where accepted scores have a number or a text
    | ok scores =>
        obtain ⟨a, t, hsquare, -, -⟩ := square_of_ok h
        obtain ⟨i, j, hplace⟩ := exists_place hsound hsquare hv
        obtain ⟨w, hw, -, hread⟩ := leaf_of_ok hsound h i j
        obtain rfl : v = w := Option.some.inj (hplace.symm.trans hw)
        rcases hread with hyes | hyes
        · rw [hyes] at hnumber
          cases hnumber
        · exact absurd hyes htext

/-! ## Lone values -/

/-- An array of anything that holds a single value. -/
def loneValue (v : Value) : ScoreInput :=
  .array ⟨.any, ⟨[1, 1], #[v]⟩⟩

theorem loneValue_isSquare (v : Value) : (loneValue v).IsSquare ⟨.any, ⟨[1, 1], #[v]⟩⟩ 1 :=
  ⟨rfl, rfl, Nat.one_pos, rfl⟩

theorem loneValue_sound (v : Value) : (loneValue v).Sound :=
  .stored ⟨rfl, rfl, fun w _ => .any w⟩

theorem validate_loneText : validate (loneValue (.text "1")) =
    ⟨[], .ok ⟨1, Nat.one_pos, Grid.ofArray 1 1 0.0 #[1.0]⟩⟩ := by
  have hreals : RawScores.toReals ⟨.any, ⟨[1, 1], #[.text "1"]⟩⟩ = .ok ⟨[1, 1], #[1.0]⟩ := rfl
  rw [validate_square (loneValue_isSquare _)]
  unfold convert
  rw [hreals]
  rfl

/-- A text is accepted that is no number, though it reads as one. -/
theorem loose_text_is_accepted : ∃ scores : SquareGrid Float,
    (validate (loneValue (.text "1"))).result = .ok scores ∧
      (loneValue (.text "1")).entryAt? 0 0 = some (.text "1") ∧
      (Value.text "1").isNumber = false := by
  refine ⟨⟨1, Nat.one_pos, Grid.ofArray 1 1 0.0 #[1.0]⟩, ?_, rfl, rfl⟩
  rw [validate_loneText]

/-- The text of a one is read as one, and a lone complex number is not accepted. -/
theorem lone_text_is_read_and_lone_complex_refused :
    (∃ v, (loneValue (.text "1")).entryAt? 0 0 = some v ∧ v.Means 1.0) ∧
      ∃ why, (validate (loneValue (.complex 1.0 0.0))).result = .error why := by
  constructor
  · have hresult : (validate (loneValue (.text "1"))).result =
        .ok ⟨1, Nat.one_pos, Grid.ofArray 1 1 0.0 #[1.0]⟩ := by rw [validate_loneText]
    obtain ⟨-, hread⟩ :=
      (every_accepted_entry_is_read (loneValue (.text "1")) (loneValue_sound _)).1 _ hresult
    obtain ⟨v, hv, hmeans, -⟩ := hread 0 0
    exact ⟨v, hv, hmeans⟩
  · refine (every_accepted_entry_is_read (loneValue (.complex 1.0 0.0)) (loneValue_sound _)).2
      (.complex 1.0 0.0) List.mem_cons_self rfl ?_
    rintro ⟨a, s, -, -, htext⟩
    cases htext

end Scores
end OptimalAssignment
