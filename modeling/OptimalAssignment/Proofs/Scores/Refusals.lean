import OptimalAssignment.Proofs.Scores.Inputs
import OptimalAssignment.Proofs.Scores.Proper
import OptimalAssignment.Solver

/-!
# Refused scores

Validation accepts without a record or refuses with the record of its reason, apart from one case:
it stops without a word at a whole number beyond the doubles.  A solver that is given scores which
are not accepted stays as it was.
-/

namespace OptimalAssignment

open Binary

/-- A square of values that may be real numbers. -/
structure ScoreInput.IsSquare (input : ScoreInput) (a : RawScores) (n : Nat) : Prop where
  raw : input.raw = .ok a
  shape : a.shape = [n, n]
  pos : 0 < n
  real : a.kind.mayBeReal = true

/-- The leaves are converted one after the other, up to a whole number beyond the doubles. -/
def ScoreInput.MeetsOverflow (input : ScoreInput) : Prop :=
  ∃ (before : List Value) (i : Int) (after : List Value),
    input.leaves = before ++ .int i :: after ∧ (∀ v ∈ before, ∃ x, v.toReal = .ok x) ∧
      overflow ≤ i.natAbs

theorem ScoreInput.MeetsOverflow.kind_eq {input : ScoreInput} {a : RawScores}
    (h : input.MeetsOverflow) (hraw : input.raw = .ok a) (hsound : input.Sound) :
    a.kind = .any := by
  obtain ⟨before, i, after, hsplit, -, hi⟩ := h
  have hmem : .int i ∈ input.leaves := by
    rw [hsplit]
    exact List.mem_append_right _ List.mem_cons_self
  exact input.kind_of_overflow hraw hsound hi hmem

/-- A square of values of any kind that meets a whole number beyond the doubles. -/
def ScoreInput.Overflows (input : ScoreInput) : Prop :=
  ∃ a n, input.IsSquare a n ∧ a.kind = .any ∧ input.MeetsOverflow

/-- The values are not arranged in a square. -/
def Refusal.isShape : Refusal → Bool
  | .irregular _ | .notFlat _ | .notSquare _ => true
  | _ => false

namespace Scores

/-! ## Checks one by one -/

theorem side_cases (shape : List Nat) : (∃ n, shape = [n, n] ∧ side shape = pure n) ∨
    ∃ why, why.isShape = true ∧ side shape = refuse why := by
  unfold side
  split
  · rename_i r c
    split
    · rename_i hrc
      exact .inl ⟨r, by rw [hrc], rfl⟩
    · exact .inr ⟨_, rfl, rfl⟩
  · exact .inr ⟨_, rfl, rfl⟩

theorem checkEntries_cases {n : Nat} (g : Grid Float n n) :
    checkEntries g = pure () ∨ ∃ why, checkEntries g = refuse why := by
  unfold checkEntries
  split
  · exact .inr ⟨_, rfl⟩
  · split
    · exact .inl rfl
    · exact .inr ⟨_, rfl⟩

theorem convert_cases (a : RawScores) :
    (∃ t, a.toReals = .ok t ∧ convert a = pure t) ∨ (∃ why, convert a = refuse why) ∨
      (a.toReals = .error .outOfRange ∧ convert a = .fail .outOfRange) := by
  unfold convert
  split
  · rename_i t ht
    exact .inl ⟨t, ht, rfl⟩
  · rename_i hrange
    exact .inr (.inr ⟨hrange, rfl⟩)
  · exact .inr (.inl ⟨_, rfl⟩)

/-! ## Validation -/

variable {input : ScoreInput} {a : RawScores} {n : Nat}

theorem validate_raw (hraw : input.raw = .ok a) : validate input = (do
    let n ← side a.shape
    if h : 0 < n then
      refuseIf (!a.kind.mayBeReal) (.notReal a.kind)
      let t ← convert a
      checkEntries (Grid.ofArray n n 0.0 t.cells)
      return ⟨n, h, Grid.ofArray n n 0.0 t.cells⟩
    else refuse .empty) := by
  unfold validate
  rw [hraw]

/-- Of a square, the values are converted and then looked at. -/
theorem validate_square (h : input.IsSquare a n) : validate input = (do
    let t ← convert a
    checkEntries (Grid.ofArray n n 0.0 t.cells)
    return ⟨n, h.pos, Grid.ofArray n n 0.0 t.cells⟩) := by
  have hside : side a.shape = pure n := by
    rw [h.shape]
    exact if_pos rfl
  have hkind : refuseIf (!a.kind.mayBeReal) (.notReal a.kind) = pure () := by
    rw [h.real]
    rfl
  rw [validate_raw h.raw, hside]
  show (if h : 0 < n then _ else _) = _
  rw [dif_pos h.pos, hkind]
  rfl

/-- What is no such square is refused. -/
theorem validate_cases (input : ScoreInput) :
    (∃ a n, input.IsSquare a n) ∨ ∃ why, validate input = refuse why := by
  cases hraw : input.raw with
  | error why =>
      right
      unfold validate
      rw [hraw]
      exact ⟨_, rfl⟩
  | ok a =>
      rw [validate_raw hraw]
      rcases side_cases a.shape with ⟨n, hshape, hside⟩ | ⟨why, -, hside⟩ <;> rw [hside]
      · by_cases hn : 0 < n
        · by_cases hreal : a.kind.mayBeReal = true
          · exact .inl ⟨a, n, hraw, hshape, hn, hreal⟩
          · right
            refine ⟨.notReal a.kind, ?_⟩
            show (if h : 0 < n then _ else _) = _
            rw [dif_pos hn, show refuseIf (!a.kind.mayBeReal) (.notReal a.kind) =
              refuse (.notReal a.kind) from if_pos (by simp [hreal])]
            rfl
        · right
          exact ⟨.empty, dif_neg hn⟩
      · exact .inr ⟨why, rfl⟩

theorem square_of_ok {scores : SquareGrid Float} (h : (validate input).result = .ok scores) :
    ∃ a t, input.IsSquare a scores.size ∧ a.toReals = .ok t ∧
      scores.grid = Grid.ofArray scores.size scores.size 0.0 t.cells := by
  rcases validate_cases input with ⟨a, n, hsquare⟩ | ⟨why, hrefuse⟩
  · rw [validate_square hsquare] at h
    obtain ⟨t, hconvert, h⟩ := Logged.bind_ok h
    obtain ⟨⟨⟩, -, h⟩ := Logged.bind_ok h
    cases h
    refine ⟨a, t, hsquare, ?_, rfl⟩
    rcases convert_cases a with ⟨u, hreals, hu⟩ | ⟨why, hwhy⟩ | ⟨-, hfail⟩
    · rw [hu] at hconvert
      cases hconvert
      exact hreals
    · rw [hwhy] at hconvert
      cases hconvert
    · rw [hfail] at hconvert
      cases hconvert
  · rw [hrefuse] at h
    cases h

/-- Validation ends in one of three ways, the last of them without a record. -/
theorem validate_ending (input : ScoreInput) :
    (∃ scores, validate input = ⟨[], .ok scores⟩) ∨ (∃ why, validate input = refuse why) ∨
      (validate input = ⟨[], .error .outOfRange⟩ ∧
        ∃ a n, input.IsSquare a n ∧ a.toReals = .error .outOfRange) := by
  rcases validate_cases input with ⟨a, n, hsquare⟩ | hrefuse
  -- of a square, the conversion or the entries may still fail
  · rw [validate_square hsquare]
    rcases convert_cases a with ⟨t, -, ht⟩ | ⟨why, hwhy⟩ | ⟨hreals, hfail⟩
    · rw [ht]
      rcases checkEntries_cases (Grid.ofArray n n 0.0 t.cells) with hpass | ⟨why, hwhy⟩
      · left
        refine ⟨⟨n, hsquare.pos, Grid.ofArray n n 0.0 t.cells⟩, ?_⟩
        show (checkEntries (Grid.ofArray n n 0.0 t.cells) >>= _) = _
        rw [hpass]
        rfl
      · right; left
        refine ⟨why, ?_⟩
        show (checkEntries (Grid.ofArray n n 0.0 t.cells) >>= _) = _
        rw [hwhy]
        rfl
    · rw [hwhy]
      exact .inr (.inl ⟨why, rfl⟩)
    · rw [hfail]
      exact .inr (.inr ⟨rfl, a, n, hsquare, hreals⟩)
  · exact .inr (.inl hrefuse)

theorem toReals_outOfRange_iff (hraw : input.raw = .ok a) (hsound : input.Sound)
    (hreal : a.kind.mayBeReal = true) :
    a.toReals = .error .outOfRange ↔ input.MeetsOverflow := by
  have hmap : a.toReals = .error .outOfRange ↔
      input.leaves.mapM Value.toReal = .error .outOfRange := by
    rw [← ScoreInput.mapM_toReal hraw hsound hreal]
    show (Except.map _ (a.cells.cells.toList.mapM a.kind.toReal)) = _ ↔ _
    cases a.cells.cells.toList.mapM a.kind.toReal <;> simp [Except.map]
  rw [hmap, mapM_error_iff]
  constructor
  · rintro ⟨before, v, after, hsplit, hbefore, hv⟩
    obtain ⟨i, rfl, hi⟩ := Value.toReal_outOfRange.1 hv
    exact ⟨before, i, after, hsplit, hbefore, hi⟩
  · rintro ⟨before, i, after, hsplit, hbefore, hi⟩
    exact ⟨before, _, after, hsplit, hbefore, Value.toReal_outOfRange.2 ⟨i, rfl, hi⟩⟩

theorem validate_outOfRange_iff (hsound : input.Sound) :
    validate input = ⟨[], .error .outOfRange⟩ ↔ input.Overflows := by
  constructor
  · intro h
    rcases validate_ending input with ⟨scores, hok⟩ | ⟨why, hwhy⟩ | ⟨-, a, n, hsquare, hreals⟩
    · rw [hok] at h
      cases h
    · rw [hwhy] at h
      cases h
    · have hmeets := (toReals_outOfRange_iff hsquare.raw hsound hsquare.real).1 hreals
      exact ⟨a, n, hsquare, hmeets.kind_eq hsquare.raw hsound, hmeets⟩
  · rintro ⟨a, n, hsquare, -, hmeets⟩
    have hreals := (toReals_outOfRange_iff hsquare.raw hsound hsquare.real).2 hmeets
    have hconvert : convert a = .fail .outOfRange := by
      unfold convert
      rw [hreals]
    rw [validate_square hsquare, hconvert]
    rfl

/-! ## Refusals and their records -/

theorem attempt_of_error (solver : Solver) (check : Option CancelCheck) {why : ScoreError}
    (h : (validate input).result = .error why) : solver.attempt check input =
      ⟨solver, ⟨(validate input).records, .error (.scores why)⟩, []⟩ := by
  unfold Solver.attempt
  simp only [h]

/-- Scores are accepted without a record, and then they are a proper square, or they are refused
with the record of the reason, unless a whole number beyond the doubles stops the conversion of a
square: that leaves no record.  Either way a solver keeps its state. -/
theorem every_refusal_is_recorded (input : ScoreInput) (hsound : input.Sound) :
    ((∃ scores a, validate input = ⟨[], .ok scores⟩ ∧ input.IsSquare a scores.size ∧
        scores.grid.Proper) ∨
      (∃ why : Refusal,
        validate input = ⟨[Record.error why.message], .error (.refused why)⟩) ∨
      validate input = ⟨[], .error .outOfRange⟩) ∧
    (validate input = ⟨[], .error .outOfRange⟩ ↔ input.Overflows) ∧
    ∀ (solver : Solver) (check : Option CancelCheck) (why : ScoreError),
      (validate input).result = .error why →
        solver.attempt check input =
          ⟨solver, ⟨(validate input).records, .error (.scores why)⟩, []⟩ := by
  refine ⟨?_, validate_outOfRange_iff hsound, fun solver check why => attempt_of_error solver check⟩
  rcases validate_ending input with ⟨scores, hok⟩ | ⟨why, hwhy⟩ | ⟨hfail, -⟩
  · have hresult : (validate input).result = .ok scores := by rw [hok]
    obtain ⟨a, t, hsquare, -, -⟩ := square_of_ok hresult
    exact .inl ⟨scores, a, hok, hsquare, validate_ok hresult⟩
  · exact .inr (.inl ⟨why, hwhy⟩)
  · exact .inr (.inr hfail)

/-- The matrix whose only score is an integer. -/
def loneScore (i : Int) : ScoreInput :=
  .nested (.list [.list [.int i]])

theorem loneScore_overflows {i : Int} (hi : overflow ≤ i.natAbs) : (loneScore i).Overflows := by
  have hkind : Kind.ofLeaves [.int i] = .any := Kind.ofLeaf_of_overflow hi
  have hraw : (loneScore i).raw = .ok ⟨Kind.ofLeaves [.int i], ⟨[1, 1], #[_]⟩⟩ :=
    RawScores.ofNested_lone rfl rfl
  rw [hkind] at hraw
  exact ⟨_, 1, ⟨hraw, rfl, Nat.one_pos, rfl⟩, rfl, [], i, [], rfl, nofun, hi⟩

theorem loneScore_sound (i : Int) : (loneScore i).Sound :=
  .nested _

theorem validate_loneScore {i : Int} (hi : overflow ≤ i.natAbs) :
    validate (loneScore i) = ⟨[], .error .outOfRange⟩ :=
  (validate_outOfRange_iff (loneScore_sound i)).2 (loneScore_overflows hi)

theorem overflow_le_ten_pow : overflow ≤ (10 ^ 309 : Int).natAbs := by
  unfold overflow
  decide +kernel

/-- A score of 310 digits is refused without a record, and with an error that is no refusal. -/
theorem huge_score_is_refused_without_record :
    ¬((∃ scores, validate (loneScore (10 ^ 309)) = ⟨[], .ok scores⟩) ∨ ∃ why : Refusal,
      validate (loneScore (10 ^ 309)) =
        ⟨[Record.error why.message], .error (.refused why)⟩) := by
  rw [validate_loneScore overflow_le_ten_pow]
  rintro (⟨scores, h⟩ | ⟨why, h⟩) <;> cases h

/-- A solver that is given this score ends with its error and keeps its state. -/
theorem solver_keeps_state_on_huge_score :
    (Solver.standard.attempt none (loneScore (10 ^ 309))).solver = Solver.standard ∧
      (Solver.standard.attempt none (loneScore (10 ^ 309))).answer =
        ⟨[], .error (.scores .outOfRange)⟩ := by
  have hvalidate := validate_loneScore overflow_le_ten_pow
  have hattempt := (every_refusal_is_recorded (loneScore (10 ^ 309)) (loneScore_sound _)).2.2
    Solver.standard none .outOfRange (congrArg Logged.result hvalidate)
  rw [hattempt, hvalidate]
  exact ⟨rfl, rfl⟩

end Scores
end OptimalAssignment
