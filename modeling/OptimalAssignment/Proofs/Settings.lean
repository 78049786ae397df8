import OptimalAssignment.Proofs.Binary.Order
import OptimalAssignment.Proofs.Scores.Inputs
import OptimalAssignment.Proofs.Scores.Proper
import OptimalAssignment.Settings

/-!
# Settings that make a solver

Settings are checked whenever they are given, so the direction is always the word of a direction and
the tolerance is at least zero.  A solver is made from them unless the tolerance is infinite, which
the check of the settings lets through and the solver does not.  The other way round, what a solver
takes passes every check.
-/

namespace OptimalAssignment

open Binary

/-! ## Numbers -/

namespace Binary

/-- What is at least zero and not finite is the infinity above. -/
theorem exact_of_not_finite {x : Float} (hx : 0 ≤ x) (hfin : x.isFinite = false) :
    exact x = .infinite false := by
  have hlimit : ¬magnitude x < limit := by
    rw [← isFinite_iff hx, hfin]
    exact Bool.false_ne_true
  rw [exact_eq_ofUnpacked]
  unfold magnitude at hlimit
  rcases unsigned_cases hx with h | ⟨s, h⟩ | ⟨m, e, hm, h, -, hlt⟩ <;> rw [h] at hlimit ⊢
  · rfl
  · exact absurd limit_pos hlimit
  · exact absurd hlt hlimit

end Binary

namespace Solver

theorem ofNested_real (x : Float) :
    RawScores.ofNested (.real x) = .ok ⟨.real 64, ⟨[], #[.real x]⟩⟩ :=
  RawScores.ofNested_lone (Nesting.spread_leaf rfl) rfl

theorem isFinite_real (x : Float) : isFinite (.real x) = .ok x.isFinite := by
  unfold isFinite
  rw [ofNested_real]

theorem readTolerance_real (x : Float) : readTolerance (.real x) =
    if x.isFinite = true ∧ ¬x < 0.0 then pure x else refuseTolerance (.real x) := by
  unfold readTolerance
  rw [isFinite_real]
  cases hfin : x.isFinite with
  | false => simp
  | true =>
      show (if x < 0.0 then refuseTolerance (.real x) else pure x) = _
      by_cases hneg : x < 0.0 <;> simp [hneg]

end Solver

namespace Settings

/-! ## Checked settings -/

/-- Settings that have been created and then changed, every time with values that pass. -/
inductive Checked : Settings → Prop where
  | created {given : List (String × Value)} {s : Settings} :
      (create given).result = .ok s → Checked s
  | changed {s t : Settings} {name : String} {v : Value} :
      Checked s → (s.set name v).result = .ok t → Checked t

structure Valid (s : Settings) : Prop where
  direction : isDirection s.scoreDirection = true
  tolerance : isAtLeastZero? s.zeroTolerance = some true

theorem check_direction_ok {v : Value} (h : (check .scoreDirection v).result = .ok ()) :
    isDirection v = true := by
  by_contra hno
  have hcheck : check .scoreDirection v =
      .refuse (SettingsError.directionMessage v) (.badDirection v) := if_neg hno
  rw [hcheck] at h
  cases h

theorem check_zeroTolerance (v : Value) : check .zeroTolerance v =
    match isAtLeastZero? v with
    | some true => pure ()
    | some false => .fail (.badTolerance v)
    | none => .fail .incomparable :=
  rfl

theorem check_tolerance_ok {v : Value} (h : (check .zeroTolerance v).result = .ok ()) :
    isAtLeastZero? v = some true := by
  rw [check_zeroTolerance] at h
  split at h
  · assumption
  · cases h
  · cases h

theorem Checked.valid {s : Settings} (h : s.Checked) : s.Valid := by
  induction h with
  | @created given s h =>
      unfold create at h
      split at h
      · cases h
      · obtain ⟨u, hall, h⟩ := Logged.bind_ok h
        obtain ⟨⟨⟩, hdirection, htolerance⟩ := Logged.bind_ok hall
        cases h
        exact ⟨check_direction_ok hdirection, check_tolerance_ok htolerance⟩
  | @changed s t name v _ h ih =>
      unfold set at h
      split at h
      · cases h
      · rename_i f _
        obtain ⟨⟨⟩, hcheck, h⟩ := Logged.bind_ok h
        cases h
        -- the new value has passed its own check, the others keep theirs
        cases f with
        | scoreDirection => exact ⟨check_direction_ok hcheck, ih.tolerance⟩
        | zeroTolerance => exact ⟨ih.direction, check_tolerance_ok hcheck⟩
        | trace => exact ⟨ih.direction, ih.tolerance⟩
        | version => exact ⟨ih.direction, ih.tolerance⟩

theorem exists_word_of_isDirection {w : String} (h : isDirection (.text w) = true) :
    ∃ d : Direction, d.word = w := by
  obtain ⟨d, -, hd⟩ := List.any_eq_true.1 h
  have hsame : (w == d.word) = true := hd
  exact ⟨d, (eq_of_beq hsame).symm⟩

theorem isDirection_word (d : Direction) : isDirection (.text d.word) = true := by
  cases d <;> rfl

theorem zero_le_of_isAtLeastZero {x : Float} (h : isAtLeastZero? (.real x) = some true) : 0 ≤ x :=
  of_decide_eq_true (Option.some.inj h)

theorem isAtLeastZero_of_zero_le {x : Float} (h : 0 ≤ x) : isAtLeastZero? (.real x) = some true :=
  congrArg some (decide_eq_true h)

theorem check_direction_word (d : Direction) : check .scoreDirection (.text d.word) = pure () :=
  if_pos (isDirection_word d)

theorem check_tolerance_real {x : Float} (h : 0 ≤ x) :
    check .zeroTolerance (.real x) = pure () := by
  rw [check_zeroTolerance, isAtLeastZero_of_zero_le h]

/-! ## Solvers from settings -/

theorem create_solver (d : Direction) (x : Float) (trace : Value) :
    Solver.create (.text d.word) (.real x) trace =
      if x.isFinite = true ∧ ¬x < 0.0 then ⟨[], .ok ⟨d, x, trace.isTrue, none⟩⟩
      else .refuse (Solver.toleranceMessage (.real x)) (.badTolerance (.real x)) := by
  have hread : Direction.read (.text d.word) = pure d := by
    unfold Direction.read
    rw [Direction.ofValue_word]
  unfold Solver.create
  rw [hread, Solver.readTolerance_real]
  split <;> rfl

/-- A solver has taken a tolerance that is at least zero, whatever the direction. -/
theorem zero_le_of_create {given trace : Value} {x : Float} {solver : Solver}
    (h : (Solver.create given (.real x) trace).result = .ok solver) : 0 ≤ x := by
  obtain ⟨d, -, h⟩ := Logged.bind_ok h
  obtain ⟨y, htolerance, -⟩ := Logged.bind_ok h
  rw [Solver.readTolerance_real] at htolerance
  split at htolerance
  · rename_i hx
    exact zero_le_of_not_lt hx.1 hx.2
  · cases htolerance

theorem create_given {d : Direction} {x : Float} (trace : Value) (h : 0 ≤ x) :
    create [(Setting.scoreDirection.name, .text d.word), (Setting.zeroTolerance.name, .real x),
      (Setting.trace.name, trace)] =
        ⟨[], .ok ⟨.text d.word, .real x, trace, standard.version⟩⟩ := by
  have hall : checkAll ⟨.text d.word, .real x, trace, standard.version⟩ = pure () := by
    unfold checkAll
    rw [check_direction_word, check_tolerance_real h]
    rfl
  show (do
    checkAll ⟨.text d.word, .real x, trace, standard.version⟩
    return (⟨.text d.word, .real x, trace, standard.version⟩ : Settings)) = _
  rw [hall]
  rfl

theorem set_direction_word (s : Settings) (d : Direction) :
    s.set Setting.scoreDirection.name (.text d.word) =
      ⟨[], .ok { s with scoreDirection := .text d.word }⟩ := by
  unfold set
  rw [Setting.ofName?_name]
  simp only [check_direction_word]
  rfl

theorem set_tolerance_real (s : Settings) {x : Float} (h : 0 ≤ x) :
    s.set Setting.zeroTolerance.name (.real x) =
      ⟨[], .ok { s with zeroTolerance := .real x }⟩ := by
  unfold set
  rw [Setting.ofName?_name]
  simp only [check_tolerance_real h]
  rfl

/-- Checked settings of the declared types make the solver they describe, unless their tolerance is
infinite: that passes the check of the settings and is refused by the solver.  A tolerance that
a solver takes is taken by the settings as well, and so are the words of both directions. -/
theorem every_checked_setting_suits_the_solver (x : Float) :
    (∀ (w : String) (trace : Bool) (version : Value),
      Checked ⟨.text w, .real x, .bool trace, version⟩ →
        ∃ d : Direction, Direction.ofValue (.text w) = .ok d ∧ d.word = w ∧ 0 ≤ x ∧
          (x.isFinite = true →
            toSolver ⟨.text w, .real x, .bool trace, version⟩ = ⟨[], .ok ⟨d, x, trace, none⟩⟩) ∧
          (x.isFinite = false → exact x = .infinite false ∧
            toSolver ⟨.text w, .real x, .bool trace, version⟩ =
              .refuse (Solver.toleranceMessage (.real x)) (.badTolerance (.real x)))) ∧
    ∀ (given trace : Value) (solver : Solver),
      (Solver.create given (.real x) trace).result = .ok solver → ∀ d : Direction,
        create [(Setting.scoreDirection.name, .text d.word), (Setting.zeroTolerance.name, .real x),
          (Setting.trace.name, trace)] =
            ⟨[], .ok ⟨.text d.word, .real x, trace, standard.version⟩⟩ ∧
        ∀ s : Settings,
          s.set Setting.scoreDirection.name (.text d.word) =
            ⟨[], .ok { s with scoreDirection := .text d.word }⟩ ∧
          s.set Setting.zeroTolerance.name (.real x) =
            ⟨[], .ok { s with zeroTolerance := .real x }⟩ := by
  constructor
  · intro w trace version hchecked
    have hvalid := hchecked.valid
    obtain ⟨d, rfl⟩ := exists_word_of_isDirection hvalid.direction
    have hx : 0 ≤ x := zero_le_of_isAtLeastZero hvalid.tolerance
    have hsolver := create_solver d x (.bool trace)
    refine ⟨d, Direction.ofValue_word d, rfl, hx, fun hfin => ?_, fun hfin => ?_⟩
    -- the solver asks for what the settings have checked, and for a finite number
    · rw [if_pos ⟨hfin, not_lt_zero hx⟩] at hsolver
      exact hsolver
    · rw [if_neg fun h => Bool.false_ne_true (hfin.symm.trans h.1)] at hsolver
      exact ⟨exact_of_not_finite hx hfin, hsolver⟩
  · intro given trace solver hsolver d
    have hzero := zero_le_of_create hsolver
    exact ⟨create_given trace hzero, fun s =>
      ⟨set_direction_word s d, set_tolerance_real s hzero⟩⟩

/-- Settings with an infinite tolerance are checked and make no solver. -/
theorem infinite_tolerance_is_checked_and_refused :
    Checked ⟨.text "minimize", .real (infinity false), .bool false, .text "0.1.0"⟩ ∧
      ∀ solver, (toSolver ⟨.text "minimize", .real (infinity false), .bool false,
        .text "0.1.0"⟩).result ≠ .ok solver := by
  constructor
  · have hgiven := create_given (d := .minimize) (x := infinity false) (.bool false) (by decide)
    exact .created (congrArg Logged.result hgiven)
  · intro solver h
    have hsolver := create_solver .minimize (infinity false) (.bool false)
    rw [if_neg (fun hx => absurd hx.1 (by decide))] at hsolver
    have h : (Solver.create (.text Direction.minimize.word) (.real (infinity false))
      (.bool false)).result = .ok solver := h
    rw [hsolver] at h
    cases h

/-- Settings that are created and then changed, the solver they make, and the settings that this
solver allows. -/
theorem changed_settings_make_their_solver :
    toSolver ⟨.text "maximize", .real 0.5, .bool false, .text "0.1.0"⟩ =
      ⟨[], .ok ⟨.maximize, 0.5, false, none⟩⟩ ∧
    (create [(Setting.scoreDirection.name, .text "maximize"),
      (Setting.zeroTolerance.name, .real 0.5), (Setting.trace.name, .bool false)]).result =
        .ok ⟨.text "maximize", .real 0.5, .bool false, .text "0.1.0"⟩ := by
  have hcreated : Checked standard := @Checked.created [] standard rfl
  have hturned : Checked { standard with scoreDirection := .text "maximize" } :=
    .changed hcreated (congrArg Logged.result (set_direction_word standard .maximize))
  have hchanged : Checked ⟨.text "maximize", .real 0.5, .bool false, .text "0.1.0"⟩ :=
    .changed hturned (congrArg Logged.result (set_tolerance_real _ (by decide)))
  obtain ⟨d, -, hd, -, hsolver, -⟩ :=
    (every_checked_setting_suits_the_solver 0.5).1 "maximize" false (.text "0.1.0") hchanged
  obtain rfl : d = .maximize := by
    cases d
    · exact absurd hd (by decide)
    · rfl
  have hmade := hsolver (by decide)
  have hback := (every_checked_setting_suits_the_solver 0.5).2 (.text "maximize") (.bool false)
    ⟨.maximize, 0.5, false, none⟩ (congrArg Logged.result hmade) .maximize
  exact ⟨hmade, congrArg Logged.result hback.1⟩

end Settings
end OptimalAssignment
