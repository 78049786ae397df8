import OptimalAssignment.Proofs.Entries
import OptimalAssignment.Proofs.Hungarian.Flip
import OptimalAssignment.Proofs.Hungarian.Search
import OptimalAssignment.Proofs.Hungarian.Start

/-!
# What holds in each phase

`Sound` is kept by every advance, so it holds along every course of a solve, whatever the entries
and their arithmetic are.
-/

namespace OptimalAssignment.Hungarian

variable {α : Type} {n : Nat}

section Phases

variable [LE α] [DecidableLE α]

def Sound : Phase n → State α n → Prop
  | .start, s => s.Seeded
  | .test, s => s.Settled
  | .search, s => s.Balanced none ∧ s.starCount < n
  | .flip x, s => s.Balanced (some x) ∧ s.starCount < n
  | .adjust, s => s.Balanced none ∧ s.starCount < n ∧ s.openZero? = none
  | .done, s => s.Settled ∧ s.starCount = n

namespace State

theorem leastOpen?_mem {s : State α n} {a : α} (h : s.leastOpen? = some a) :
    ∃ i j, ¬s.RowCovered i ∧ ¬s.ColCovered j ∧ s.working.get i j = a := by
  obtain ⟨x, hx, ha⟩ := List.mem_map.1 (leastOf?_mem h)
  exact ⟨x.1, x.2, (mem_openCells.1 hx).1, (mem_openCells.1 hx).2, ha⟩

theorem exists_leastOpen {s : State α n} {c : Option (Cell n n)} (h : s.Balanced c)
    (hn : s.starCount < n) : ∃ a, s.leastOpen? = some a := by
  obtain ⟨i, j, hi, hj⟩ := h.exists_open hn
  exact leastOf?_isSome (List.mem_map_of_mem (mem_openCells.2 ⟨hi, hj⟩ : (i, j) ∈ s.openCells))

theorem leastOpen?_le {p : α → Prop} (hp : Ordered α p) {s : State α n}
    (hs : ∀ i j, p (s.working.get i j)) {a : α} (h : s.leastOpen? = some a) {i j : Fin n}
    (hi : ¬s.RowCovered i) (hj : ¬s.ColCovered j) : a ≤ s.working.get i j := by
  apply leastOf?_le hp _ h
  · exact List.mem_map_of_mem (mem_openCells.2 ⟨hi, hj⟩ : (i, j) ∈ s.openCells)
  · intro b hb
    obtain ⟨x, -, rfl⟩ := List.mem_map.1 hb
    exact hs x.1 x.2

omit [LE α] [DecidableLE α] in
theorem get_shift [Add α] [Sub α] (s : State α n) (a : α) (i j : Fin n) :
    (s.shift a).get i j =
      if s.RowCovered i then
        if s.ColCovered j then s.working.get i j + a else s.working.get i j
      else
        if s.ColCovered j then s.working.get i j + a - a else s.working.get i j - a := by
  unfold shift
  rw [Grid.get_ofFn]
  simp only []
  split <;> split <;> rfl

end State

variable [Add α] [Sub α]

theorem Advance.sound {p q : Phase n} {s t : State α n} (h : Advance p s q t) (hs : Sound p s) :
    Sound q t := by
  cases h with
  | start => exact (State.settled_start hs).congr rfl rfl rfl
  | finish h =>
      have hall := hs.starCount_eq_iff.2 (State.allCovered_iff.1 h)
      exact ⟨hs.congr rfl rfl rfl, hall⟩
  | resume h =>
      -- a column without a star is what the test has found
      have hne : s.starCount ≠ n := fun e => h (State.allCovered_iff.2 (hs.starCount_eq_iff.1 e))
      have hle : s.starCount ≤ n := hs.balanced.starCount_le
      exact ⟨hs.balanced.congr rfl rfl rfl, Nat.lt_of_le_of_ne hle hne⟩
  | exhausted h => exact ⟨hs.1.congr rfl rfl rfl, hs.2, h⟩
  | found h hi =>
      obtain ⟨-, hr, hc⟩ := State.openZero?_some h
      have hcount := hs.1.starCount_primed hr hc
      exact ⟨(hs.1.primed hr hc hi).congr rfl rfl rfl, lt_of_eq_of_lt hcount hs.2⟩
  | covered h hi =>
      obtain ⟨-, hr, hc⟩ := State.openZero?_some h
      have hcount := hs.1.starCount_primed hr hc
      exact ⟨(hs.1.moved hr hc hi).congr rfl rfl rfl, lt_of_eq_of_lt hcount hs.2⟩
  | flip => exact hs.1.settled_flip.congr rfl rfl rfl
  | adjust => exact ⟨hs.1.congr rfl rfl rfl, hs.2.1⟩

/-- Every turn is counted, none changes the tolerance, and only an adjustment changes entries. -/
theorem Advance.frame {p q : Phase n} {s t : State α n} (h : Advance p s q t) :
    t.transitions = s.transitions + 1 ∧ t.tolerance = s.tolerance ∧
      (p ≠ .adjust → t.working = s.working ∧ t.adjustments = s.adjustments) := by
  cases h with
  | start =>
      show s.start.state.transitions + 1 = _ ∧ s.start.state.tolerance = _ ∧
        (_ → s.start.state.working = _ ∧ s.start.state.adjustments = _)
      rw [s.sameEntries_start]
      exact ⟨rfl, rfl, fun _ => ⟨rfl, rfl⟩⟩
  | adjust => exact ⟨rfl, rfl, fun hne => absurd rfl hne⟩
  | _ => exact ⟨rfl, rfl, fun _ => ⟨rfl, rfl⟩⟩

theorem Advance.ne_start {p q : Phase n} {s t : State α n} (h : Advance p s q t) : q ≠ .start := by
  cases h <;> simp

/-- After the start a starred column stays starred. -/
theorem Advance.starred_col {p q : Phase n} {s t : State α n} (h : Advance p s q t)
    (hs : Sound p s) (hp : p ≠ .start) {i j : Fin n} (hstar : s.StarAt i j) :
    ∃ k, t.StarAt k j := by
  cases h with
  | start => exact absurd rfl hp
  | found h hi =>
      obtain ⟨-, hr, hc⟩ := State.openZero?_some h
      exact ⟨i, (hs.1.starAt_primed hr hc).2 hstar⟩
  | covered h hi =>
      obtain ⟨-, hr, hc⟩ := State.openZero?_some h
      exact ⟨i, (hs.1.starAt_primed hr hc).2 hstar⟩
  | flip => exact hs.1.starred_col_flip hstar
  | _ => exact ⟨i, hstar⟩

/-- After the start a starred row stays starred. -/
theorem Advance.starred_row {p q : Phase n} {s t : State α n} (h : Advance p s q t)
    (hs : Sound p s) (hp : p ≠ .start) {i j : Fin n} (hstar : s.StarAt i j) :
    ∃ l, t.StarAt i l := by
  cases h with
  | start => exact absurd rfl hp
  | found h hi =>
      obtain ⟨-, hr, hc⟩ := State.openZero?_some h
      exact ⟨j, (hs.1.starAt_primed hr hc).2 hstar⟩
  | covered h hi =>
      obtain ⟨-, hr, hc⟩ := State.openZero?_some h
      exact ⟨j, (hs.1.starAt_primed hr hc).2 hstar⟩
  | flip => exact hs.1.starred_row_flip hstar
  | _ => exact ⟨j, hstar⟩

theorem Course.tolerance {patience : Option Nat} {trace : Bool} {first r : Run α n}
    {past : List (Taken α n)} (h : Course patience trace first past r) :
    r.state.tolerance = first.state.tolerance := by
  induction h with
  | here => rfl
  | turn _ hs ih => rw [(Run.advance_of_turn hs).frame.2.1, ih]

theorem Course.sound {patience : Option Nat} {trace : Bool} {first r : Run α n}
    {past : List (Taken α n)} (h : Course patience trace first past r)
    (h₀ : Sound first.phase first.state) : Sound r.phase r.state := by
  induction h with
  | here => exact h₀
  | turn _ hs ih => exact (Run.advance_of_turn hs).sound ih

/-- No turn of a sound run fails. -/
theorem Run.turn_ends_sound {patience : Option Nat} {trace : Bool} {r s : Run α n} {how : Ending}
    (hr : Sound r.phase r.state) (h : r.turn patience trace = .ends how s) :
    (how = .finished ∧ r.phase = .done ∧ s = r) ∨ (how = .cancelled ∧ patience = some r.polls) := by
  rcases Run.turn_ends h with hfin | hcan | ⟨x, line, -, hp, hline⟩ | ⟨-, hp, hnone⟩
  · exact .inl hfin
  · exact .inr hcan
  · -- no line holds two stars after a flip
    rw [hp] at hr
    rw [hr.1.settled_flip.crowded?_eq_none] at hline
    cases hline
  · -- and while a star is missing there is an entry to adjust by
    rw [hp] at hr
    obtain ⟨a, ha⟩ := State.exists_leastOpen hr.1 hr.2.1
    rw [ha] at hnone
    cases hnone

theorem Run.play_not_failed {first : Run α n} (h₀ : Sound first.phase first.state)
    (patience : Option Nat) (trace : Bool) (turns : Nat) (why : Fault) :
    (first.play patience trace turns).1 ≠ .failed why := by
  intro hfailed
  rcases Course.play_course turns (.here : Course patience trace first [] first) rfl with
    ⟨hhow, -⟩ | ⟨past, r, h, hends⟩
  · rw [hfailed] at hhow
    cases hhow
  · rw [hfailed] at hends
    rcases Run.turn_ends_sound (h.sound h₀) hends with ⟨hhow, -⟩ | ⟨hhow, -⟩ <;> cases hhow

end Phases
end OptimalAssignment.Hungarian
