import OptimalAssignment.Proofs.Binary.Doubles
import OptimalAssignment.Proofs.Reduction
import OptimalAssignment.Scores.Validation

/-!
# Proper scores

What validation lets through is finite and not negative, and its reduction is so too.
-/

namespace OptimalAssignment

open Binary

/-- All entries are finite and not negative. -/
def Grid.Proper {r c : Nat} (g : Grid Float r c) : Prop :=
  ∀ i j, 0 ≤ g.get i j ∧ (g.get i j).isFinite = true

theorem Binary.proper_sub {x y : Float} (hx : 0 ≤ x) (hy : 0 ≤ y) (hyx : y ≤ x)
    (hfin : x.isFinite = true) : 0 ≤ x - y ∧ (x - y).isFinite = true := by
  rw [isFinite_iff hx] at hfin
  have hfin' : y.isFinite = true := by
    rw [isFinite_iff hy]
    exact Nat.lt_of_le_of_lt ((le_iff_magnitude hy hx).1 hyx) hfin
  obtain ⟨hzero, hle⟩ := sub_le hx hy hyx hfin'
  refine ⟨hzero, ?_⟩
  rw [isFinite_iff hzero]
  exact Nat.lt_of_le_of_lt hle hfin

namespace Grid

variable {r c : Nat} {g : Grid Float r c}

theorem ordered_proper : Ordered Float fun x => 0 ≤ x ∧ x.isFinite = true :=
  ordered_unsigned.mono And.left

theorem Proper.orient (h : g.Proper) (direction : Direction) :
    (g.orient direction g.top).Proper :=
  forall_orient ordered_proper (fun hx hy hle => proper_sub hx.1 hy.1 hle hx.2) h direction

theorem Proper.lowerRows (h : g.Proper) : g.lowerRows.Proper :=
  forall_lowerRows ordered_proper (fun hx hy hle => proper_sub hx.1 hy.1 hle hx.2) h

theorem Proper.normalize (h : g.Proper) (direction : Direction) : (g.normalize direction).Proper :=
  forall_normalize ordered_proper (fun hx hy hle => proper_sub hx.1 hy.1 hle hx.2) h direction

end Grid

/-! ## Validation -/

namespace Logged

variable {ε α β : Type}

theorem bind_ok {x : Logged ε α} {f : α → Logged ε β} {b : β} (h : (x >>= f).result = .ok b) :
    ∃ a, x.result = .ok a ∧ (f a).result = .ok b := by
  have h : (Logged.bind x f).result = .ok b := h
  unfold Logged.bind at h
  split at h
  · cases h
  · rename_i a ha
    exact ⟨a, ha, h⟩

theorem bind_error {x : Logged ε α} {f : α → Logged ε β} {e : ε}
    (h : (x >>= f).result = .error e) :
    x.result = .error e ∨ ∃ a, x.result = .ok a ∧ (f a).result = .error e := by
  have h : (Logged.bind x f).result = .error e := h
  unfold Logged.bind at h
  split at h
  · rename_i e' hx
    cases h
    exact .inl hx
  · rename_i a ha
    exact .inr ⟨a, ha, h⟩

end Logged

namespace Scores

theorem checkEntries_ok {n : Nat} {g : Grid Float n n} (h : (checkEntries g).result = .ok ()) :
    g.Proper := by
  unfold checkEntries at h
  split at h
  · cases h
  · rename_i hfin
    have hfin : ∀ i j, (g.get i j).isFinite = true := by
      intro i j
      have hall : g.toList.all Float.isFinite = true := by simpa using hfin
      exact List.all_eq_true.1 hall _ (Grid.mem_toList.2 ⟨i, j, rfl⟩)
    split at h
    · rename_i hnone
      intro i j
      refine ⟨zero_le_of_not_lt (hfin i j) fun hneg => ?_, hfin i j⟩
      have hmem : (i, j) ∈ g.select (· < 0.0) := Grid.mem_select.2 (decide_eq_true hneg)
      rw [hnone] at hmem
      cases hmem
    · cases h

theorem validate_ok {input : ScoreInput} {scores : SquareGrid Float}
    (h : (validate input).result = .ok scores) : scores.grid.Proper := by
  unfold validate at h
  split at h
  · cases h
  · obtain ⟨n, -, h⟩ := Logged.bind_ok h
    split at h
    · obtain ⟨-, -, h⟩ := Logged.bind_ok h
      obtain ⟨t, -, h⟩ := Logged.bind_ok h
      obtain ⟨u, hcheck, h⟩ := Logged.bind_ok h
      cases h
      exact checkEntries_ok hcheck
    · cases h

end Scores
end OptimalAssignment
