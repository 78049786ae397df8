import Mathlib
import OptimalAssignment.Proofs.Entries

/-!
# Rounding of doubles

A finite double is a whole number of units, the least positive double being one unit.  Rounding takes
a whole number of units to a double that no other double separates from it: what is a double already
stays as it is, and rounding is monotone where one of the two sides is a double.
-/

namespace OptimalAssignment.Binary

open Float.Model (UnpackedFloat totalExponent)
open Float.Model.UnpackedFloat

/-! ## Canonical mantissas -/

/-- A mantissa and an exponent of the format, apart from its greatest exponent. -/
structure Canonical (m : Nat) (e : Int) : Prop where
  lt : m < 2 ^ 53
  low : -1074 ≤ e
  normal : 2 ^ 52 ≤ m ∨ e = -1074

/-- `m * 2 ^ e` counted in units of `2 ^ (-1074)`. -/
def units (m : Nat) (e : Int) : Nat :=
  m * 2 ^ (e + 1074).toNat

theorem units_add (m k : Nat) (e : Int) : units m e + units k e = units (m + k) e :=
  (Nat.add_mul _ _ _).symm

theorem units_sub (m k : Nat) (e : Int) : units m e - units k e = units (m - k) e :=
  (Nat.sub_mul _ _ _).symm

theorem units_eq_mul {m : Nat} {e f : Int} (hf : -1074 ≤ f) (h : f ≤ e) :
    units m e = m * 2 ^ (e - f).toNat * 2 ^ (f + 1074).toNat := by
  unfold units
  rw [show (e + 1074).toNat = (e - f).toNat + (f + 1074).toNat by omega, Nat.pow_add, Nat.mul_assoc]

/-- Below the exponent of a normal mantissa there are only smaller numbers. -/
theorem units_lt_of_exponent_lt {m : Nat} {e f : Int} (h : Canonical m e) (hf : e < f) :
    units m e < 2 ^ 52 * 2 ^ (f + 1074).toNat := by
  have he := h.low
  have hm : units m e < 2 ^ 53 * 2 ^ (e + 1074).toNat :=
    Nat.mul_lt_mul_of_pos_right h.lt (Nat.two_pow_pos _)
  have hpow : 2 ^ 53 * 2 ^ (e + 1074).toNat ≤ 2 ^ 52 * 2 ^ (f + 1074).toNat := by
    rw [← Nat.pow_add, ← Nat.pow_add]
    exact Nat.pow_le_pow_right (by decide) (by omega)
  exact Nat.lt_of_lt_of_le hm hpow

theorem units_lt_units {m k : Nat} {e f : Int} (h : Canonical m e) (h' : Canonical k f)
    (hf : e < f) :
    units m e < units k f := by
  have hk : 2 ^ 52 ≤ k := h'.normal.resolve_right (by have := h.low; omega)
  exact Nat.lt_of_lt_of_le (units_lt_of_exponent_lt h hf) (Nat.mul_le_mul_right _ hk)

/-! ## Shifts -/

theorem mantissa_shiftRight (em : ExtendedMantissa) (k : Nat) :
    (em >>> k).mantissa = em.mantissa / 2 ^ k := by
  induction k with
  | zero => simp [HShiftRight.hShiftRight, Nat.repeat]
  | succ k ih =>
      show (em >>> k).mantissa / 2 = _
      rw [ih, Nat.div_div_eq_div_mul, Nat.pow_succ]

/-- Nothing is lost if the bits that are dropped are zero. -/
theorem shiftRight_exact {m k : Nat} (h : 2 ^ k ∣ m) :
    (ExtendedMantissa.mk m false false) >>> k = ⟨m / 2 ^ k, false, false⟩ := by
  induction k with
  | zero => simp [HShiftRight.hShiftRight, Nat.repeat]
  | succ k ih =>
      have hk : 2 ^ k ∣ m := Nat.dvd_trans (Nat.pow_dvd_pow 2 (Nat.le_succ k)) h
      have hbit : m / 2 ^ k % 2 = 0 := by
        obtain ⟨c, rfl⟩ := h
        rw [Nat.pow_succ, Nat.mul_assoc, Nat.mul_div_cancel_left _ (Nat.two_pow_pos k),
          Nat.mul_mod_right]
      show ExtendedMantissa.shiftRightOne ((ExtendedMantissa.mk m false false) >>> k) = _
      rw [ih hk]
      simp [ExtendedMantissa.shiftRightOne, hbit, Nat.div_div_eq_div_mul, Nat.pow_succ]

theorem roundedMantissa_bounds (em : ExtendedMantissa) :
    em.mantissa ≤ em.roundedMantissa ∧ em.roundedMantissa ≤ em.mantissa + 1 := by
  show em.mantissa ≤ em.accuracy.roundToNearestEven em.mantissa ∧
    em.accuracy.roundToNearestEven em.mantissa ≤ em.mantissa + 1
  have hmod : em.mantissa % 2 < 2 := Nat.mod_lt _ (by decide)
  cases em.accuracy with
  | exact => exact ⟨Nat.le_refl _, Nat.le_succ _⟩
  | inexact side =>
      cases side with
      | lt => exact ⟨Nat.le_refl _, Nat.le_succ _⟩
      -- a tie goes to the even mantissa
      | eq =>
          show _ ≤ em.mantissa + em.mantissa % 2 ∧ em.mantissa + em.mantissa % 2 ≤ _
          omega
      | gt => exact ⟨Nat.le_succ _, Nat.le_refl _⟩

/-- By how many bits a mantissa is too long. -/
def excess (m : Nat) (e : Int) : Nat :=
  (max (m.log2 + 1 + e - 53) (-1074) - e).toNat

theorem shiftToTargetExponent_eq (m : Nat) (e : Int) :
    shiftToTargetExponent .binary64 m e .exact =
      ((ExtendedMantissa.mk m false false) >>> excess m e, e + excess m e) :=
  rfl

theorem shiftToTargetExponent_small {m : Nat} {e : Int} (hm : m < 2 ^ 53) (he : -1074 ≤ e) :
    shiftToTargetExponent .binary64 m e .exact = (⟨m, false, false⟩, e) := by
  have hlog : m.log2 ≤ 52 := by
    by_cases h : m = 0
    · rw [h]
      decide
    · exact Nat.le_of_lt_succ ((Nat.log2_lt h).2 hm)
  have hshift : excess m e = 0 := by
    unfold excess
    omega
  rw [shiftToTargetExponent_eq, hshift, shiftRight_exact (Nat.one_dvd m)]
  simp

theorem shiftToTargetExponent_carry {e : Int} (he : -1074 ≤ e) :
    shiftToTargetExponent .binary64 (2 ^ 53) e .exact = (⟨2 ^ 52, false, false⟩, e + 1) := by
  have hshift : excess (2 ^ 53) e = 1 := by
    unfold excess
    rw [Nat.log2_two_pow]
    omega
  rw [shiftToTargetExponent_eq, hshift, shiftRight_exact (by decide)]
  rfl

/-! ## Rounding -/

/-- No double lies between the two, unless it is one of them. -/
structure Rounds (exact rounded : Nat) : Prop where
  le_rounded : ∀ {m e}, Canonical m e → units m e ≤ exact → units m e ≤ rounded
  rounded_le : ∀ {m e}, Canonical m e → exact ≤ units m e → rounded ≤ units m e

theorem rounds_of_bracket {v q r : Nat} {t : Int} (ht : -1074 ≤ t)
    (hlow : q * 2 ^ (t + 1074).toNat ≤ v) (hhigh : v < (q + 1) * 2 ^ (t + 1074).toNat)
    (hq : 2 ^ 52 ≤ q ∨ t = -1074) (hr : q ≤ r) (hr' : r ≤ q + 1)
    (hexact : q * 2 ^ (t + 1074).toNat = v → r = q) : Rounds v (r * 2 ^ (t + 1074).toNat) := by
  -- a double that is no multiple of the last place stands below all of the bracket
  have hsmall : ∀ {m e}, Canonical m e → e < t → units m e < q * 2 ^ (t + 1074).toNat := by
    intro m e h he
    have hnormal : 2 ^ 52 ≤ q := hq.resolve_right (by have := h.low; omega)
    exact Nat.lt_of_lt_of_le (units_lt_of_exponent_lt h he) (Nat.mul_le_mul_right _ hnormal)
  have hmono : q * 2 ^ (t + 1074).toNat ≤ r * 2 ^ (t + 1074).toNat := Nat.mul_le_mul_right _ hr
  constructor
  · intro m e h hle
    by_cases he : t ≤ e
    · rw [units_eq_mul ht he] at hle ⊢
      have hlt : m * 2 ^ (e - t).toNat < q + 1 :=
        Nat.lt_of_mul_lt_mul_right (Nat.lt_of_le_of_lt hle hhigh)
      exact Nat.mul_le_mul_right _ (by omega)
    · have := hsmall h (by omega)
      omega
  · intro m e h hle
    by_cases he : t ≤ e
    · rw [units_eq_mul ht he] at hle ⊢
      by_cases hv : q * 2 ^ (t + 1074).toNat = v
      · rw [hexact hv, hv]
        exact hle
      · have hlt : q < m * 2 ^ (e - t).toNat :=
          Nat.lt_of_mul_lt_mul_right (a := 2 ^ (t + 1074).toNat) (by omega)
        exact Nat.mul_le_mul_right _ (by omega)
    · have := hsmall h (by omega)
      omega

/-- A finite result in canonical form; its exponent may be beyond the format. -/
structure RoundsTo (v : Nat) (s : Sign) (f : UnpackedFloat) (m : Nat) (e : Int) : Prop where
  eq : ∃ h, f = .finite s m e h
  canonical : Canonical m e
  rounds : Rounds v (units m e)

/-- What the carry makes of a rounded mantissa. -/
theorem finish_rounding {v r : Nat} {t : Int} (s : Sign) (ht : -1074 ≤ t) (hpos : 0 < r)
    (hr : r ≤ 2 ^ 53) (hnormal : 2 ^ 52 ≤ r ∨ t = -1074)
    (hrounds : Rounds v (r * 2 ^ (t + 1074).toNat)) :
    ∃ m e h, shiftToTargetExponent .binary64 r t .exact = (⟨m, false, false⟩, e) ∧
      RoundsTo v s (.finite s m e h) m e := by
  rcases Nat.lt_or_eq_of_le hr with hlt | rfl
  · exact ⟨r, t, hpos, shiftToTargetExponent_small hlt ht, ⟨hpos, rfl⟩, ⟨hlt, ht, hnormal⟩, hrounds⟩
  · have hunits : units (2 ^ 52) (t + 1) = 2 ^ 53 * 2 ^ (t + 1074).toNat := by
      unfold units
      rw [← Nat.pow_add, ← Nat.pow_add]
      congr 1
      omega
    refine ⟨2 ^ 52, t + 1, Nat.two_pow_pos 52, shiftToTargetExponent_carry ht, ⟨_, rfl⟩,
      ⟨by decide, by omega, .inl (Nat.le_refl _)⟩, ?_⟩
    rw [hunits]
    exact hrounds

/-- Dropping bits and rounding what is left of a mantissa rounds the number. -/
theorem rounds_shifted {m k : Nat} {e : Int} (he : -1074 ≤ e)
    (hq : 2 ^ 52 ≤ m / 2 ^ k ∨ e + (k : Int) = -1074) :
    Rounds (units m e) (((ExtendedMantissa.mk m false false) >>> k).roundedMantissa *
      2 ^ (e + (k : Int) + 1074).toNat) := by
  have hpow : 2 ^ (e + (k : Int) + 1074).toNat = 2 ^ k * 2 ^ (e + 1074).toNat := by
    rw [← Nat.pow_add]
    congr 1
    omega
  have hfloor : ((ExtendedMantissa.mk m false false) >>> k).mantissa = m / 2 ^ k :=
    mantissa_shiftRight _ k
  have hbounds := roundedMantissa_bounds ((ExtendedMantissa.mk m false false) >>> k)
  rw [hfloor] at hbounds
  apply rounds_of_bracket (by omega) _ _ hq hbounds.1 hbounds.2
  -- an exact quotient drops nothing but zeros
  · intro hv
    rw [hpow, ← Nat.mul_assoc] at hv
    have hdvd : 2 ^ k ∣ m :=
      ⟨m / 2 ^ k, by rw [Nat.mul_comm, Nat.mul_right_cancel (Nat.two_pow_pos _) hv]⟩
    rw [shiftRight_exact hdvd]
    rfl
  · rw [hpow, ← Nat.mul_assoc]
    exact Nat.mul_le_mul_right _ (Nat.div_mul_le_self m _)
  · rw [hpow, ← Nat.mul_assoc]
    exact Nat.mul_lt_mul_of_pos_right (Nat.lt_mul_of_div_lt (Nat.lt_succ_self _)
      (Nat.two_pow_pos k)) (Nat.two_pow_pos _)

section Excess

-- the mantissa is at least as long as the format wants it, or its exponent is the least one
variable {m : Nat} {e : Int} (he : -1074 ≤ e) (hlong : 52 ≤ m.log2 ∨ e = -1074)

include he hlong

theorem add_excess : e + excess m e = max (m.log2 + e - 52) (-1074) := by
  unfold excess
  omega

theorem div_excess_lt : m / 2 ^ excess m e < 2 ^ 53 := by
  have hexp := add_excess he hlong
  rw [Nat.div_lt_iff_lt_mul (Nat.two_pow_pos _), ← Nat.pow_add]
  exact Nat.lt_of_lt_of_le Nat.lt_log2_self (Nat.pow_le_pow_right (by decide) (by omega))

/-- What is left of the mantissa is normal if the exponent allows it. -/
theorem div_excess_normal (hm : 0 < m) :
    2 ^ 52 ≤ m / 2 ^ excess m e ∨ e + (excess m e : Int) = -1074 := by
  have hexp := add_excess he hlong
  by_cases hmin : e + (excess m e : Int) = -1074
  · exact .inr hmin
  · left
    rw [Nat.le_div_iff_mul_le (Nat.two_pow_pos _), ← Nat.pow_add]
    exact Nat.le_trans (Nat.pow_le_pow_right (by decide) (by omega))
      (Nat.log2_self_le (Nat.ne_of_gt hm))

theorem div_excess_pos (hm : 0 < m) : 0 < m / 2 ^ excess m e := by
  rcases div_excess_normal he hlong hm with h | h
  · exact Nat.lt_of_lt_of_le (Nat.two_pow_pos 52) h
  · have hzero : excess m e = 0 := by omega
    rw [hzero, Nat.pow_zero, Nat.div_one]
    exact hm

theorem roundWithAccuracy_rounds (s : Sign) (hm : 0 < m) :
    ∃ k f, RoundsTo (units m e) s (roundWithAccuracy .binary64 s m e .exact) k f := by
  have hnormal := div_excess_normal he hlong hm
  have hless := div_excess_lt he hlong
  have hpos := div_excess_pos he hlong hm
  have hrounds := rounds_shifted he hnormal
  have hbounds := roundedMantissa_bounds ((ExtendedMantissa.mk m false false) >>> excess m e)
  rw [mantissa_shiftRight] at hbounds
  generalize hr : ((ExtendedMantissa.mk m false false) >>> excess m e).roundedMantissa = r at *
  obtain ⟨m', e', h', hshift, hres⟩ := finish_rounding s (by omega)
    (Nat.lt_of_lt_of_le hpos hbounds.1) (Nat.le_trans hbounds.2 hless)
    (hnormal.imp_left fun h => Nat.le_trans h hbounds.1) hrounds
  refine ⟨m', e', ?_⟩
  unfold roundWithAccuracy
  rw [shiftToTargetExponent_eq]
  simp only []
  rw [hr, hshift]
  simp only [Nat.ne_of_gt h', dite_false]
  exact hres

end Excess

theorem log2_shiftLeft {m : Nat} (hm : 0 < m) (k : Nat) : (m <<< k).log2 = m.log2 + k := by
  rw [Nat.shiftLeft_eq, Nat.log2_eq_iff (Nat.ne_of_gt (Nat.mul_pos hm (Nat.two_pow_pos k))),
    Nat.pow_add, show m.log2 + k + 1 = m.log2 + 1 + k by omega, Nat.pow_add]
  exact ⟨Nat.mul_le_mul_right _ (Nat.log2_self_le (Nat.ne_of_gt hm)),
    Nat.mul_lt_mul_of_pos_right Nat.lt_log2_self (Nat.two_pow_pos k)⟩

theorem round_rounds {m : Nat} {e : Int} (s : Sign) (hm : 0 < m) (he : -1074 ≤ e) :
    ∃ k f, RoundsTo (units m e) s (round .binary64 s m e) k f := by
  -- the exponent is lowered first if the mantissa is too short
  let d := (e - max (m.log2 + 1 + e - 53) (-1074)).toNat
  have hround : round .binary64 s m e = roundWithAccuracy .binary64 s (m <<< d) (e - d) .exact :=
    rfl
  have hunits : units (m <<< d) (e - d) = units m e := by
    rw [units_eq_mul (m := m) (show -1074 ≤ e - (d : Int) by omega) (by omega)]
    unfold units
    rw [Nat.shiftLeft_eq, show (e - (e - (d : Int))).toNat = d by omega]
  have hpos : 0 < m <<< d := by
    rw [Nat.shiftLeft_eq]
    exact Nat.mul_pos hm (Nat.two_pow_pos d)
  rw [hround, ← hunits]
  refine roundWithAccuracy_rounds (by omega) ?_ s hpos
  rw [log2_shiftLeft hm]
  omega

end OptimalAssignment.Binary
