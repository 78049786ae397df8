import Mathlib
import OptimalAssignment.Binary.Real
import OptimalAssignment.Proofs.Binary.Doubles

/-!
# Values of doubles

A finite double stands for a rational number, which for an unsigned one is its number of units.  A
sum or difference that is itself the value of a double is computed without rounding.  The whole
numbers up to `2 ^ 53` are values of doubles.
-/

namespace OptimalAssignment.Binary

open Float.Model (UnpackedFloat)
open Float.Model.UnpackedFloat

/-! ## What a word stands for -/

def isNegative : Sign → Bool
  | .positive => false
  | .negative => true

def Exact.ofUnpacked : UnpackedFloat → Exact
  | .infinity s => .infinite (isNegative s)
  | .notANumber => .nan
  | .zero s => .finite (isNegative s) 0 (-1074)
  | .finite s m e _ => .finite (isNegative s) m e

theorem toNat_unpackMantissa (w : BitVec 64) :
    (@unpackMantissa .binary64 w).toNat = w.toNat % 2 ^ 52 := by
  show (w.extractLsb 51 0).toNat = _
  rw [BitVec.extractLsb_toNat]
  rfl

theorem toNat_unpackExponent (w : BitVec 64) :
    (@unpackExponent .binary64 w).toNat = w.toNat / 2 ^ 52 % 2 ^ 11 := by
  show (w.extractLsb 62 52).toNat = _
  rw [BitVec.extractLsb_toNat, Nat.shiftRight_eq_div_pow]

theorem toNat_unpackSign (w : BitVec 64) :
    (@unpackSign .binary64 w).toNat = w.toNat / 2 ^ 63 % 2 := by
  show (w.extractLsb 63 63).toNat = _
  rw [BitVec.extractLsb_toNat, Nat.shiftRight_eq_div_pow]

theorem isNegative_ofBitVec (b : BitVec 1) : isNegative (Sign.ofBitVec b) = (b.toNat == 1) := by
  have hcases : ∀ b : BitVec 1, isNegative (Sign.ofBitVec b) = (b.toNat == 1) := by decide
  exact hcases b

theorem decode_double (word : Nat) : decode 11 52 word =
    if word / 2 ^ 52 % 2 ^ 11 = 2047 then
      if word % 2 ^ 52 = 0 then .infinite (word / 2 ^ 63 % 2 == 1) else .nan
    else if word / 2 ^ 52 % 2 ^ 11 = 0 then
      .finite (word / 2 ^ 63 % 2 == 1) (word % 2 ^ 52) (-1074)
    else
      .finite (word / 2 ^ 63 % 2 == 1) (2 ^ 52 + word % 2 ^ 52)
        ((word / 2 ^ 52 % 2 ^ 11 : Nat) - 1 - 1074) :=
  rfl

theorem decode_word (w : BitVec 64) :
    decode 11 52 w.toNat = .ofUnpacked (UnpackedFloat.unpack .binary64 w) := by
  rw [decode_double, ← toNat_unpackMantissa, ← toNat_unpackExponent, ← toNat_unpackSign,
    ← isNegative_ofBitVec]
  unfold UnpackedFloat.unpack
  simp only []
  -- the greatest field, the least one, and the normal ones between
  split
  · rename_i hmax
    have hfield : @unpackExponent .binary64 w = -1#11 := BitVec.eq_of_toNat_eq hmax
    rw [if_pos hfield]
    split
    · rename_i hzero
      rw [if_pos (BitVec.eq_of_toNat_eq hzero)]
      rfl
    · rename_i hzero
      rw [if_neg fun heq => hzero (congrArg BitVec.toNat heq)]
      rfl
  · rename_i hmax
    rw [if_neg fun heq => hmax (congrArg BitVec.toNat heq)]
    split
    · rename_i hmin
      have hfield : @unpackExponent .binary64 w = 0#11 := BitVec.eq_of_toNat_eq hmin
      rw [if_pos hfield]
      split
      · rename_i hzero
        rw [hzero]
        rfl
      · rw [hfield]
        rfl
    · rename_i hmin
      rw [if_neg fun heq => hmin (congrArg BitVec.toNat heq)]
      show _ = Exact.finite _ (1#1 ++ @unpackMantissa .binary64 w).toNat
        (((@unpackExponent .binary64 w).toNat : Int) - 1075)
      rw [toNat_implicit, Int.sub_sub]
      rfl

theorem exact_eq_ofUnpacked (x : Float) : exact x = .ofUnpacked x.toModel.unpack :=
  decode_word x.toModel.toBits.toBitVec

/-! ## Values -/

/-- The rational number of a finite double; nothing is meant by that of any other one. -/
def Exact.value : Exact → ℚ
  | .finite negative m e => (if negative then -(m : ℚ) else m) * 2 ^ e
  | _ => 0

def value (x : Float) : ℚ :=
  (exact x).value

/-- The least positive double. -/
def unit : ℚ := 2 ^ (-1074 : Int)

theorem unit_pos : 0 < unit := by
  unfold unit
  positivity

theorem units_mul_unit {m : Nat} {e : Int} (he : -1074 ≤ e) :
    (units m e : ℚ) * unit = m * 2 ^ e := by
  have hpow : (2 : ℚ) ^ (e + 1074).toNat = 2 ^ (e + 1074) := by
    rw [← zpow_natCast, Int.toNat_of_nonneg (by omega)]
  unfold units unit
  rw [Nat.cast_mul, Nat.cast_pow, Nat.cast_ofNat, hpow, mul_assoc, ← zpow_add₀ (by norm_num)]
  congr 2
  omega

theorem value_eq_magnitude {x : Float} (hx : 0 ≤ x) (hfin : x.isFinite = true) :
    value x = magnitude x * unit := by
  rw [isFinite_iff hx] at hfin
  unfold value
  rw [exact_eq_ofUnpacked]
  rcases finite_cases hx hfin with ⟨s, h, hsize⟩ | ⟨m, e, hm, h, hc, hsize⟩
  · rw [h, hsize]
    cases s <;> simp [Exact.ofUnpacked, Exact.value, isNegative]
  · rw [h, hsize, units_mul_unit hc.low]
    rfl

theorem value_le_iff {x y : Float} (hx : 0 ≤ x) (hy : 0 ≤ y) (hfin : x.isFinite = true)
    (hfin' : y.isFinite = true) : value x ≤ value y ↔ x ≤ y := by
  rw [value_eq_magnitude hx hfin, value_eq_magnitude hy hfin', le_iff_magnitude hx hy,
    mul_le_mul_iff_left₀ unit_pos, Nat.cast_le]

/-! ## Operations without rounding -/

/-- So many units are those of a finite double. -/
def Representable (v : Nat) : Prop :=
  v < limit ∧ ∃ m e, Canonical m e ∧ units m e = v

theorem Result.magnitude_eq {v : Nat} {x : Float} (h : Result v x) (hv : Representable v) :
    magnitude x = v := by
  obtain ⟨hlt, m, e, hc, rfl⟩ := hv
  obtain ⟨r, hr, hsize⟩ := h.rounded
  have hexact : r = units m e :=
    Nat.le_antisymm (hr.rounded_le hc (Nat.le_refl _)) (hr.le_rounded hc (Nat.le_refl _))
  rw [hsize, hexact, Nat.min_eq_left (Nat.le_of_lt hlt)]

theorem Result.isFinite {v : Nat} {x : Float} (h : Result v x) (hv : Representable v) :
    x.isFinite = true := by
  rw [isFinite_iff h.unsigned, h.magnitude_eq hv]
  exact hv.1

/-! ## Whole numbers -/

/-- The double is a natural number that is not beyond the bound. -/
structure Whole (bound : Nat) (x : Float) : Prop where
  unsigned : 0 ≤ x
  finite : x.isFinite = true
  natural : ∃ k ≤ bound, value x = (k : ℚ)

theorem representable_natural {k : Nat} (hk : k ≤ 2 ^ 53) : Representable (units k 0) := by
  have hcanonical : ∃ m e, Canonical m e ∧ e ≤ 971 ∧ units m e = units k 0 := by
    by_cases hzero : k = 0
    · refine ⟨0, -1074, canonical_zero, by decide, ?_⟩
      unfold units
      rw [hzero, Nat.zero_mul, Nat.zero_mul]
    -- the bound itself needs one bit more, which is zero
    by_cases htop : k = 2 ^ 53
    · have hcarry : units (1 <<< 52) 1 = units (1 <<< 53) 0 :=
        (units_shiftLeft (m := 1) (e := 53) (f := 1) (by decide) (by decide)).trans
          (units_shiftLeft (m := 1) (e := 53) (f := 0) (by decide) (by decide)).symm
      exact ⟨2 ^ 52, 1, ⟨by decide, by decide, .inl (Nat.le_refl _)⟩, by decide, htop ▸ hcarry⟩
    -- the leading bit is brought to its place
    · have hlog : k.log2 < 53 := (Nat.log2_lt hzero).2 (by omega)
      have hshift := units_shiftLeft (m := k) (e := 0) (f := (k.log2 : Int) - 52) (by omega)
        (by omega)
      have hbits : (k <<< (0 - ((k.log2 : Int) - 52)).toNat).log2 = 52 := by
        rw [log2_shiftLeft (by omega)]
        omega
      have hpos : k <<< (0 - ((k.log2 : Int) - 52)).toNat ≠ 0 := by
        rw [Nat.shiftLeft_eq]
        exact Nat.mul_ne_zero hzero (Nat.ne_of_gt (Nat.two_pow_pos _))
      have hrange := (Nat.log2_eq_iff hpos).1 hbits
      exact ⟨_, _, ⟨hrange.2, by omega, .inl hrange.1⟩, by omega, hshift⟩
  obtain ⟨m, e, hc, he, hunits⟩ := hcanonical
  rw [← hunits]
  exact ⟨(units_lt_limit_iff hc).2 he, m, e, hc, rfl⟩

theorem value_eq_natural_iff {x : Float} (hx : 0 ≤ x) (hfin : x.isFinite = true) {k : Nat} :
    value x = k ↔ magnitude x = units k 0 := by
  have hunits : (units k 0 : ℚ) * unit = k := by
    rw [units_mul_unit (by decide), zpow_zero, mul_one]
  rw [value_eq_magnitude hx hfin, ← hunits, mul_left_inj' (ne_of_gt unit_pos), Nat.cast_inj]

theorem value_zero : value 0 = 0 := by
  have hexact : exact 0 = .finite false 0 (-1074) := by decide
  unfold value
  rw [hexact]
  simp [Exact.value]

theorem whole_iff {bound : Nat} {x : Float} : Whole bound x ↔
    0 ≤ x ∧ x.isFinite = true ∧ units 1 0 ∣ magnitude x ∧ magnitude x ≤ units bound 0 := by
  -- a natural number is as many times the units of one
  have hunits : ∀ k, units k 0 = units 1 0 * k := fun k => by
    unfold units
    rw [Nat.one_mul, Nat.mul_comm]
  constructor
  · rintro ⟨hx, hfin, k, hk, hval⟩
    rw [value_eq_natural_iff hx hfin, hunits] at hval
    rw [hval, hunits bound]
    exact ⟨hx, hfin, Nat.dvd_mul_right _ _, Nat.mul_le_mul_left _ hk⟩
  · rintro ⟨hx, hfin, ⟨k, hk⟩, hle⟩
    rw [hk, hunits bound] at hle
    refine ⟨hx, hfin, k, Nat.le_of_mul_le_mul_left hle (units_pos Nat.one_pos), ?_⟩
    exact (value_eq_natural_iff hx hfin).2 (hk.trans (hunits k).symm)

instance (bound : Nat) (x : Float) : Decidable (Whole bound x) :=
  decidable_of_iff _ whole_iff.symm

namespace Whole

variable {x y : Float} {b c d : Nat}

theorem mono (h : Whole b x) (hle : b ≤ c) : Whole c x where
  unsigned := h.unsigned
  finite := h.finite
  natural := by
    obtain ⟨k, hk, hval⟩ := h.natural
    exact ⟨k, Nat.le_trans hk hle, hval⟩

theorem value_le (h : Whole b x) : value x ≤ b := by
  obtain ⟨k, hk, hval⟩ := h.natural
  rw [hval]
  exact_mod_cast hk

theorem le_iff (hx : Whole b x) (hy : Whole c y) : value x ≤ value y ↔ x ≤ y :=
  value_le_iff hx.unsigned hy.unsigned hx.finite hy.finite

theorem lt_limit (h : Whole b x) : magnitude x < limit :=
  (isFinite_iff h.unsigned).1 h.finite

theorem of_result {k : Nat} (h : Result (units k 0) x) (hk : k ≤ b) (hb : b ≤ 2 ^ 53) :
    Whole b x ∧ value x = k := by
  have hrep := representable_natural (Nat.le_trans hk hb)
  have hfin := h.isFinite hrep
  have hval : value x = k := (value_eq_natural_iff h.unsigned hfin).2 (h.magnitude_eq hrep)
  exact ⟨⟨h.unsigned, hfin, k, hk, hval⟩, hval⟩

theorem add (hx : Whole b x) (hy : Whole c y) (hd : d ≤ 2 ^ 53) (hle : value x + value y ≤ d) :
    Whole d (x + y) ∧ value (x + y) = value x + value y := by
  obtain ⟨k, -, hk⟩ := hx.natural
  obtain ⟨l, -, hl⟩ := hy.natural
  rw [hk, hl, ← Nat.cast_add, Nat.cast_le] at hle
  have hsum := add_result hx.unsigned hy.unsigned hx.lt_limit hy.lt_limit
  rw [(value_eq_natural_iff hx.unsigned hx.finite).1 hk,
    (value_eq_natural_iff hy.unsigned hy.finite).1 hl, units_add] at hsum
  rw [hk, hl, ← Nat.cast_add]
  exact of_result hsum hle hd

theorem sub (hx : Whole b x) (hy : Whole c y) (hb : b ≤ 2 ^ 53) (hle : y ≤ x) :
    Whole b (x - y) ∧ value (x - y) = value x - value y := by
  obtain ⟨k, hkb, hk⟩ := hx.natural
  obtain ⟨l, -, hl⟩ := hy.natural
  have hlk : l ≤ k := by
    rw [← hy.le_iff hx, hk, hl, Nat.cast_le] at hle
    exact hle
  have hdiff := sub_result hx.unsigned hy.unsigned hx.lt_limit
    ((le_iff_magnitude hy.unsigned hx.unsigned).1 hle)
  rw [(value_eq_natural_iff hx.unsigned hx.finite).1 hk,
    (value_eq_natural_iff hy.unsigned hy.finite).1 hl, units_sub] at hdiff
  rw [hk, hl, ← Nat.cast_sub hlk]
  exact of_result hdiff (Nat.le_trans (Nat.sub_le k l) hkb) hb

end Whole
end OptimalAssignment.Binary
