import OptimalAssignment.Proofs.Binary.Packing

/-!
# Arithmetic of doubles

The doubles that are not negative are ordered by their magnitude, which counts the units of a finite
double and is the limit at infinity.  A difference of two of them is never larger than what it is
taken from, and a sum never smaller than what was added, whatever is lost by rounding.
-/

namespace OptimalAssignment.Binary

open Float.Model (UnpackedFloat)
open Float.Model.UnpackedFloat

/-! ## Magnitudes -/

/-- The units of the first power of two beyond the largest double. -/
@[irreducible] def limit : Nat := 2 ^ 53 * 2 ^ (971 + 1074)

theorem units_lt_iff {m : Nat} {e : Int} (h : Canonical m e) (k : Nat) :
    units m e < 2 ^ 53 * 2 ^ k ↔ (e + 1074).toNat ≤ k := by
  constructor
  · intro hlt
    by_contra he
    have hm : 2 ^ 52 ≤ m := h.normal.resolve_right (by omega)
    have hle : 2 ^ 52 * 2 ^ (k + 1) ≤ units m e :=
      Nat.mul_le_mul hm (Nat.pow_le_pow_right (by decide) (by omega))
    rw [Nat.pow_succ] at hle
    omega
  · intro he
    exact Nat.lt_of_lt_of_le (Nat.mul_lt_mul_of_pos_right h.lt (Nat.two_pow_pos _))
      (Nat.mul_le_mul_left _ (Nat.pow_le_pow_right (by decide) he))

theorem units_lt_limit_iff {m : Nat} {e : Int} (h : Canonical m e) :
    units m e < limit ↔ e ≤ 971 := by
  unfold limit
  rw [units_lt_iff h]
  omega

def unitsOf : UnpackedFloat → Nat
  | .zero _ => 0
  | .finite _ m e _ => units m e
  | _ => limit

def magnitude (x : Float) : Nat :=
  unitsOf x.toModel.unpack

/-- Neither negative nor NaN. -/
def Unsigned : UnpackedFloat → Prop
  | .zero _ => True
  | .finite .positive _ _ _ => True
  | .infinity .positive => True
  | _ => False

theorem le_iff_model {x y : Float} : x ≤ y ↔ UnpackedFloat.le x.toModel.unpack y.toModel.unpack :=
  decide_eq_true_iff

theorem lt_iff_model {x y : Float} : x < y ↔ UnpackedFloat.lt x.toModel.unpack y.toModel.unpack :=
  decide_eq_true_iff

theorem zero_le_iff {x : Float} : 0 ≤ x ↔ Unsigned x.toModel.unpack := by
  rw [le_iff_model, show (0 : Float).toModel.unpack = .zero .positive from rfl]
  cases x.toModel.unpack with
  | infinity s => cases s <;> simp [Unsigned, UnpackedFloat.le, UnpackedFloat.compare]
  | notANumber => simp [Unsigned, UnpackedFloat.le, UnpackedFloat.compare]
  | zero s => simp [Unsigned, UnpackedFloat.le, UnpackedFloat.compare]
  | finite s m e h => cases s <;> simp [Unsigned, UnpackedFloat.le, UnpackedFloat.compare]

theorem units_pos {m : Nat} {e : Int} (h : 0 < m) : 0 < units m e :=
  Nat.mul_pos h (Nat.two_pow_pos _)

/-- Exponents decide, and mantissas if they are the same. -/
theorem compare_eq_compare_units {m k : Nat} {e f : Int} (h : Canonical m e) (h' : Canonical k f) :
    (compare e f).then (compare m k) = compare (units m e : Int) (units k f) := by
  rcases Int.lt_trichotomy e f with hlt | rfl | hgt
  · rw [Int.compare_eq_lt.2 hlt, Int.compare_eq_lt.2 (by exact_mod_cast units_lt_units h h' hlt)]
    rfl
  · rw [Int.compare_eq_eq.2 rfl, Ordering.eq_then]
    have hpow : 0 < 2 ^ (e + 1074).toNat := Nat.two_pow_pos _
    rcases Nat.lt_trichotomy m k with hlt | rfl | hgt
    · have hunits : units m e < units k e := Nat.mul_lt_mul_of_pos_right hlt hpow
      rw [Nat.compare_eq_lt.2 hlt, Int.compare_eq_lt.2 (by exact_mod_cast hunits)]
    · rw [Nat.compare_eq_eq.2 rfl, Int.compare_eq_eq.2 rfl]
    · have hunits : units k e < units m e := Nat.mul_lt_mul_of_pos_right hgt hpow
      rw [Nat.compare_eq_gt.2 hgt, Int.compare_eq_gt.2 (by exact_mod_cast hunits)]
  · rw [Int.compare_eq_gt.2 hgt, Int.compare_eq_gt.2 (by exact_mod_cast units_lt_units h' h hgt)]
    rfl

theorem compare_units {m k : Nat} {e f : Int} (h : Canonical m e) (h' : Canonical k f) :
    ((compare e f).then (compare m k)).isLE = true ↔ units m e ≤ units k f := by
  rw [compare_eq_compare_units h h', Int.isLE_compare, Int.ofNat_le]

/-! ## Unsigned doubles -/

/-- A double that is neither negative nor NaN is read as an infinity, as a zero or as a mantissa. -/
theorem unsigned_cases {x : Float} (hx : 0 ≤ x) :
    (x.toModel.unpack = .infinity .positive) ∨ (∃ s, x.toModel.unpack = .zero s) ∨
    ∃ m e h, x.toModel.unpack = .finite .positive m e h ∧ Canonical m e ∧ units m e < limit := by
  have hu := zero_le_iff.1 hx
  cases hunpack : x.toModel.unpack with
  | infinity s =>
      rw [hunpack] at hu
      cases s with
      | negative => exact hu.elim
      | positive => exact .inl rfl
  | notANumber => rw [hunpack] at hu; exact hu.elim
  | zero s => exact .inr (.inl ⟨s, rfl⟩)
  | finite s m e h =>
      rw [hunpack] at hu
      cases s with
      | negative => exact hu.elim
      | positive =>
          obtain ⟨hc, he⟩ := canonical_of_unpack hunpack
          exact .inr (.inr ⟨m, e, h, rfl, hc, (units_lt_limit_iff hc).2 he⟩)

theorem canonical_zero : Canonical 0 (-1074) :=
  ⟨by decide, by decide, .inr rfl⟩

theorem limit_pos : 0 < limit :=
  Nat.lt_of_le_of_lt (Nat.zero_le _) ((units_lt_limit_iff canonical_zero).2 (by decide))

theorem magnitude_le_limit {x : Float} (hx : 0 ≤ x) : magnitude x ≤ limit := by
  unfold magnitude
  rcases unsigned_cases hx with h | ⟨s, h⟩ | ⟨m, e, _, h, -, hlt⟩ <;> rw [h]
  · exact Nat.le_refl _
  · exact Nat.zero_le _
  · exact Nat.le_of_lt hlt

theorem isFinite_iff {x : Float} (hx : 0 ≤ x) : x.isFinite = true ↔ magnitude x < limit := by
  show x.toModel.unpack.isFinite = true ↔ unitsOf x.toModel.unpack < limit
  rcases unsigned_cases hx with h | ⟨s, h⟩ | ⟨m, e, _, h, -, hlt⟩
  · rw [h]
    exact ⟨nofun, fun hlt => absurd hlt (Nat.lt_irrefl _)⟩
  · rw [h]
    exact ⟨fun _ => limit_pos, fun _ => rfl⟩
  · rw [h]
    exact ⟨fun _ => hlt, fun _ => rfl⟩

theorem le_iff_magnitude {x y : Float} (hx : 0 ≤ x) (hy : 0 ≤ y) :
    x ≤ y ↔ magnitude x ≤ magnitude y := by
  rw [le_iff_model]
  unfold magnitude
  rcases unsigned_cases hx with h | ⟨s, h⟩ | ⟨m, e, hm, h, hc, hlt⟩ <;>
    rcases unsigned_cases hy with h' | ⟨s', h'⟩ | ⟨k, f, hk, h', hc', hlt'⟩ <;> rw [h, h']
  · exact ⟨fun _ => Nat.le_refl _, fun _ => rfl⟩
  · exact ⟨nofun, fun hle => absurd limit_pos (Nat.not_lt_of_le hle)⟩
  · exact ⟨nofun, fun hle => absurd hlt' (Nat.not_lt_of_le hle)⟩
  · exact ⟨fun _ => Nat.zero_le _, fun _ => rfl⟩
  · exact ⟨fun _ => Nat.le_refl _, fun _ => rfl⟩
  · exact ⟨fun _ => Nat.zero_le _, fun _ => rfl⟩
  · exact ⟨fun _ => Nat.le_of_lt hlt, fun _ => rfl⟩
  · exact ⟨nofun, fun hle => absurd (units_pos hm) (Nat.not_lt_of_le hle)⟩
  · exact compare_units hc hc'

/-- All units of an unsigned finite double stand in one canonical mantissa. -/
theorem exists_canonical {x : Float} (hx : 0 ≤ x) (hfin : magnitude x < limit) :
    ∃ m e, Canonical m e ∧ units m e = magnitude x := by
  unfold magnitude at hfin ⊢
  rcases unsigned_cases hx with h | ⟨s, h⟩ | ⟨m, e, _, h, hc, -⟩
  · rw [h] at hfin
    exact absurd hfin (Nat.lt_irrefl _)
  · rw [h]
    exact ⟨0, -1074, canonical_zero, Nat.zero_mul _⟩
  · rw [h]
    exact ⟨m, e, hc, rfl⟩

/-! ## Sums and differences -/

/-- The result of an operation whose exact result has so many units. -/
structure Result (v : Nat) (x : Float) : Prop where
  unsigned : 0 ≤ x
  rounded : ∃ r, Rounds v r ∧ magnitude x = min r limit

theorem Rounds.refl (v : Nat) : Rounds v v :=
  ⟨fun _ h => h, fun _ h => h⟩

theorem Result.of_finite {v m : Nat} {e : Int} {f : UnpackedFloat}
    (h : RoundsTo v .positive f m e) :
    Result v (.ofModel (.pack f)) := by
  obtain ⟨⟨hm, rfl⟩, hc, hr⟩ := h
  have hunpack := unpack_pack_finite .positive hm hc
  constructor
  · rw [zero_le_iff, show (Float.ofModel (.pack _)).toModel.unpack = _ from hunpack]
    split <;> trivial
  · refine ⟨units m e, hr, ?_⟩
    show unitsOf (Float.Model.pack _).unpack = _
    rw [hunpack]
    split
    · rename_i he
      exact (Nat.min_eq_left (Nat.le_of_lt ((units_lt_limit_iff hc).2 he))).symm
    · rename_i he
      have hle : limit ≤ units m e := Nat.le_of_not_lt fun hlt => he ((units_lt_limit_iff hc).1 hlt)
      exact (Nat.min_eq_right hle).symm

theorem Result.of_zero (s : Sign) : Result 0 (.ofModel (.pack (.zero s))) := by
  have hunpack := unpack_zero s
  constructor
  · rw [zero_le_iff, show (Float.ofModel (.pack _)).toModel.unpack = _ from hunpack]
    trivial
  · refine ⟨0, .refl 0, ?_⟩
    show unitsOf (Float.Model.pack _).unpack = _
    rw [hunpack, Nat.zero_min]
    rfl

/-- A mantissa that needs no rounding. -/
theorem Result.of_canonical {m : Nat} {e : Int} (h : 0 < m) (hc : Canonical m e) :
    Result (units m e) (.ofModel (.pack (.finite .positive m e h))) :=
  .of_finite ⟨⟨h, rfl⟩, hc, .refl _⟩

theorem Result.of_normalize (m : Nat) {e : Int} (he : -1074 ≤ e) :
    Result (units m e) (.ofModel (.pack (normalize .binary64 m e .positive))) := by
  cases m with
  | zero =>
      rw [show units 0 e = 0 from Nat.zero_mul _]
      exact .of_zero .positive
  | succ m =>
      obtain ⟨k, f, h⟩ := round_rounds .positive (Nat.succ_pos m) he
      exact .of_finite h

/-- A mantissa brought to a smaller exponent. -/
theorem units_shiftLeft {m : Nat} {e f : Int} (hf : -1074 ≤ f) (h : f ≤ e) :
    units (m <<< (e - f).toNat) f = units m e := by
  rw [units_eq_mul hf h, Nat.shiftLeft_eq]
  rfl

/-- Two numbers brought to the smaller one of their exponents. -/
theorem units_min (m k : Nat) {e f : Int} (he : -1074 ≤ e) (hf : -1074 ≤ f) :
    -1074 ≤ min e f ∧ units m e = units (m <<< (e - min e f).toNat) (min e f) ∧
      units k f = units (k <<< (f - min e f).toNat) (min e f) := by
  have hlow : -1074 ≤ min e f := Int.le_min.2 ⟨he, hf⟩
  exact ⟨hlow, (units_shiftLeft hlow (Int.min_le_left e f)).symm,
    (units_shiftLeft hlow (Int.min_le_right e f)).symm⟩

theorem finite_cases {x : Float} (hx : 0 ≤ x) (hfin : magnitude x < limit) :
    (∃ s, x.toModel.unpack = .zero s ∧ magnitude x = 0) ∨
    ∃ m e h, x.toModel.unpack = .finite .positive m e h ∧ Canonical m e ∧
      magnitude x = units m e := by
  unfold magnitude at hfin ⊢
  rcases unsigned_cases hx with h | ⟨s, h⟩ | ⟨m, e, hm, h, hc, -⟩
  · rw [h] at hfin
    exact absurd hfin (Nat.lt_irrefl _)
  · exact .inl ⟨s, h, by rw [h]; rfl⟩
  · exact .inr ⟨m, e, hm, h, hc, by rw [h]; rfl⟩

theorem add_result {x y : Float} (hx : 0 ≤ x) (hy : 0 ≤ y) (hx' : magnitude x < limit)
    (hy' : magnitude y < limit) : Result (magnitude x + magnitude y) (x + y) := by
  show Result _ (.ofModel (.pack (UnpackedFloat.add .binary64 x.toModel.unpack y.toModel.unpack)))
  rcases finite_cases hx hx' with ⟨s, h, hsize⟩ | ⟨m, e, hm, h, hc, hsize⟩ <;>
    rcases finite_cases hy hy' with ⟨s', h', hsize'⟩ | ⟨k, f, hk, h', hc', hsize'⟩ <;>
    rw [h, h', hsize, hsize']
  · show Result 0 (.ofModel (.pack (if s == s' then .zero s else .zero .positive)))
    split
    · exact .of_zero s
    · exact .of_zero .positive
  · rw [Nat.zero_add]
    exact .of_canonical hk hc'
  · exact .of_canonical hm hc
  -- at the smaller exponent the sum of the mantissas is exact
  · obtain ⟨hlow, hunits, hunits'⟩ := units_min m k hc.low hc'.low
    rw [hunits, hunits', units_add]
    exact .of_normalize _ hlow

theorem sub_result {x y : Float} (hx : 0 ≤ x) (hy : 0 ≤ y) (hx' : magnitude x < limit)
    (hyx : magnitude y ≤ magnitude x) : Result (magnitude x - magnitude y) (x - y) := by
  show Result _ (.ofModel (.pack (UnpackedFloat.sub .binary64 x.toModel.unpack y.toModel.unpack)))
  rcases finite_cases hx hx' with ⟨s, h, hsize⟩ | ⟨m, e, hm, h, hc, hsize⟩ <;>
    rcases finite_cases hy (Nat.lt_of_le_of_lt hyx hx') with
      ⟨s', h', hsize'⟩ | ⟨k, f, hk, h', hc', hsize'⟩ <;>
    rw [h, h', hsize, hsize'] <;> rw [hsize, hsize'] at hyx
  · show Result 0 (.ofModel (.pack (if s == -s' then .zero s else .zero .positive)))
    split
    · exact .of_zero s
    · exact .of_zero .positive
  · exact absurd (units_pos hk) (Nat.not_lt_of_le hyx)
  · exact .of_canonical hm hc
  · obtain ⟨hlow, hunits, hunits'⟩ := units_min m k hc.low hc'.low
    rw [hunits, hunits'] at hyx ⊢
    have hle : k <<< (f - min e f).toNat ≤ m <<< (e - min e f).toNat :=
      Nat.le_of_mul_le_mul_right hyx (Nat.two_pow_pos _)
    show Result _ (.ofModel (.pack (normalize .binary64
      ((m <<< (e - min e f).toNat : Nat) - (k <<< (f - min e f).toNat : Nat) : Int) (min e f)
        .positive)))
    rw [← Int.ofNat_sub hle, units_sub]
    exact .of_normalize _ hlow

/-! ## Laws -/

theorem ordered_unsigned : Ordered Float (0 ≤ ·) where
  trans ha hb hc hab hbc := by
    rw [le_iff_magnitude ha hc]
    exact Nat.le_trans ((le_iff_magnitude ha hb).1 hab) ((le_iff_magnitude hb hc).1 hbc)
  total ha hb := by
    rw [le_iff_magnitude ha hb, le_iff_magnitude hb ha]
    exact Nat.le_total _ _

section Laws

variable {x y : Float}

theorem zero_le_of_not_lt (hfin : x.isFinite = true) (hx : ¬x < 0.0) : 0 ≤ x := by
  have hfin : x.toModel.unpack.isFinite = true := hfin
  rw [lt_iff_model, show (0.0 : Float).toModel.unpack = .zero .positive from rfl] at hx
  rw [zero_le_iff]
  cases h : x.toModel.unpack with
  | infinity s => rw [h] at hfin; cases hfin
  | notANumber => rw [h] at hfin; cases hfin
  | zero s => trivial
  | finite s m e hm =>
      rw [h] at hx
      cases s with
      | positive => trivial
      | negative => exact absurd rfl hx

/-- No rounding is needed to take a finite double from itself. -/
theorem sub_self (hfin : x.isFinite = true) : x - x = 0 := by
  have hfin : x.toModel.unpack.isFinite = true := hfin
  have hsub : UnpackedFloat.sub .binary64 x.toModel.unpack x.toModel.unpack = .zero .positive := by
    cases h : x.toModel.unpack with
    | infinity s => rw [h] at hfin; cases hfin
    | notANumber => rw [h] at hfin; cases hfin
    | zero s => cases s <;> rfl
    | finite s m e hm =>
        show normalize .binary64 (_ - _) _ .positive = _
        rw [Int.sub_self]
        rfl
  show Float.ofModel (.pack (UnpackedFloat.sub .binary64 x.toModel.unpack x.toModel.unpack)) = 0
  rw [hsub]
  rfl

theorem sub_infinity (hx : x.toModel.unpack = .infinity .positive) (hy : 0 ≤ y)
    (hfin : magnitude y < limit) : (x - y).toModel.unpack = .infinity .positive := by
  show (Float.Model.pack (UnpackedFloat.sub .binary64 x.toModel.unpack y.toModel.unpack)).unpack = _
  rw [hx]
  rcases finite_cases hy hfin with ⟨s, h, -⟩ | ⟨m, e, hm, h, -⟩ <;> rw [h]
  · exact unpack_infinity .positive
  · exact unpack_infinity .positive

theorem add_infinity (hx : 0 ≤ x) (hy : 0 ≤ y)
    (hinf : ¬(magnitude x < limit ∧ magnitude y < limit)) :
    (x + y).toModel.unpack = .infinity .positive := by
  show (Float.Model.pack (UnpackedFloat.add .binary64 x.toModel.unpack y.toModel.unpack)).unpack = _
  unfold magnitude at hinf
  rcases unsigned_cases hx with h | ⟨s, h⟩ | ⟨m, e, hm, h, -, hlt⟩ <;>
    rcases unsigned_cases hy with h' | ⟨s', h'⟩ | ⟨k, f, hk, h', -, hlt'⟩ <;> rw [h, h'] at hinf ⊢
  case inr.inl.inr.inl => exact absurd ⟨limit_pos, limit_pos⟩ hinf
  case inr.inl.inr.inr => exact absurd ⟨limit_pos, hlt'⟩ hinf
  case inr.inr.inr.inl => exact absurd ⟨hlt, limit_pos⟩ hinf
  case inr.inr.inr.inr => exact absurd ⟨hlt, hlt'⟩ hinf
  all_goals exact unpack_infinity .positive

/-- What is left of an unsigned double is unsigned and not larger. -/
theorem sub_le (hx : 0 ≤ x) (hy : 0 ≤ y) (hyx : y ≤ x) (hfin : y.isFinite = true) :
    0 ≤ x - y ∧ magnitude (x - y) ≤ magnitude x := by
  rw [isFinite_iff hy] at hfin
  rw [le_iff_magnitude hy hx] at hyx
  by_cases hx' : magnitude x < limit
  -- the minuend is a double that bounds the exact difference, so it bounds the rounded one
  · obtain ⟨hzero, r, hr, hsize⟩ := sub_result hx hy hx' hyx
    refine ⟨hzero, ?_⟩
    obtain ⟨m, e, hc, hunits⟩ := exists_canonical hx hx'
    have hle : r ≤ units m e := hr.rounded_le hc (by omega)
    omega
  · have hinf : x.toModel.unpack = .infinity .positive := by
      rcases unsigned_cases hx with h | ⟨s, h⟩ | ⟨m, e, hm, h, -, hlt⟩
      · exact h
      · exact absurd (by unfold magnitude; rw [h]; exact limit_pos) hx'
      · exact absurd (by unfold magnitude; rw [h]; exact hlt) hx'
    have hsub := sub_infinity hinf hy hfin
    constructor
    · rw [zero_le_iff, hsub]
      trivial
    · unfold magnitude
      rw [hsub, hinf]

/-- A sum of unsigned doubles is unsigned and not smaller. -/
theorem le_add (hx : 0 ≤ x) (hy : 0 ≤ y) : 0 ≤ x + y ∧ y ≤ x + y := by
  by_cases hfin : magnitude x < limit ∧ magnitude y < limit
  · obtain ⟨hzero, r, hr, hsize⟩ := add_result hx hy hfin.1 hfin.2
    refine ⟨hzero, ?_⟩
    obtain ⟨m, e, hc, hunits⟩ := exists_canonical hy hfin.2
    have hle : units m e ≤ r := hr.le_rounded hc (by omega)
    rw [le_iff_magnitude hy hzero]
    omega
  · have hadd := add_infinity hx hy hfin
    have hzero : 0 ≤ x + y := by
      rw [zero_le_iff, hadd]
      trivial
    refine ⟨hzero, ?_⟩
    rw [le_iff_magnitude hy hzero]
    have hsize : magnitude (x + y) = limit := congrArg unitsOf hadd
    rw [hsize]
    exact magnitude_le_limit hy

end Laws

end OptimalAssignment.Binary
