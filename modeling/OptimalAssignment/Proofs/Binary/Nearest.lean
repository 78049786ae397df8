import OptimalAssignment.Proofs.Binary.Order
import OptimalAssignment.Proofs.Binary.Whole

/-!
# Whole numbers as doubles

A whole number is taken to the double nearest to it, a half going to the even mantissa, and it has
none from half a unit below the power of two that follows the doubles.  Its sign is kept.
-/

namespace OptimalAssignment.Binary

open Float.Model (UnpackedFloat)
open Float.Model.UnpackedFloat

/-! ## Words of doubles -/

theorem isFinite_iff_exact {x : Float} :
    x.isFinite = true ↔ ∃ negative m e, exact x = .finite negative m e := by
  rw [exact_eq_ofUnpacked, show x.isFinite = x.toModel.unpack.isFinite from rfl]
  cases x.toModel.unpack <;> simp [Exact.ofUnpacked, UnpackedFloat.isFinite]

theorem word_fields {s f r : Nat} (hs : s < 2) (hf : f < 2 ^ 11) (hr : r < 2 ^ 52) :
    (UInt64.ofNat (s * 2 ^ 63 + f * 2 ^ 52 + r)).toNat % 2 ^ 52 = r ∧
    (UInt64.ofNat (s * 2 ^ 63 + f * 2 ^ 52 + r)).toNat / 2 ^ 52 % 2 ^ 11 = f ∧
    (UInt64.ofNat (s * 2 ^ 63 + f * 2 ^ 52 + r)).toNat / 2 ^ 63 % 2 = s := by
  have hword : s * 2 ^ 63 + f * 2 ^ 52 + r < 2 ^ 64 := by omega
  rw [UInt64.toNat_ofNat_of_lt' hword]
  omega

theorem encode_eq (negative : Bool) {m : Nat} {e : Int} (hc : Canonical m e) :
    encode negative m e = negative.toNat * 2 ^ 63 +
      (if m < 2 ^ 52 then 0 else (e + 1075).toNat) * 2 ^ 52 + m % 2 ^ 52 := by
  have hlt := hc.lt
  have hsign : (if negative then pow2 63 else 0) = negative.toNat * 2 ^ 63 := by
    cases negative <;> rfl
  unfold encode
  rw [hsign, show pow2 52 = 2 ^ 52 from rfl]
  split <;> omega

theorem decode_encode (negative : Bool) {m : Nat} {e : Int} (hc : Canonical m e) (he : e ≤ 971) :
    decode 11 52 (UInt64.ofNat (encode negative m e)).toNat = .finite negative m e := by
  have hlow := hc.low
  have hlt := hc.lt
  have hsign : (negative.toNat == 1) = negative := by cases negative <;> rfl
  have hfield : (if m < 2 ^ 52 then 0 else (e + 1075).toNat) < 2047 := by split <;> omega
  obtain ⟨hfraction, hexponent, hnegative⟩ := word_fields (Bool.toNat_lt negative)
    (Nat.lt_trans hfield (by decide)) (Nat.mod_lt m (Nat.two_pow_pos 52))
  rw [encode_eq negative hc, decode_double, hfraction, hexponent, hnegative, hsign,
    if_neg (Nat.ne_of_lt hfield)]
  -- a mantissa without its leading bit stands in the least field
  by_cases hm : m < 2 ^ 52
  · rw [if_pos hm, if_pos rfl, Nat.mod_eq_of_lt hm, hc.normal.resolve_left (by omega)]
  · rw [if_neg hm, if_neg (by omega)]
    congr 1 <;> omega

/-- The double of a word holds what the word stands for. -/
theorem exact_ofBits_encode (negative : Bool) {m : Nat} {e : Int} (hc : Canonical m e)
    (he : e ≤ 971) :
    exact (Float.ofBits (UInt64.ofNat (encode negative m e))) = .finite negative m e := by
  have hdecode := decode_encode negative hc he
  rw [← UInt64.toNat_toBitVec, decode_word] at hdecode
  generalize hw : UnpackedFloat.unpack .binary64 (UInt64.ofNat (encode negative m e)).toBitVec = u
    at hdecode
  have hmodel : exact (Float.ofBits (UInt64.ofNat (encode negative m e))) =
      .ofUnpacked (Float.Model.pack u).unpack := by
    rw [exact_eq_ofUnpacked, ← hw]
    rfl
  rw [hmodel]
  -- packing what was read gives it back, for the mantissa is canonical
  cases u with
  | infinity s => cases hdecode
  | notANumber => cases hdecode
  | zero s => rw [unpack_zero, hdecode]
  | finite s k f h =>
      obtain ⟨-, rfl, rfl⟩ := Exact.finite.inj hdecode
      rw [unpack_pack_finite s h hc, if_pos he, hdecode]

/-! ## Rounding of natural numbers -/

theorem scale_natCast (n k : Nat) : scale n k = (n * pow2 k, 1) :=
  if_pos (Int.natCast_nonneg k)

theorem scale_pos (n : Nat) (e : Int) : 0 < (scale n e).2 := by
  unfold scale
  split
  · exact Nat.one_pos
  · exact Nat.two_pow_pos _

theorem scale_eq (n : Nat) (e : Int) : ((scale n e).1 : ℚ) = n * 2 ^ e * (scale n e).2 := by
  unfold scale
  split
  · rename_i he
    obtain ⟨k, rfl⟩ := Int.eq_ofNat_of_zero_le he
    simp [pow2]
  · rename_i he
    obtain ⟨k, hk⟩ := Int.eq_ofNat_of_zero_le (show 0 ≤ -e by omega)
    obtain rfl : e = -(k : Int) := by omega
    simp [pow2]

theorem roundDiv_tie {n d : Nat} (h : 0 < d) (htie : 2 * n = (2 * roundDiv n d + 1) * d ∨
    2 * roundDiv n d * d = 2 * n + d) : Even (roundDiv n d) := by
  have hdiv := Nat.div_add_mod n d
  have hmod := Nat.mod_lt n h
  unfold roundDiv at htie ⊢
  simp only [] at htie ⊢
  -- only the remainder that is half the divisor ties
  have hlow : (2 * (n / d) + 1) * d = 2 * (d * (n / d)) + d := by ring
  have hlow' : 2 * (n / d) * d = 2 * (d * (n / d)) := by ring
  have hhigh : (2 * (n / d + 1) + 1) * d = 2 * (d * (n / d)) + 3 * d := by ring
  have hhigh' : 2 * (n / d + 1) * d = 2 * (d * (n / d)) + 2 * d := by ring
  split at htie
  · rw [hlow, hlow'] at htie
    omega
  · split at htie
    · rw [hhigh, hhigh'] at htie
      omega
    · rw [if_neg ‹_›, if_neg ‹_›]
      split
      · exact Nat.even_iff.2 ‹_›
      · exact Nat.even_iff.2 (by omega)

/-- The exponent of the last of the 53 bits that are kept. -/
def lastPlace (n : Nat) : Int :=
  n.log2 - 52

/-- A natural number counted in its last place. -/
def leading (n : Nat) : Nat :=
  roundDiv (n * (scale 1 (lastPlace n)).2) (scale 1 (lastPlace n)).1

theorem leadingExponent_one {n : Nat} (hn : n ≠ 0) : leadingExponent n 1 = n.log2 := by
  have hle : ¬n * 1 < 1 * pow2 n.log2 := by
    rw [Nat.mul_one, Nat.one_mul]
    exact Nat.not_lt_of_le (Nat.log2_self_le hn)
  have hlog : (n.log2 : Int) - (Nat.log2 1 : Nat) = n.log2 := Int.sub_zero _
  unfold leadingExponent
  simp only [hlog, scale_natCast]
  exact if_neg hle

theorem round_natural {n : Nat} (hn : n ≠ 0) : double.round n 1 =
    if leading n = 2 ^ 53 then
      if 971 < lastPlace n + 1 then none else some (2 ^ 52, lastPlace n + 1)
    else if 971 < lastPlace n then none else some (leading n, lastPlace n) := by
  have hplace : max double.minExponent (leadingExponent n 1 - (double.precision - 1)) =
      lastPlace n := by
    rw [leadingExponent_one hn]
    show max (-1074) ((n.log2 : Int) - 52) = _
    unfold lastPlace
    omega
  let carried := if leading n = 2 ^ 53 then (leading n / 2, lastPlace n + 1)
    else (leading n, lastPlace n)
  have hround : double.round n 1 = if 971 < carried.2 then none else some carried := by
    unfold Format.round
    rw [if_neg hn, hplace]
    rfl
  rw [hround]
  unfold carried
  by_cases hm : leading n = 2 ^ 53
  · rw [if_pos hm, if_pos hm, hm]
    rfl
  · rw [if_neg hm, if_neg hm]

/-- The quotient that is rounded, as rational numbers. -/
theorem leading_quotient (n : Nat) : ∃ a b : Nat, 0 < a ∧ 0 < b ∧
    leading n = roundDiv (n * b) a ∧ (a : ℚ) = 2 ^ lastPlace n * b := by
  have hb := scale_pos 1 (lastPlace n)
  have hscale := scale_eq 1 (lastPlace n)
  rw [Nat.cast_one, one_mul] at hscale
  have ha : 0 < (scale 1 (lastPlace n)).1 := by
    have hb' : (0 : ℚ) < (scale 1 (lastPlace n)).2 := Nat.cast_pos.2 hb
    rw [← Nat.cast_pos (α := ℚ), hscale]
    positivity
  exact ⟨_, _, ha, hb, rfl, hscale⟩

/-- What is lost of a natural number is at most half of its last place. -/
theorem leading_near (n : Nat) :
    |(leading n : ℚ) * 2 ^ lastPlace n - n| ≤ 2 ^ lastPlace n / 2 := by
  obtain ⟨a, b, ha, hb, hm, hab⟩ := leading_quotient n
  have hb : (0 : ℚ) < b := Nat.cast_pos.2 hb
  obtain ⟨hlow, hhigh⟩ := roundDiv_near (n * b) a ha
  rw [← hm] at hlow hhigh
  have hlow : (2 * (n * b) : ℚ) ≤ (2 * leading n + 1) * a := by exact_mod_cast hlow
  have hhigh : (2 * leading n * a : ℚ) ≤ 2 * (n * b) + a := by exact_mod_cast hhigh
  rw [hab] at hlow hhigh
  have hlow : (2 * n : ℚ) ≤ (2 * leading n + 1) * 2 ^ lastPlace n :=
    le_of_mul_le_mul_right (by linarith) hb
  have hhigh : (2 * leading n * 2 ^ lastPlace n : ℚ) ≤ 2 * n + 2 ^ lastPlace n :=
    le_of_mul_le_mul_right (by linarith) hb
  rw [abs_le]
  constructor <;> linarith

/-- If half of the last place is lost, the neighbour was chosen for being even. -/
theorem leading_even {n : Nat}
    (h : |(leading n : ℚ) * 2 ^ lastPlace n - n| = 2 ^ lastPlace n / 2) : Even (leading n) := by
  obtain ⟨a, b, ha, hb, hm, hab⟩ := leading_quotient n
  -- the loss is half of the place on one side or the other
  have htie : 2 * (n * b) = (2 * leading n + 1) * a ∨ 2 * leading n * a = 2 * (n * b) + a := by
    rcases eq_or_eq_neg_of_abs_eq h with hup | hdown
    · right
      have hcast : (2 * leading n * a : ℚ) = 2 * (n * b) + a := by
        rw [hab]
        linear_combination 2 * (b : ℚ) * hup
      exact_mod_cast hcast
    · left
      have hcast : (2 * (n * b) : ℚ) = (2 * leading n + 1) * a := by
        rw [hab]
        linear_combination -2 * (b : ℚ) * hdown
      exact_mod_cast hcast
  rw [hm] at htie ⊢
  exact roundDiv_tie ha htie

theorem lastPlace_low (n : Nat) : -1074 ≤ lastPlace n := by
  unfold lastPlace
  omega

/-- A positive number has its leading bit 52 places before the last. -/
theorem lastPlace_bounds {n : Nat} (hn : n ≠ 0) :
    (2 ^ 52 * 2 ^ lastPlace n : ℚ) ≤ n ∧ (n : ℚ) < 2 ^ 53 * 2 ^ lastPlace n := by
  have hlow : (2 ^ 52 * 2 ^ lastPlace n : ℚ) = (2 ^ n.log2 : Nat) := by
    unfold lastPlace
    rw [← zpow_natCast, ← zpow_add₀ (by norm_num), Nat.cast_pow, ← zpow_natCast]
    congr 1
    push_cast
    ring
  have hhigh : (2 ^ 53 * 2 ^ lastPlace n : ℚ) = (2 ^ (n.log2 + 1) : Nat) := by
    rw [Nat.pow_succ, Nat.cast_mul, ← hlow]
    push_cast
    ring
  rw [hlow, hhigh, Nat.cast_le, Nat.cast_lt]
  exact ⟨Nat.log2_self_le hn, Nat.lt_log2_self⟩

theorem leading_bounds {n : Nat} (hn : n ≠ 0) : 2 ^ 52 ≤ leading n ∧ leading n ≤ 2 ^ 53 := by
  have hu : (0 : ℚ) < 2 ^ lastPlace n := by positivity
  obtain ⟨hlow, hhigh⟩ := lastPlace_bounds hn
  obtain ⟨hnear, hnear'⟩ := abs_le.1 (leading_near n)
  constructor
  · have hlt : ((2 ^ 52 : Nat) : ℚ) < leading n + 1 := by
      push_cast
      exact lt_of_mul_lt_mul_right (by linarith) hu.le
    exact Nat.le_of_lt_succ (by exact_mod_cast hlt)
  · have hlt : (leading n : ℚ) < (2 ^ 53 : Nat) + 1 := by
      push_cast
      exact lt_of_mul_lt_mul_right (by linarith) hu.le
    exact Nat.le_of_lt_succ (by exact_mod_cast hlt)

/-- What rounding answers is the canonical form of the leading bits. -/
theorem round_natural_some {n m : Nat} {e : Int} (hn : n ≠ 0)
    (h : double.round n 1 = some (m, e)) : Canonical m e ∧ e ≤ 971 ∧
      (m * 2 ^ e : ℚ) = leading n * 2 ^ lastPlace n ∧ (Even (leading n) → Even m) := by
  have hplace := lastPlace_low n
  obtain ⟨hlow, hhigh⟩ := leading_bounds hn
  rw [round_natural hn] at h
  split at h
  · rename_i htop
    split at h
    · cases h
    · cases h
      refine ⟨⟨by decide, by omega, .inl (Nat.le_refl _)⟩, by omega, ?_, fun _ => by decide⟩
      rw [htop, zpow_add_one₀ (by norm_num)]
      push_cast
      ring
  · split at h
    · cases h
    · cases h
      exact ⟨⟨by omega, hplace, .inl hlow⟩, by omega, rfl, id⟩

/-! ## Nearest doubles -/

/-- A finite double to which none is nearer, and none as near unless its own mantissa is even. -/
structure Nearest (q : ℚ) (x : Float) : Prop where
  finite : x.isFinite = true
  near : ∀ y : Float, y.isFinite = true → |value x - q| ≤ |value y - q|
  even : ∀ y : Float, y.isFinite = true → |value y - q| = |value x - q| →
    value y = value x ∨ ∃ negative m e, exact x = .finite negative m e ∧ Even m

theorem canonical_of_exact {x : Float} {negative : Bool} {m : Nat} {e : Int}
    (h : exact x = .finite negative m e) : Canonical m e ∧ e ≤ 971 := by
  rw [exact_eq_ofUnpacked] at h
  cases hx : x.toModel.unpack with
  | infinity s =>
      rw [hx] at h
      cases h
  | notANumber =>
      rw [hx] at h
      cases h
  | zero s =>
      rw [hx] at h
      obtain ⟨-, rfl, rfl⟩ := Exact.finite.inj h
      exact ⟨canonical_zero, by decide⟩
  | finite s k f hk =>
      rw [hx] at h
      obtain ⟨-, rfl, rfl⟩ := Exact.finite.inj h
      exact canonical_of_unpack hx

/-- A double is a multiple of a place, unless it is below all numbers with their last bit there. -/
theorem value_multiple {y : Float} (hy : y.isFinite = true) (p : Int) :
    (∃ k : ℤ, value y = k * 2 ^ p) ∨ |value y| < 2 ^ 52 * 2 ^ p := by
  obtain ⟨negative, m, e, h⟩ := isFinite_iff_exact.1 hy
  have hlt := (canonical_of_exact h).1.lt
  have hvalue : value y = (if negative then -(m : ℚ) else m) * 2 ^ e := by
    unfold value
    rw [h]
    rfl
  by_cases hpe : p ≤ e
  -- the exponent is moved down to the place
  · left
    have hshift : (2 ^ (e - p).toNat : ℚ) * 2 ^ p = 2 ^ e := by
      rw [← zpow_natCast, Int.toNat_of_nonneg (by omega), ← zpow_add₀ (by norm_num), sub_add_cancel]
    refine ⟨(if negative then -(m : ℤ) else m) * 2 ^ (e - p).toNat, ?_⟩
    rw [hvalue, ← hshift, ← mul_assoc]
    push_cast
    rfl
  -- all 53 bits stand below the leading bit of such a number
  · right
    have hsize : |value y| = m * 2 ^ e := by
      rw [hvalue, abs_mul, abs_of_pos (show (0 : ℚ) < 2 ^ e by positivity)]
      cases negative <;> simp
    have hpow : (2 ^ 53 * 2 ^ e : ℚ) ≤ 2 ^ 52 * 2 ^ p := by
      have hle : (2 ^ (e + 1) : ℚ) ≤ 2 ^ p := zpow_le_zpow_right₀ (by norm_num) (by omega)
      rw [zpow_add_one₀ (by norm_num)] at hle
      linarith
    have hm : (m : ℚ) < 2 ^ 53 := by exact_mod_cast hlt
    rw [hsize]
    exact lt_of_lt_of_le (mul_lt_mul_of_pos_right hm (by positivity)) hpow

theorem near_multiple {u q : ℚ} {m : ℤ} (hu : 0 < u) (hm : |m * u - q| ≤ u / 2) (k : ℤ) :
    |m * u - q| ≤ |k * u - q| ∧ (|k * u - q| = |m * u - q| → k = m ∨ |m * u - q| = u / 2) := by
  by_cases hk : k = m
  · rw [hk]
    exact ⟨le_rfl, fun _ => .inl rfl⟩
  · have hdiff : u ≤ |k * u - m * u| := by
      have hone : (1 : ℚ) ≤ |((k - m : ℤ) : ℚ)| := by
        rw [← Int.cast_abs]
        exact_mod_cast Int.one_le_abs (sub_ne_zero.2 hk)
      rw [← sub_mul, abs_mul, abs_of_pos hu, ← Int.cast_sub]
      exact le_mul_of_one_le_left hu.le hone
    have htriangle : |k * u - m * u| ≤ |k * u - q| + |m * u - q| := by
      rw [abs_sub_comm (m * u) q]
      exact abs_sub_le _ _ _
    exact ⟨by linarith, fun htie => .inr (by linarith)⟩

/-- A multiple of a place that is within half of it is nearest to a number that has its leading bit
52 places before. -/
theorem nearest_of_multiple {x : Float} {q : ℚ} {p : Int} {c : ℤ} (hfin : x.isFinite = true)
    (hvalue : value x = c * 2 ^ p) (hnear : |(c : ℚ) * 2 ^ p - q| ≤ 2 ^ p / 2)
    (hq : (2 ^ 52 * 2 ^ p : ℚ) ≤ |q|)
    (heven : |(c : ℚ) * 2 ^ p - q| = 2 ^ p / 2 →
      ∃ negative m e, exact x = .finite negative m e ∧ Even m) :
    Nearest q x := by
  have hu : (0 : ℚ) < 2 ^ p := by positivity
  -- what is below the place is farther than the least number with its last bit there
  have hsmall : ∀ y : Float, |value y| < 2 ^ 52 * 2 ^ p → |value x - q| < |value y - q| := by
    intro y hy
    obtain ⟨k, hk⟩ : ∃ k : ℤ, |(k : ℚ) * 2 ^ p - q| = |q| - 2 ^ 52 * 2 ^ p := by
      rcases le_total 0 q with hpos | hneg
      · rw [abs_of_nonneg hpos] at hq ⊢
        refine ⟨2 ^ 52, ?_⟩
        push_cast
        rw [abs_sub_comm, abs_of_nonneg (by linarith)]
        ring
      · rw [abs_of_nonpos hneg] at hq ⊢
        refine ⟨-2 ^ 52, ?_⟩
        push_cast
        rw [abs_of_nonneg (by linarith)]
        ring
    have hle := (near_multiple hu hnear k).1
    have htriangle : |q| - |value y| ≤ |value y - q| := by
      rw [abs_sub_comm]
      exact abs_sub_abs_le_abs_sub q (value y)
    rw [hvalue]
    linarith
  refine ⟨hfin, fun y hy => ?_, fun y hy htie => ?_⟩
  · rcases value_multiple hy p with ⟨k, hk⟩ | hlt
    · rw [hvalue, hk]
      exact (near_multiple hu hnear k).1
    · exact (hsmall y hlt).le
  · rcases value_multiple hy p with ⟨k, hk⟩ | hlt
    · rw [hvalue, hk] at htie ⊢
      rcases (near_multiple hu hnear k).2 htie with rfl | hhalf
      · exact .inl rfl
      · exact .inr (heven hhalf)
    · exact absurd htie (hsmall y hlt).ne'

/-! ## Whole numbers of any size -/

theorem value_of_finite {x : Float} {negative : Bool} {m : Nat} {e : Int}
    (h : exact x = .finite negative m e) :
    value x = (if negative then -(m : ℚ) else m) * 2 ^ e := by
  unfold value
  rw [h]
  rfl

theorem nearest_zero {x : Float} {e : Int} (h : exact x = .finite false 0 e) : Nearest 0 x := by
  have hvalue : value x = 0 := by
    rw [value_of_finite h]
    simp
  refine ⟨isFinite_iff_exact.2 ⟨_, _, _, h⟩, fun y _ => ?_, fun y _ _ => .inr ⟨_, _, _, h, .zero⟩⟩
  rw [hvalue, sub_zero, abs_zero]
  exact abs_nonneg _

theorem ofInt?_zero {x : Float} (h : ofInt? 0 = some x) : exact x = .finite false 0 (-1074) := by
  obtain rfl := Option.some.inj h
  exact exact_ofBits_encode false canonical_zero (by decide)

/-- An integer that has a double is taken to the nearest one. -/
theorem ofInt?_nearest {i : Int} {x : Float} (h : ofInt? i = some x) : Nearest i x := by
  by_cases hi : i = 0
  · subst hi
    exact nearest_zero (ofInt?_zero h)
  have hn := Int.natAbs_ne_zero.2 hi
  obtain ⟨⟨m, e⟩, hround, rfl⟩ := Option.map_eq_some_iff.1 h
  obtain ⟨hc, he, hm, heven⟩ := round_natural_some hn hround
  have hexact := exact_ofBits_encode (decide (i < 0)) hc he
  -- the sign goes to the integer that counts the last place
  have hsign : |(i.sign : ℚ)| = 1 := by
    rw [← Int.cast_abs, Int.abs_sign_of_ne_zero hi, Int.cast_one]
  have hsplit : (i : ℚ) = i.sign * i.natAbs := by
    rw [← Int.cast_natCast i.natAbs, ← Int.cast_mul, Int.sign_mul_natAbs]
  have hloss : |((i.sign * leading i.natAbs : ℤ) : ℚ) * 2 ^ lastPlace i.natAbs - i| =
      |(leading i.natAbs : ℚ) * 2 ^ lastPlace i.natAbs - i.natAbs| := by
    rw [Int.cast_mul, Int.cast_natCast, mul_assoc, hsplit, ← mul_sub, abs_mul, hsign, one_mul]
  apply nearest_of_multiple (p := lastPlace i.natAbs) (c := i.sign * leading i.natAbs)
    (isFinite_iff_exact.2 ⟨_, _, _, hexact⟩)
  · rw [value_of_finite hexact, Int.cast_mul, Int.cast_natCast, mul_assoc, ← hm, ← mul_assoc]
    congr 1
    rcases lt_or_gt_of_ne hi with hneg | hpos
    · simp [hneg, Int.sign_eq_neg_one_of_neg hneg]
    · simp [hpos.le, Int.sign_eq_one_of_pos hpos]
  · rw [hloss]
    exact leading_near _
  · rw [hsplit, abs_mul, hsign, one_mul, abs_of_nonneg (Nat.cast_nonneg _)]
    exact (lastPlace_bounds hn).1
  · intro hhalf
    rw [hloss] at hhalf
    exact ⟨_, _, _, hexact, heven (leading_even hhalf)⟩

/-! ## Overflow -/

theorem pow2_pos (k : Nat) : 0 < pow2 k :=
  Nat.two_pow_pos k

theorem pow2_lt {j k : Nat} (h : j < k) : pow2 j < pow2 k :=
  Nat.pow_lt_pow_right (by decide) h

theorem pow2_add (j k : Nat) : pow2 (j + k) = 2 ^ j * pow2 k :=
  Nat.pow_add 2 j k

theorem log2_lt_iff {n k : Nat} (hn : n ≠ 0) : n.log2 < k ↔ n < pow2 k :=
  Nat.log2_lt hn

/-- Half a unit of the last place above the largest double. -/
@[irreducible] def overflow : Nat := (2 ^ 54 - 1) * pow2 970

theorem overflow_bounds : pow2 1023 ≤ overflow ∧ overflow ≤ pow2 1024 := by
  unfold overflow
  rw [show 1023 = 53 + 970 from rfl, show 1024 = 54 + 970 from rfl, pow2_add, pow2_add]
  omega

/-- The top mantissa is reached from the half below it on, for the mantissa before it is odd. -/
theorem roundDiv_eq_top {n h : Nat} (hh : 0 < h) (hle : roundDiv n (2 * h) ≤ 2 ^ 53) :
    roundDiv n (2 * h) = 2 ^ 53 ↔ (2 ^ 54 - 1) * h ≤ n := by
  have hd : 0 < 2 * h := by omega
  obtain ⟨hlow, hhigh⟩ := roundDiv_near n (2 * h) hd
  have htie : 2 * n = (2 * roundDiv n (2 * h) + 1) * (2 * h) → Even (roundDiv n (2 * h)) :=
    fun heq => roundDiv_tie hd (.inl heq)
  generalize roundDiv n (2 * h) = q at hle hlow hhigh htie ⊢
  constructor
  · rintro rfl
    omega
  · intro hn
    by_contra hne
    rcases Nat.lt_or_ge q (2 ^ 53 - 1) with hlt | hge
    · have hmul : (2 * q + 1) * (2 * h) ≤ (2 ^ 54 - 3) * (2 * h) :=
        Nat.mul_le_mul_right _ (by omega)
      omega
    · obtain rfl : q = 2 ^ 53 - 1 := by omega
      exact absurd (htie (by omega)) (by decide)

theorem leading_top {n : Nat} (h : lastPlace n = 971) : leading n = roundDiv n (2 * pow2 970) := by
  unfold leading
  rw [h, show (971 : Int) = (1 + 970 : Nat) from rfl, scale_natCast, Nat.mul_one, Nat.one_mul,
    pow2_add, Nat.pow_one]

theorem round_natural_none {n : Nat} (hn : n ≠ 0) :
    double.round n 1 = none ↔ overflow ≤ n := by
  obtain ⟨hlow, hhigh⟩ := overflow_bounds
  have hle := (leading_bounds hn).2
  rw [round_natural hn]
  rcases lt_trichotomy (lastPlace n) 971 with hlt | heq | hgt
  -- a smaller place does not reach the greatest exponent, even with a carry
  · have hlog : n.log2 < 1023 := by
      unfold lastPlace at hlt
      omega
    have hsmall : ¬overflow ≤ n :=
      Nat.not_le_of_lt (Nat.lt_of_lt_of_le ((log2_lt_iff hn).1 hlog) hlow)
    rw [if_neg (show ¬971 < lastPlace n + 1 by omega), if_neg (show ¬971 < lastPlace n by omega)]
    split <;> simp [hsmall]
  -- in the last place of the greatest doubles, the mantissa decides
  · rw [leading_top heq] at hle ⊢
    have htop := roundDiv_eq_top (pow2_pos 970) hle
    unfold overflow
    rw [heq, if_pos (show (971 : Int) < 971 + 1 by decide), if_neg (Int.lt_irrefl 971)]
    by_cases hq : roundDiv n (2 * pow2 970) = 2 ^ 53
    · rw [if_pos hq]
      exact ⟨fun _ => htop.1 hq, fun _ => rfl⟩
    · rw [if_neg hq]
      exact ⟨nofun, fun hle => absurd (htop.2 hle) hq⟩
  · have hlog : ¬n.log2 < 1024 := by
      unfold lastPlace at hgt
      omega
    have hlarge : overflow ≤ n :=
      Nat.le_trans hhigh (Nat.le_of_not_lt fun hlt => hlog ((log2_lt_iff hn).2 hlt))
    rw [if_pos (show 971 < lastPlace n + 1 by omega), if_pos hgt]
    simp [hlarge]

/-- An integer has no double exactly from the overflow on. -/
theorem ofInt?_eq_none {i : Int} : ofInt? i = none ↔ overflow ≤ i.natAbs := by
  have hmap : ofInt? i = none ↔ double.round i.natAbs 1 = none := Option.map_eq_none_iff
  rw [hmap]
  by_cases hi : i = 0
  · have hpos : 0 < overflow := Nat.lt_of_lt_of_le (pow2_pos _) overflow_bounds.1
    subst hi
    exact ⟨nofun, fun h => absurd hpos (Nat.not_lt_of_le h)⟩
  · exact round_natural_none (Int.natAbs_ne_zero.2 hi)

/-! ## Signs -/

theorem zero_le_value {x : Float} (hx : 0 ≤ x) (hfin : x.isFinite = true) : 0 ≤ value x := by
  rw [value_eq_magnitude hx hfin]
  exact mul_nonneg (Nat.cast_nonneg _) unit_pos.le

theorem value_lt_zero {x : Float} (hx : x < 0.0) (hfin : x.isFinite = true) : value x < 0 := by
  have hfin : x.toModel.unpack.isFinite = true := hfin
  rw [lt_iff_model, show (0.0 : Float).toModel.unpack = .zero .positive from rfl] at hx
  cases h : x.toModel.unpack with
  | infinity s => rw [h] at hfin; cases hfin
  | notANumber => rw [h] at hfin; cases hfin
  | zero s => rw [h] at hx; cases hx
  | finite s m e hm =>
      rw [h] at hx
      cases s with
      | positive => cases hx
      | negative =>
          have hexact : exact x = .finite true m e := by
            rw [exact_eq_ofUnpacked, h]
            rfl
          have hpos : 0 < (m : ℚ) * 2 ^ e := by positivity
          rw [value_of_finite hexact, if_pos rfl, neg_mul]
          exact neg_lt_zero.2 hpos

theorem exact_minus_one : exact (-1.0) = .finite true (2 ^ 52) (-52) := by
  rfl

/-- Rounding to a double keeps the sign of an integer. -/
theorem Nearest.lt_zero_iff {i : Int} {x : Float} (h : Nearest i x) : x < 0.0 ↔ i < 0 := by
  constructor
  · intro hx
    by_contra hi
    have hvalue := value_lt_zero hx h.finite
    have hint : (0 : ℚ) ≤ i := Int.cast_nonneg (by omega)
    -- zero is nearer
    have hnear := h.near 0 rfl
    rw [value_zero, zero_sub, abs_neg, abs_of_nonneg hint, abs_of_nonpos (by linarith)] at hnear
    linarith
  · intro hi
    by_contra hx
    have hvalue := zero_le_value (zero_le_of_not_lt h.finite hx) h.finite
    have hint : (i : ℚ) ≤ -1 := by exact_mod_cast (by omega : i ≤ -1)
    -- minus one is nearer
    have hnear := h.near (-1.0) rfl
    have hone : value (-1.0) = -1 := by
      rw [value_of_finite exact_minus_one]
      norm_num
    rw [hone, abs_of_nonneg (by linarith), abs_of_nonneg (by linarith)] at hnear
    linarith

/-! ## Comparisons -/

theorem compareInt?_eq_iff {x : Float} {i : Int} :
    compareInt? x i = some .eq ↔ x.isFinite = true ∧ value x = i := by
  rw [isFinite_iff_exact]
  unfold compareInt?
  cases h : exact x with
  | nan => simp
  | infinite negative => cases negative <;> simp
  | finite negative m e =>
      have hpos : (0 : ℚ) < (scale m e).2 := by exact_mod_cast scale_pos m e
      have hvalue : (if negative then -((scale m e).1 : ℚ) else (scale m e).1) =
          value x * (scale m e).2 := by
        rw [value_of_finite h, scale_eq]
        split <;> ring
      simp only [Option.some_inj, Int.compare_eq_eq]
      rw [← Int.cast_inj (α := ℚ)]
      push_cast
      rw [hvalue, mul_left_inj' hpos.ne']
      simp

theorem beq_zero_iff {x : Float} : (x == 0.0) = true ↔ x.isFinite = true ∧ value x = 0 := by
  have hbeq : (x == 0.0) = (UnpackedFloat.compare x.toModel.unpack (.zero .positive) == some .eq) :=
    rfl
  have hfinite : x.isFinite = x.toModel.unpack.isFinite := rfl
  have hexact := exact_eq_ofUnpacked x
  rw [hbeq, hfinite]
  cases hx : x.toModel.unpack with
  | notANumber => simp [UnpackedFloat.compare, UnpackedFloat.isFinite]
  | infinity s => cases s <;> simp [UnpackedFloat.compare, UnpackedFloat.isFinite]
  | zero s =>
      rw [hx] at hexact
      simp [UnpackedFloat.compare, UnpackedFloat.isFinite, value_of_finite hexact]
  | finite s m e hm =>
      rw [hx] at hexact
      have hpos : (m : ℚ) * 2 ^ e ≠ 0 := by positivity
      have hvalue : value x ≠ 0 := by
        rw [value_of_finite hexact]
        cases s with
        | negative =>
            show -(m : ℚ) * 2 ^ e ≠ 0
            rw [neg_mul]
            exact neg_ne_zero.2 hpos
        | positive => exact hpos
      cases s <;> simp [UnpackedFloat.compare, hvalue]

end OptimalAssignment.Binary
