import OptimalAssignment.Decimal.Digits
import OptimalAssignment.Proofs.Binary.Quotients

/-!
# Shortest digits

The shortest digits of a double are rounded to it, and there always are such digits: seventeen of
them tell all doubles apart.
-/

namespace OptimalAssignment.Decimal

open Binary

/-! ## Digits of natural numbers -/

theorem digitsOf_of_lt {n : Nat} (h : n < 10) : digitsOf n = [n.digitChar] := by
  unfold digitsOf
  rw [Nat.toString_eq_repr, Nat.repr_eq_ofList_toDigits, String.toList_ofList,
    Nat.toDigits_of_lt_base h]

theorem digitsOf_of_le {n : Nat} (h : 10 ≤ n) :
    digitsOf n = digitsOf (n / 10) ++ [(n % 10).digitChar] := by
  unfold digitsOf
  rw [Nat.toString_eq_repr, Nat.toString_eq_repr, Nat.repr_eq_ofList_toDigits,
    Nat.repr_eq_ofList_toDigits, String.toList_ofList, String.toList_ofList,
    Nat.toDigits_of_base_le (by decide) h]

/-- A number with so many digits. -/
theorem length_digitsOf {n : Nat} (hn : 0 < n) :
    10 ^ (digitsOf n).length ≤ 10 * n ∧ n < 10 ^ (digitsOf n).length := by
  induction n using Nat.strong_induction_on with
  | h n ih =>
      by_cases hlt : n < 10
      · rw [digitsOf_of_lt hlt, List.length_singleton]
        omega
      · obtain ⟨hlow, hhigh⟩ := ih (n / 10) (by omega) (by omega)
        rw [digitsOf_of_le (by omega), List.length_append, List.length_singleton, Nat.pow_succ]
        omega

theorem ofDigits_append_singleton (cs : List Char) (c : Char) :
    Text.ofDigits (cs ++ [c]) = 10 * Text.ofDigits cs + Text.asciiDigit c := by
  unfold Text.ofDigits
  rw [List.foldl_append]
  rfl

theorem ofDigits_digitsOf (n : Nat) : Text.ofDigits (digitsOf n) = n := by
  have hdigit : ∀ d < 10, Text.asciiDigit d.digitChar = d := by decide
  induction n using Nat.strong_induction_on with
  | h n ih =>
      by_cases hlt : n < 10
      · rw [digitsOf_of_lt hlt, ← List.nil_append [n.digitChar], ofDigits_append_singleton,
          hdigit n hlt]
        exact Nat.zero_add n
      · rw [digitsOf_of_le (by omega), ofDigits_append_singleton, ih (n / 10) (by omega),
          hdigit _ (Nat.mod_lt n (by decide))]
        omega

/-! ## Powers of ten -/

theorem scaleTen_pos (n : Nat) (e : Int) : 0 < (scaleTen n e).2 := by
  unfold scaleTen
  split
  · exact Nat.one_pos
  · exact Nat.pow_pos (by decide)

theorem scaleTen_eq (n : Nat) (e : Int) :
    ((scaleTen n e).1 : ℚ) = n * 10 ^ e * (scaleTen n e).2 := by
  unfold scaleTen
  split
  · rename_i he
    obtain ⟨k, rfl⟩ := Int.eq_ofNat_of_zero_le he
    simp [pow10]
  · rename_i he
    obtain ⟨k, hk⟩ := Int.eq_ofNat_of_zero_le (show 0 ≤ -e by omega)
    obtain rfl : e = -(k : Int) := by omega
    simp [pow10]

/-- The power of ten of the leading digit is no more than the number. -/
theorem leadingPower_le {n d : Nat} (hn : 0 < n) (hd : 0 < d) :
    (10 : ℚ) ^ leadingPower n d ≤ n / d := by
  have hd' : (0 : ℚ) < d := Nat.cast_pos.2 hd
  have hleading : leadingPower n d =
      if n * (scaleTen d ((digitsOf n).length - (digitsOf d).length)).2 <
          (scaleTen d ((digitsOf n).length - (digitsOf d).length)).1 then
        ((digitsOf n).length : Int) - (digitsOf d).length - 1
      else ((digitsOf n).length : Int) - (digitsOf d).length := rfl
  rw [hleading]
  -- the difference of the lengths is the power, or one more than it
  have hnlow := (length_digitsOf hn).1
  have hdhigh := (length_digitsOf hd).2
  have hlow : (10 : ℚ) ^ ((digitsOf n).length : Int) ≤ 10 * n := by
    rw [zpow_natCast]
    exact_mod_cast hnlow
  have hhigh : (d : ℚ) ≤ 10 ^ ((digitsOf d).length : Int) := by
    rw [zpow_natCast]
    exact_mod_cast hdhigh.le
  generalize hk : ((digitsOf n).length : Int) - (digitsOf d).length = k
  have hb : (0 : ℚ) < (scaleTen d k).2 := Nat.cast_pos.2 (scaleTen_pos d k)
  split
  · rw [le_div_iff₀ hd', zpow_sub_one₀ (by norm_num)]
    have hle : (10 : ℚ) ^ k * d ≤ 10 * n := by
      calc (10 : ℚ) ^ k * d ≤ 10 ^ k * 10 ^ ((digitsOf d).length : Int) := by gcongr
        _ = 10 ^ ((digitsOf n).length : Int) := by
            rw [← zpow_add₀ (by norm_num), ← hk, sub_add_cancel]
        _ ≤ 10 * n := hlow
    linarith
  · rename_i hge
    have hcast : ((scaleTen d k).1 : ℚ) ≤ n * (scaleTen d k).2 := by
      exact_mod_cast Nat.le_of_not_lt hge
    rw [scaleTen_eq] at hcast
    rw [le_div_iff₀ hd', mul_comm]
    exact le_of_mul_le_mul_right hcast hb

/-! ## Intervals -/

theorem around_low {m : Nat} (hm : 0 < m) (e : Int) :
    ((Interval.around m e).low : ℚ) = 4 * (m - reach m e) := by
  unfold Interval.around reach
  show (((if m = 2 ^ 52 ∧ e ≠ -1074 then 4 * m - 1 else 4 * m - 2 : Nat)) : ℚ) = _
  split
  · rw [Nat.cast_sub (by omega)]
    push_cast
    ring
  · rw [Nat.cast_sub (by omega)]
    push_cast
    ring

theorem around_high (m : Nat) (e : Int) : ((Interval.around m e).high : ℚ) = 4 * (m + 1 / 2) := by
  unfold Interval.around
  push_cast
  ring

/-- An interval holds the decimals that are rounded to its double. -/
theorem holds_iff {m : Nat} (hm : 0 < m) {e : Int} {c : Nat} {g : Int} :
    (Interval.around m e).holds (e - 2) c g = true ↔ Around m e (c * 10 ^ g) := by
  have hb : (0 : ℚ) < (scaleTen c g).2 := Nat.cast_pos.2 (scaleTen_pos c g)
  have ht : (0 : ℚ) < (scale 1 (e - 2)).2 := Nat.cast_pos.2 (scale_pos 1 (e - 2))
  have hbt := mul_pos hb ht
  have hquarter : (2 : ℚ) ^ (e - 2) = 2 ^ e / 4 := by
    rw [zpow_sub₀ (by norm_num)]
    norm_num
  -- everything is compared over one denominator
  have hvalue : (((scaleTen c g).1 * (scale 1 (e - 2)).2 : Nat) : ℚ) =
      c * 10 ^ g * ((scaleTen c g).2 * (scale 1 (e - 2)).2) := by
    rw [Nat.cast_mul, scaleTen_eq]
    ring
  have hlow : (((Interval.around m e).low * (scale 1 (e - 2)).1 * (scaleTen c g).2 : Nat) : ℚ) =
      (m - reach m e) * 2 ^ e * ((scaleTen c g).2 * (scale 1 (e - 2)).2) := by
    rw [Nat.cast_mul, Nat.cast_mul, scale_eq, around_low hm, hquarter]
    push_cast
    ring
  have hhigh : (((Interval.around m e).high * (scale 1 (e - 2)).1 * (scaleTen c g).2 : Nat) : ℚ) =
      (m + 1 / 2) * 2 ^ e * ((scaleTen c g).2 * (scale 1 (e - 2)).2) := by
    rw [Nat.cast_mul, Nat.cast_mul, scale_eq, around_high, hquarter]
    push_cast
    ring
  unfold Interval.holds
  simp only []
  split
  · rename_i hclosed
    have heven : Even m := Nat.even_iff.2 (of_decide_eq_true hclosed)
    rw [Bool.and_eq_true, decide_eq_true_eq, decide_eq_true_eq, ← Nat.cast_le (α := ℚ),
      ← Nat.cast_le (α := ℚ), hvalue, hlow, hhigh, mul_le_mul_iff_of_pos_right hbt,
      mul_le_mul_iff_of_pos_right hbt]
    exact ⟨fun h => ⟨h.1, h.2, fun _ => heven⟩, fun h => ⟨h.low, h.high⟩⟩
  · rename_i hopen
    have hodd : ¬Even m := fun heven => hopen (decide_eq_true (Nat.even_iff.1 heven))
    rw [Bool.and_eq_true, decide_eq_true_eq, decide_eq_true_eq, ← Nat.cast_lt (α := ℚ),
      ← Nat.cast_lt (α := ℚ), hvalue, hlow, hhigh, mul_lt_mul_iff_of_pos_right hbt,
      mul_lt_mul_iff_of_pos_right hbt]
    constructor
    · exact fun h => ⟨h.1.le, h.2.le, fun htie => by
        rcases htie with htie | htie
        · exact absurd htie h.1.ne
        · exact absurd htie h.2.ne⟩
    · exact fun h => ⟨lt_of_le_of_ne h.low fun htie => hodd (h.even (.inl htie)),
        lt_of_le_of_ne h.high fun htie => hodd (h.even (.inr htie))⟩

/-! ## Grids -/

theorem overPower_pos {d : Nat} (hd : 0 < d) (n : Nat) (g : Int) : 0 < (overPower n d g).2 := by
  show 0 < (scaleTen d g).1
  unfold scaleTen
  split
  · exact Nat.mul_pos hd (Nat.pow_pos (Nat.succ_pos 9))
  · exact hd

theorem overPower_eq {n d : Nat} (hd : 0 < d) (g : Int) :
    ((overPower n d g).1 : ℚ) / (overPower n d g).2 * 10 ^ g = n / d := by
  have hd' : (0 : ℚ) < d := Nat.cast_pos.2 hd
  have hb : (0 : ℚ) < (scaleTen d g).2 := Nat.cast_pos.2 (scaleTen_pos d g)
  have hfst : (overPower n d g).1 = n * (scaleTen d g).2 := rfl
  have hsnd : (overPower n d g).2 = (scaleTen d g).1 := rfl
  rw [hfst, hsnd, scaleTen_eq, Nat.cast_mul]
  field_simp

theorem onGrid_around {m : Nat} (hm : 0 < m) {e : Int} {length : Nat} {c : Nat} {g : Int}
    (h : onGrid m e length = some (c, g)) : Around m e (c * 10 ^ g) := by
  unfold onGrid at h
  simp only [] at h
  rw [← holds_iff hm]
  generalize roundDiv _ _ = nearest at h
  generalize (if nearest = _ then _ else _) = other at h
  split at h
  · cases h
    assumption
  · split at h
    · cases h
      assumption
    · cases h

/-! ## Seventeen digits -/

/-- A decimal within half a unit of the seventeenth digit is rounded to the double. -/
theorem around_of_near {m : Nat} (hlt : m < 2 ^ 53) {e p : Int} {q : ℚ}
    (hp : (10 : ℚ) ^ p ≤ m * 2 ^ e) (hlow : m * 2 ^ e - 10 ^ (p - 16) / 2 ≤ q)
    (hhigh : q ≤ m * 2 ^ e + 10 ^ (p - 16) / 2) : Around m e q := by
  have hu : (0 : ℚ) < 2 ^ e := by positivity
  have hpow : (10 : ℚ) ^ (p - 16) = 10 ^ p / 10 ^ 16 := by
    rw [zpow_sub₀ (by norm_num)]
    norm_num
  have hm' : (m : ℚ) ≤ 2 ^ 53 := by exact_mod_cast hlt.le
  rw [hpow] at hlow hhigh
  -- with `m` below `2 ^ 53` the grid is finer than the doubles, also where these lie closer together
  have hlt : (m - reach m e) * 2 ^ e < q := by
    have hreach : (m : ℚ) / 10 ^ 16 / 2 < reach m e := by
      unfold reach
      split
      · rename_i htop
        rw [htop.1]
        norm_num
      · linarith
    have hless := mul_lt_mul_of_pos_right hreach hu
    linarith
  have hgt : q < (m + 1 / 2) * 2 ^ e := by
    have hhalf : (m : ℚ) / 10 ^ 16 / 2 < 1 / 2 := by linarith
    have hless := mul_lt_mul_of_pos_right hhalf hu
    linarith
  exact ⟨hlt.le, hgt.le, fun htie => by
    rcases htie with htie | htie
    · exact absurd htie hlt.ne
    · exact absurd htie hgt.ne⟩

/-- Rounding moves a quotient by at most a half. -/
theorem roundDiv_within {b : Nat} (hb : 0 < b) (a : Nat) :
    (a : ℚ) / b - 1 / 2 ≤ roundDiv a b ∧ (roundDiv a b : ℚ) ≤ a / b + 1 / 2 := by
  obtain ⟨hhigh, hlow⟩ := roundDiv_near a b hb
  have hb' : (0 : ℚ) < b := Nat.cast_pos.2 hb
  have hhigh' : (2 * a : ℚ) ≤ (2 * roundDiv a b + 1) * b := by exact_mod_cast hhigh
  have hlow' : (2 * roundDiv a b * b : ℚ) ≤ 2 * a + b := by exact_mod_cast hlow
  constructor
  · rw [sub_le_iff_le_add, div_le_iff₀ hb']
    linarith
  · rw [← sub_le_iff_le_add, le_div_iff₀ hb']
    linarith

/-- The nearest decimal of seventeen digits is rounded to the double. -/
theorem onGrid_seventeen {m : Nat} (hm : 0 < m) (hlt : m < 2 ^ 53) (e : Int) :
    (onGrid m e 17).isSome = true := by
  have hd := scale_pos m e
  have hvalue : ((scale m e).1 : ℚ) / (scale m e).2 = m * 2 ^ e := by
    rw [scale_eq]
    exact mul_div_cancel_right₀ _ (Nat.cast_pos.2 hd).ne'
  have hle := leadingPower_le (scale_fst_pos hm e) hd
  have hgrid : ∀ p : Int, p - ((17 : Nat) - 1 : Int) = p - 16 := fun _ => rfl
  unfold onGrid
  simp only []
  rw [hgrid]
  generalize leadingPower (scale m e).1 (scale m e).2 = p at *
  have hpoint := overPower_eq (n := (scale m e).1) hd (p - 16)
  obtain ⟨hlow, hhigh⟩ := roundDiv_within (overPower_pos hd (scale m e).1 (p - 16))
    (overPower (scale m e).1 (scale m e).2 (p - 16)).1
  generalize overPower (scale m e).1 (scale m e).2 (p - 16) = o at *
  have ht : (0 : ℚ) < 10 ^ (p - 16) := by positivity
  have hhigh' := mul_le_mul_of_nonneg_right hhigh ht.le
  have hlow' := mul_le_mul_of_nonneg_right hlow ht.le
  rw [hvalue] at hle hpoint
  rw [if_pos ((holds_iff hm).2 (around_of_near hlt hle (by linarith) (by linarith)))]
  rfl

/-- The shortest digits are rounded to the double. -/
theorem shortest_around {m : Nat} (hm : 0 < m) (hlt : m < 2 ^ 53) (e : Int) :
    Around m e ((shortest m e).1 * 10 ^ (shortest m e).2) := by
  have hsome : ((List.range 17).findSome? fun k => onGrid m e (k + 1)).isSome = true := by
    rw [List.findSome?_isSome_iff]
    exact ⟨16, by decide, onGrid_seventeen hm hlt e⟩
  obtain ⟨⟨c, g⟩, hfound⟩ := Option.isSome_iff_exists.1 hsome
  obtain ⟨k, -, hk⟩ := List.exists_of_findSome?_eq_some hfound
  unfold shortest
  rw [hfound]
  exact onGrid_around hm hk

end OptimalAssignment.Decimal
