import OptimalAssignment.Proofs.Binary.Nearest

/-!
# Rounding of quotients

A quotient is counted in the place 52 bits below its leading one, or in the last place of all
doubles, and what is nearest to the count is the mantissa.
-/

namespace OptimalAssignment.Binary

variable {n d : Nat}

/-! ## Places -/

theorem scale_fst_pos (hn : 0 < n) (e : Int) : 0 < (scale n e).1 := by
  unfold scale
  split
  · exact Nat.mul_pos hn (Nat.two_pow_pos _)
  · exact hn

theorem log2_bounds (hn : 0 < n) : (2 : ℚ) ^ (n.log2 : Int) ≤ n ∧ (n : ℚ) < 2 ^ (n.log2 + 1 : Int) := by
  have hlow := Nat.log2_self_le (Nat.ne_of_gt hn)
  have hhigh := Nat.lt_log2_self (n := n)
  constructor
  · rw [zpow_natCast]
    exact_mod_cast hlow
  · rw [← Nat.cast_succ, zpow_natCast]
    exact_mod_cast hhigh

/-- The leading bit of a quotient. -/
theorem leadingExponent_bounds (hn : 0 < n) (hd : 0 < d) :
    (2 : ℚ) ^ leadingExponent n d ≤ n / d ∧ (n : ℚ) / d < 2 ^ (leadingExponent n d + 1) := by
  obtain ⟨hnlow, hnhigh⟩ := log2_bounds hn
  obtain ⟨hdlow, hdhigh⟩ := log2_bounds hd
  have hd' : (0 : ℚ) < d := Nat.cast_pos.2 hd
  have hleading : leadingExponent n d =
      if n * (scale d ((n.log2 : Int) - d.log2)).2 < (scale d ((n.log2 : Int) - d.log2)).1 then
        (n.log2 : Int) - d.log2 - 1 else (n.log2 : Int) - d.log2 := rfl
  rw [hleading]
  -- the difference of the leading places is off by at most one
  generalize hk : (n.log2 : Int) - d.log2 = k
  have hlow : (2 : ℚ) ^ (k - 1) ≤ n / d := by
    rw [le_div_iff₀ hd']
    calc (2 : ℚ) ^ (k - 1) * d ≤ 2 ^ (k - 1) * 2 ^ (d.log2 + 1 : Int) := by gcongr
      _ = 2 ^ (n.log2 : Int) := by
          rw [← zpow_add₀ (by norm_num)]
          congr 1
          omega
      _ ≤ n := hnlow
  have hhigh : (n : ℚ) / d < 2 ^ (k + 1) := by
    rw [div_lt_iff₀ hd']
    calc (n : ℚ) < 2 ^ (n.log2 + 1 : Int) := hnhigh
      _ = 2 ^ (k + 1) * 2 ^ (d.log2 : Int) := by
          rw [← zpow_add₀ (by norm_num)]
          congr 1
          omega
      _ ≤ 2 ^ (k + 1) * d := by gcongr
  have hb : (0 : ℚ) < (scale d k).2 := Nat.cast_pos.2 (scale_pos d k)
  have hcompare : n * (scale d k).2 < (scale d k).1 ↔ (n : ℚ) / d < 2 ^ k := by
    rw [← Nat.cast_lt (α := ℚ), Nat.cast_mul, scale_eq, div_lt_iff₀ hd', mul_comm ((2 : ℚ) ^ k)]
    exact mul_lt_mul_iff_of_pos_right hb
  by_cases hlt : n * (scale d k).2 < (scale d k).1
  · rw [if_pos hlt, sub_add_cancel]
    exact ⟨hlow, hcompare.1 hlt⟩
  · rw [if_neg hlt]
    exact ⟨not_lt.1 fun h => hlt (hcompare.2 h), hhigh⟩

/-! ## Mantissas -/

/-- Two naturals that are both no more than half away are neighbours. -/
theorem neighbours_of_near {k m : Nat} (hd : 0 < d) (hlow : 2 * m * d ≤ 2 * n + d)
    (hhigh : 2 * n ≤ (2 * k + 1) * d) (hlt : k < m) :
    m = k + 1 ∧ 2 * m * d = 2 * n + d ∧ 2 * n = (2 * k + 1) * d := by
  have hk : (2 * k + 1) * d = 2 * k * d + d := by ring
  have hnext : 2 * (k + 1) * d = 2 * k * d + 2 * d := by ring
  have hstep : 2 * (k + 1) * d ≤ 2 * m * d := by
    gcongr
    exact hlt
  have hsame : 2 * m * d = 2 * (k + 1) * d := by omega
  have hm := Nat.eq_of_mul_eq_mul_right hd hsame
  exact ⟨by omega, by omega, by omega⟩

/-- A natural is what a quotient is rounded to if it is no more than half away, and even where
another one is as near. -/
theorem roundDiv_eq {m : Nat} (hd : 0 < d) (hlow : 2 * m * d ≤ 2 * n + d)
    (hhigh : 2 * n ≤ (2 * m + 1) * d)
    (heven : 2 * m * d = 2 * n + d ∨ 2 * n = (2 * m + 1) * d → Even m) : roundDiv n d = m := by
  obtain ⟨hhigh', hlow'⟩ := roundDiv_near n d hd
  have htie := roundDiv_tie (n := n) hd
  generalize roundDiv n d = k at *
  -- of two neighbours that are both half away only one is even
  rcases lt_trichotomy k m with hlt | hsame | hlt
  · obtain ⟨rfl, hbelow, habove⟩ := neighbours_of_near hd hlow hhigh' hlt
    exact absurd (htie (.inl habove)) (Nat.even_add_one.1 (heven (.inl hbelow)))
  · exact hsame
  · obtain ⟨rfl, hbelow, habove⟩ := neighbours_of_near hd hlow' hhigh hlt
    exact absurd (heven (.inr habove)) (Nat.even_add_one.1 (htie (.inr hbelow)))

/-- Where a quotient is counted. -/
def place (n d : Nat) : Int :=
  max (-1074) (leadingExponent n d - 52)

/-- A quotient counted in its place. -/
def count (n d : Nat) : Nat :=
  roundDiv (n * (scale d (place n d)).2) (scale d (place n d)).1

theorem round_quotient (hn : n ≠ 0) (d : Nat) : double.round n d =
    if count n d = 2 ^ 53 then
      if 971 < place n d + 1 then none else some (2 ^ 52, place n d + 1)
    else if 971 < place n d then none else some (count n d, place n d) := by
  let carried := if count n d = 2 ^ 53 then (count n d / 2, place n d + 1)
    else (count n d, place n d)
  have hround : double.round n d = if 971 < carried.2 then none else some carried := by
    unfold Format.round
    rw [if_neg hn]
    rfl
  rw [hround]
  unfold carried
  by_cases hm : count n d = 2 ^ 53
  · rw [if_pos hm, if_pos hm, hm]
    rfl
  · rw [if_neg hm, if_neg hm]

/-- What a quotient is rounded to in its place, as rational numbers. -/
theorem count_eq {m : Nat} (hd : 0 < d) (hlow : (m - 1 / 2) * 2 ^ place n d ≤ (n : ℚ) / d)
    (hhigh : (n : ℚ) / d ≤ (m + 1 / 2) * 2 ^ place n d)
    (heven : (m - 1 / 2) * 2 ^ place n d = (n : ℚ) / d ∨ (n : ℚ) / d = (m + 1 / 2) * 2 ^ place n d →
      Even m) : count n d = m := by
  have hd' : (0 : ℚ) < d := Nat.cast_pos.2 hd
  have hscale := scale_eq d (place n d)
  have hb : (0 : ℚ) < (scale d (place n d)).2 := Nat.cast_pos.2 (scale_pos d _)
  have ha := scale_fst_pos hd (place n d)
  unfold count
  generalize (scale d (place n d)).1 = a at *
  generalize (scale d (place n d)).2 = b at *
  generalize (2 : ℚ) ^ place n d = u at *
  rw [div_le_iff₀ hd'] at hhigh
  rw [le_div_iff₀ hd'] at hlow
  rw [eq_div_iff hd'.ne', div_eq_iff hd'.ne'] at heven
  have hcancel : ∀ {x y : ℚ}, x * b = y * b → x = y := mul_right_cancel₀ hb.ne'
  apply roundDiv_eq ha
  · have hle := mul_le_mul_of_nonneg_right hlow hb.le
    have hcast : (2 * m * a : ℚ) ≤ 2 * (n * b) + a := by
      rw [hscale]
      linarith
    exact_mod_cast hcast
  · have hle := mul_le_mul_of_nonneg_right hhigh hb.le
    have hcast : (2 * (n * b) : ℚ) ≤ (2 * m + 1) * a := by
      rw [hscale]
      linarith
    exact_mod_cast hcast
  · rintro (htie | htie)
    · have hcast : (2 * m * a : ℚ) = 2 * (n * b) + a := by exact_mod_cast htie
      rw [hscale] at hcast
      exact heven (.inl (hcancel (by linarith)))
    · have hcast : (2 * (n * b) : ℚ) = (2 * m + 1) * a := by exact_mod_cast htie
      rw [hscale] at hcast
      exact heven (.inr (hcancel (by linarith)))

theorem place_le {e : Int} (hn : 0 < n) (hd : 0 < d) (he : -1074 ≤ e)
    (h : (n : ℚ) / d < 2 ^ 53 * 2 ^ e) : place n d ≤ e := by
  have hlow := (leadingExponent_bounds hn hd).1
  have hpow : (2 : ℚ) ^ 53 * 2 ^ e = 2 ^ (53 + e) := by
    rw [zpow_add₀ (by norm_num)]
    norm_num
  have hlt := (zpow_lt_zpow_iff_right₀ (by norm_num : (1 : ℚ) < 2)).1
    (lt_of_le_of_lt hlow (hpow ▸ h))
  unfold place
  omega

theorem le_place {e : Int} (hn : 0 < n) (hd : 0 < d) (h : 2 ^ 52 * 2 ^ e ≤ (n : ℚ) / d) :
    e ≤ place n d := by
  have hhigh := (leadingExponent_bounds hn hd).2
  have hpow : (2 : ℚ) ^ 52 * 2 ^ e = 2 ^ (52 + e) := by
    rw [zpow_add₀ (by norm_num)]
    norm_num
  have hlt := (zpow_lt_zpow_iff_right₀ (by norm_num : (1 : ℚ) < 2)).1
    (lt_of_le_of_lt (hpow ▸ h) hhigh)
  unfold place
  omega

/-- How far below a double the numbers start that are rounded to it, in its last place.  Below a
power of two the doubles lie twice as close together. -/
def reach (m : Nat) (e : Int) : ℚ :=
  if m = 2 ^ 52 ∧ e ≠ -1074 then 1 / 4 else 1 / 2

theorem reach_le (m : Nat) (e : Int) : reach m e ≤ 1 / 2 := by
  unfold reach
  split <;> norm_num

/-- The quotients that are rounded to a double. -/
structure Around (m : Nat) (e : Int) (q : ℚ) : Prop where
  low : (m - reach m e) * 2 ^ e ≤ q
  high : q ≤ (m + 1 / 2) * 2 ^ e
  even : (m - reach m e) * 2 ^ e = q ∨ q = (m + 1 / 2) * 2 ^ e → Even m

namespace Around

variable {m : Nat} {e : Int}

theorem place_le (h : Around m e (n / d)) (hc : Canonical m e) (hn : 0 < n) (hd : 0 < d) :
    place n d ≤ e := by
  have hu : (0 : ℚ) < 2 ^ e := by positivity
  have hm : (m : ℚ) + 1 ≤ 2 ^ 53 := by exact_mod_cast hc.lt
  apply Binary.place_le hn hd hc.low
  calc (n : ℚ) / d ≤ (m + 1 / 2) * 2 ^ e := h.high
    _ < 2 ^ 53 * 2 ^ e := mul_lt_mul_of_pos_right (by linarith) hu

/-- In the last place of the double the quotient counts as its mantissa. -/
theorem count_eq (h : Around m e (n / d)) (hd : 0 < d) (hplace : place n d = e) :
    count n d = m := by
  have hreach := reach_le m e
  have hlow : ((m : ℚ) - 1 / 2) * 2 ^ e ≤ (m - reach m e) * 2 ^ e := by gcongr
  apply Binary.count_eq hd <;> rw [hplace]
  · exact hlow.trans h.low
  · exact h.high
  · intro htie
    by_cases htop : m = 2 ^ 52
    · exact htop ▸ (by decide)
    · have hhalf : reach m e = 1 / 2 := if_neg fun hand => htop hand.1
      exact h.even (hhalf ▸ htie)

/-- Only below a power of two there are quotients that are less than the normal mantissas. -/
theorem eq_top (h : Around m e (n / d)) (hc : Canonical m e) (hmin : e ≠ -1074)
    (hlt : (n : ℚ) / d < 2 ^ 52 * 2 ^ e) : m = 2 ^ 52 := by
  have hu : (0 : ℚ) < 2 ^ e := by positivity
  by_contra hne
  have hhalf : reach m e = 1 / 2 := if_neg fun hand => hne hand.1
  have hnormal : (2 ^ 52 : ℚ) + 1 ≤ m := by
    exact_mod_cast Nat.lt_of_le_of_ne (hc.normal.resolve_right hmin) (Ne.symm hne)
  have hlow := h.low
  rw [hhalf] at hlow
  have hge : (2 : ℚ) ^ 52 * 2 ^ e ≤ (m - 1 / 2) * 2 ^ e :=
    mul_le_mul_of_nonneg_right (by linarith) hu.le
  linarith

/-- Below a power of two the quotient is counted in the place below, where the count is carried. -/
theorem count_below (h : Around (2 ^ 52) e (n / d)) (hn : 0 < n) (hd : 0 < d) (hmin : e ≠ -1074)
    (hlt : (n : ℚ) / d < 2 ^ 52 * 2 ^ e) (hplace : place n d < e) :
    place n d = e - 1 ∧ count n d = 2 ^ 53 := by
  have hquarter : reach (2 ^ 52) e = 1 / 4 := if_pos ⟨rfl, hmin⟩
  have hhalve : (2 : ℚ) ^ e = 2 * 2 ^ (e - 1) := by
    rw [← zpow_one_add₀ (by norm_num)]
    congr 1
    omega
  have hu : (0 : ℚ) < 2 ^ (e - 1) := by positivity
  have hlow := h.low
  rw [hquarter, hhalve] at hlow
  rw [hhalve] at hlt
  push_cast at hlow
  have hbelow : place n d = e - 1 := by
    have hge := le_place (e := e - 1) hn hd (by linarith)
    omega
  refine ⟨hbelow, ?_⟩
  apply Binary.count_eq hd <;> rw [hbelow]
  · push_cast
    linarith
  · push_cast
    linarith
  · exact fun _ => by decide

end Around

theorem round_of_around {m : Nat} {e : Int} (hc : Canonical m e) (he : e ≤ 971) (hn : 0 < n)
    (hd : 0 < d) (h : Around m e (n / d)) : double.round n d = some (m, e) := by
  have hle : place n d ≤ e := h.place_le hc hn hd
  have hplace : -1074 ≤ place n d := le_max_left ..
  rw [round_quotient (Nat.ne_of_gt hn)]
  rcases hle.eq_or_lt with hsame | hless
  · rw [h.count_eq hd hsame, hsame, if_neg (Nat.ne_of_lt hc.lt), if_neg (by omega)]
  · have hlt : (n : ℚ) / d < 2 ^ 52 * 2 ^ e :=
      not_le.1 fun hle' => absurd (le_place hn hd hle') (not_le.2 hless)
    have hmin : e ≠ -1074 := by omega
    obtain rfl := h.eq_top hc hmin hlt
    obtain ⟨hbelow, hcount⟩ := h.count_below hn hd hmin hlt hless
    rw [hcount, if_pos rfl, hbelow, sub_add_cancel, if_neg (by omega)]

/-! ## Doubles -/

/-- A word of 64 bits is what encoding makes of the finite double that it stands for. -/
theorem encode_decode {word m : Nat} {negative : Bool} {e : Int} (hword : word < 2 ^ 64)
    (h : decode 11 52 word = .finite negative m e) : encode negative m e = word := by
  have hsign : (if (word / 2 ^ 63 % 2 == 1) = true then pow2 63 else 0) =
      word / 2 ^ 63 * 2 ^ 63 := by
    have hbit : word / 2 ^ 63 < 2 := by omega
    split
    · rename_i hset
      have := beq_iff_eq.1 hset
      show 2 ^ 63 = _
      omega
    · rename_i hset
      have := mt beq_iff_eq.2 hset
      omega
  have hpow : pow2 52 = 2 ^ 52 := rfl
  rw [decode_double] at h
  split at h
  · split at h <;> cases h
  · split at h
    · rename_i hfield
      obtain ⟨rfl, rfl, rfl⟩ := Exact.finite.inj h
      unfold encode
      rw [hsign, hpow, if_pos (Nat.mod_lt _ (by decide))]
      omega
    · rename_i hfield
      obtain ⟨rfl, rfl, rfl⟩ := Exact.finite.inj h
      unfold encode
      rw [hsign, hpow, if_neg (by omega)]
      omega

/-- A finite double is the one of its mantissa and exponent. -/
theorem ofBits_encode {x : Float} {negative : Bool} {m : Nat} {e : Int}
    (h : exact x = .finite negative m e) :
    Float.ofBits (UInt64.ofNat (encode negative m e)) = x := by
  rw [encode_decode x.toBits.toNat_lt h, UInt64.ofNat_toNat, Float.ofBits_toBits]

/-- There is one infinity of each sign. -/
theorem eq_infinity {x : Float} {negative : Bool} (h : exact x = .infinite negative) :
    x = infinity negative := by
  have hword : x.toBits.toNat = if negative then 0xfff0000000000000 else 0x7ff0000000000000 := by
    have hlt := x.toBits.toNat_lt
    unfold exact at h
    generalize x.toBits.toNat = word at *
    rw [decode_double] at h
    split at h
    · split at h
      · rw [← Exact.infinite.inj h]
        split
        · rename_i hset
          have := beq_iff_eq.1 hset
          omega
        · rename_i hset
          have := mt beq_iff_eq.2 hset
          omega
      · cases h
    · split at h <;> cases h
  rw [← Float.ofBits_toBits x, ← UInt64.ofNat_toNat (x := x.toBits), hword]
  cases negative <;> rfl

/-- A quotient that is rounded to a double is taken to it. -/
theorem ofQuotient_of_around {x : Float} {negative : Bool} {m : Nat} {e : Int}
    (h : exact x = .finite negative m e) (hn : 0 < n) (hd : 0 < d) (hq : Around m e (n / d)) :
    ofQuotient negative n d = x := by
  obtain ⟨hc, he⟩ := canonical_of_exact h
  unfold ofQuotient ofQuotient?
  rw [round_of_around hc he hn hd hq]
  exact ofBits_encode h

end OptimalAssignment.Binary
