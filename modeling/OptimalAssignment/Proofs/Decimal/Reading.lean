import OptimalAssignment.Proofs.Decimal.Numerals

/-!
# Written doubles are read back

The shortest digits of a double are rounded to it wherever the point stands, so reading what a
layout that keeps the point has written gives the double itself.
-/

namespace OptimalAssignment.Decimal

open Binary Text

/-! ## Sizes -/

theorem two_zpow_le (k : Nat) : (2 : ℚ) ^ (3 * k : Int) ≤ 10 ^ (k : Int) := by
  rw [zpow_mul, zpow_natCast, zpow_natCast]
  exact pow_le_pow_left₀ (by norm_num) (by norm_num) k

/-- What is rounded to a double is far from the powers of ten that are not looked at. -/
theorem around_bounds {m : Nat} {e : Int} {q : ℚ} (hm : 0 < m) (hc : Canonical m e) (he : e ≤ 971)
    (h : Around m e q) : (10 : ℚ) ^ (-359 : Int) ≤ q ∧ q < 10 ^ (342 : Int) := by
  have hu : (0 : ℚ) < 2 ^ e := by positivity
  constructor
  · have hone : (1 : ℚ) ≤ m := by exact_mod_cast hm
    have hreach := reach_le m e
    have hinv := inv_anti₀ (by positivity) (two_zpow_le 359)
    rw [← zpow_neg, ← zpow_neg] at hinv
    calc (10 : ℚ) ^ (-359 : Int) ≤ 2 ^ (-1077 : Int) := hinv
      _ ≤ 2 ^ (-1 + e) := zpow_le_zpow_right₀ (by norm_num) (by linarith [hc.low])
      _ = 1 / 2 * 2 ^ e := by
          rw [zpow_add₀ (by norm_num), zpow_neg_one, one_div]
      _ ≤ (m - reach m e) * 2 ^ e := by
          gcongr
          linarith
      _ ≤ q := h.low
  · have hlt : (m : ℚ) + 1 ≤ 2 ^ (53 : Int) := by exact_mod_cast hc.lt
    calc q ≤ (m + 1 / 2) * 2 ^ e := h.high
      _ < 2 ^ (53 : Int) * 2 ^ e := mul_lt_mul_of_pos_right (by linarith) hu
      _ = 2 ^ (53 + e) := (zpow_add₀ (by norm_num) _ _).symm
      _ ≤ 2 ^ (1026 : Int) := zpow_le_zpow_right₀ (by norm_num) (by linarith)
      _ ≤ 10 ^ (342 : Int) := two_zpow_le 342

theorem pos_of_around {m digits : Nat} {e power : Int} (hm : 0 < m)
    (h : Around m e (digits * 10 ^ power)) : 0 < digits := by
  have hone : (1 : ℚ) ≤ m := by exact_mod_cast hm
  have hreach := reach_le m e
  have hlow : (0 : ℚ) < (m - reach m e) * 2 ^ e := mul_pos (by linarith) (by positivity)
  rw [Nat.pos_iff_ne_zero]
  rintro rfl
  have hzero := hlow.trans_le h.low
  simp at hzero

theorem nearest_of_around {x : Float} {negative : Bool} {m digits : Nat} {e power : Int}
    (h : exact x = .finite negative m e) (hm : 0 < m) (hq : Around m e (digits * 10 ^ power)) :
    nearest negative digits power = x := by
  obtain ⟨hc, he⟩ := canonical_of_exact h
  obtain ⟨hlow, hhigh⟩ := around_bounds hm hc he hq
  have hpos := pos_of_around hm hq
  obtain ⟨hfirst, hlast⟩ := length_digitsOf hpos
  have hsize : (toString digits).length = (digitsOf digits).length := String.length_toList.symm
  have ht : (0 : ℚ) < 10 ^ power := by positivity
  have hten : (1 : ℚ) < 10 := by norm_num
  -- the place of the first digit is within the limits, so the quotient is looked at
  have hbelow : (digitsOf digits).length + power < 343 := by
    rw [← zpow_lt_zpow_iff_right₀ hten, zpow_add₀ (by norm_num), zpow_natCast]
    have hfirst' : (10 : ℚ) ^ (digitsOf digits).length ≤ 10 * digits := by exact_mod_cast hfirst
    calc (10 : ℚ) ^ (digitsOf digits).length * 10 ^ power ≤ 10 * digits * 10 ^ power := by gcongr
      _ = 10 * (digits * 10 ^ power) := mul_assoc ..
      _ < 10 * 10 ^ (342 : Int) := by gcongr
      _ = 10 ^ (343 : Int) := (zpow_one_add₀ (by norm_num) 342).symm
  have habove : -359 < (digitsOf digits).length + power := by
    rw [← zpow_lt_zpow_iff_right₀ hten, zpow_add₀ (by norm_num), zpow_natCast]
    have hlast' : (digits : ℚ) < 10 ^ (digitsOf digits).length := by exact_mod_cast hlast
    exact hlow.trans_lt (mul_lt_mul_of_pos_right hlast' ht)
  have hquotient : nearest negative digits power =
      ofQuotient negative (scaleTen digits power).1 (scaleTen digits power).2 := by
    unfold nearest scaleTen
    simp only [hsize]
    rw [if_neg (Nat.ne_of_gt hpos), if_neg (by omega), if_neg (by omega)]
    split <;> rfl
  rw [hquotient]
  apply ofQuotient_of_around h ?_ (scaleTen_pos digits power)
  · rw [scaleTen_eq, mul_div_cancel_right₀]
    · exact hq
    · exact (Nat.cast_pos.2 (scaleTen_pos digits power)).ne'
  · unfold scaleTen
    split
    · exact Nat.mul_pos hpos (Nat.pow_pos (Nat.succ_pos 9))
    · exact hpos

/-! ## Texts -/

theorem nearest_of_zero {negative : Bool} {x : Float} {e : Int}
    (h : exact x = .finite negative 0 e) (power : Int) : nearest negative 0 power = x := by
  have hencode : encode negative 0 e = encode negative 0 0 := by
    have hpow : 0 < pow2 52 := Nat.two_pow_pos 52
    unfold encode
    rw [if_pos hpow, if_pos hpow]
  rw [← ofBits_encode h, hencode]
  cases negative <;> rfl

/-- A layout that keeps the point writes a double as a numeral that is read as the double, and with
the other sign as the opposite one. -/
theorem Layout.Pointed.write_finite {l : Layout} (hl : l.Pointed) {x : Float} {negative : Bool}
    {m : Nat} {e : Int} (h : exact x = .finite negative m e) :
    ∃ n : Numeral, l.write x = Layout.signed negative n.text ∧
      ∀ {sign : Bool} {y : Float}, exact y = .finite sign m e →
        nearest sign (ofDigits (n.whole ++ n.fraction)) n.power = y := by
  by_cases hm : m = 0
  · subst hm
    have hdigit : ∀ c ∈ ['0'], c.isDigit = true := fun c hc => List.mem_singleton.1 hc ▸ rfl
    obtain ⟨n, htext, hvalue⟩ := hl.exists_numeral hdigit (List.cons_ne_nil _ _) 0
    have hdigits : ofDigits (n.whole ++ n.fraction) = 0 := by
      have hrow : ofDigits ['0'] = 0 := rfl
      rw [hrow, Nat.cast_zero, zero_mul] at hvalue
      exact Nat.cast_eq_zero.1
        ((mul_eq_zero.1 hvalue).resolve_right (zpow_ne_zero _ (by decide)))
    exact ⟨n, htext ▸ write_zero h, fun hy => hdigits ▸ nearest_of_zero hy n.power⟩
  · have hpos := Nat.pos_of_ne_zero hm
    have haround := shortest_around hpos (canonical_of_exact h).1.lt e
    obtain ⟨n, htext, hvalue⟩ := hl.exists_numeral (fun _ => isDigit_of_mem_leading)
      (leading_ne_nil (pos_of_around hpos haround) (shortest m e).2) _
    rw [leading_value] at hvalue
    unfold Numeral.value at hvalue
    rw [← hvalue] at haround
    exact ⟨n, htext ▸ Decimal.write_finite h hm, fun hy => nearest_of_around hy hpos haround⟩

end OptimalAssignment.Decimal
