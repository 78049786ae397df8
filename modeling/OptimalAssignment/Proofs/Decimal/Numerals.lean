import OptimalAssignment.Decimal.Reader
import OptimalAssignment.Proofs.Decimal.Layout
import OptimalAssignment.Proofs.Decimal.Shortest

/-!
# Numerals

A numeral has digits around a point, and perhaps an exponent.  It is read as the double nearest to
its value, and a layout that never leaves out the point writes digits as a numeral of their value.
-/

namespace OptimalAssignment.Decimal

open Binary Text

/-! ## Rows of digits -/

theorem ne_of_isDigit {c d : Char} (hc : c.isDigit = true) (hd : d.isDigit = false) : c ≠ d := by
  rintro rfl
  exact Bool.false_ne_true (hd.symm.trans hc)

theorem ofDigits_append (cs ds : List Char) :
    ofDigits (cs ++ ds) = ofDigits cs * 10 ^ ds.length + ofDigits ds := by
  induction ds using List.reverseRecOn with
  | nil => simp [ofDigits]
  | append_singleton ds d ih =>
      rw [← List.append_assoc, ofDigits_append_singleton, ofDigits_append_singleton, ih,
        List.length_append, List.length_singleton, pow_succ]
      ring

theorem zeros_succ (n : Nat) : zeros (n + 1) = zeros n ++ ['0'] :=
  List.replicate_succ'

theorem ofDigits_zeros (n : Nat) : ofDigits (zeros n) = 0 := by
  induction n with
  | zero => rfl
  | succ n ih =>
      rw [zeros_succ, ofDigits_append_singleton, ih]
      rfl

theorem length_zeros (n : Nat) : (zeros n).length = n :=
  List.length_replicate

/-- Digits without the zeros that end them. -/
theorem leading_digits (c : Nat) (g : Int) : ∃ k, digitsOf c = (leading c g).1 ++ zeros k := by
  have hsplit := List.takeWhile_append_dropWhile (p := (· == '0')) (l := (digitsOf c).reverse)
  have hzeros : ((digitsOf c).reverse.takeWhile (· == '0')).reverse =
      zeros ((digitsOf c).reverse.takeWhile (· == '0')).length := by
    rw [zeros, List.eq_replicate_iff, List.length_reverse]
    refine ⟨rfl, fun d hd => ?_⟩
    have hzero : (d == '0') = true :=
      List.mem_takeWhile_imp (p := (· == '0')) (List.mem_reverse.1 hd)
    exact eq_of_beq hzero
  refine ⟨((digitsOf c).reverse.takeWhile (· == '0')).length, ?_⟩
  rw [← hzeros, ← List.reverse_reverse (digitsOf c), ← hsplit, List.reverse_append]
  simp [leading]

theorem leading_ne_nil {c : Nat} (hc : 0 < c) (g : Int) : (leading c g).1 ≠ [] := by
  intro hnil
  obtain ⟨k, hk⟩ := leading_digits c g
  have hvalue := ofDigits_digitsOf c
  rw [hk, hnil, List.nil_append, ofDigits_zeros] at hvalue
  omega

/-- The place of the first digit gives a row of digits its value. -/
theorem leading_value (c : Nat) (g : Int) :
    (ofDigits (leading c g).1 : ℚ) *
      10 ^ ((leading c g).2 + 1 - (leading c g).1.length) = c * 10 ^ g := by
  obtain ⟨k, hk⟩ := leading_digits c g
  have hvalue := ofDigits_digitsOf c
  have hpower : (leading c g).2 = g + ((digitsOf c).length - 1) := rfl
  rw [hk, ofDigits_append, ofDigits_zeros, length_zeros, Nat.add_zero] at hvalue
  rw [hk, List.length_append, length_zeros] at hpower
  have hplace : (leading c g).2 + 1 - (leading c g).1.length = k + g := by omega
  have hcast : (ofDigits (leading c g).1 : ℚ) * 10 ^ k = c := by exact_mod_cast hvalue
  rw [hplace, zpow_add₀ (by norm_num), ← mul_assoc, zpow_natCast, hcast]

/-! ## Exponents -/

theorem exponentText_eq (power : Int) :
    ∃ ds, exponentText power = (if power < 0 then '-' else '+') :: ds ∧ ds ≠ [] ∧
      (∀ c ∈ ds, c.isDigit = true) ∧ ofDigits ds = power.natAbs := by
  refine ⟨zeros (2 - (digitsOf power.natAbs).length) ++ digitsOf power.natAbs, rfl, ?_, ?_, ?_⟩
  · intro hnil
    have hlength := congrArg List.length hnil
    rw [List.length_append, length_zeros, List.length_nil] at hlength
    omega
  · exact fun c hc => (List.mem_append.1 hc).elim isDigit_of_mem_zeros isDigit_of_mem_digitsOf
  · rw [ofDigits_append, ofDigits_zeros, Nat.zero_mul, Nat.zero_add, ofDigits_digitsOf]

theorem exponent?_exponentText (power : Int) : exponent? (exponentText power) = some power := by
  obtain ⟨ds, htext, hne, hdigits, hvalue⟩ := exponentText_eq power
  have hsign : sign (exponentText power) = (decide (power < 0), ds) := by
    rw [htext]
    by_cases hneg : power < 0 <;> simp [hneg, sign]
  unfold exponent?
  simp only [hsign, hvalue]
  rw [if_neg]
  · by_cases hneg : power < 0
    · rw [if_pos (decide_eq_true hneg)]
      congr 1
      omega
    · rw [if_neg (by simpa using hneg)]
      congr 1
      omega
  · rw [Bool.or_eq_true, not_or, List.isEmpty_iff, Bool.not_eq_true', Bool.not_eq_false]
    exact ⟨hne, List.all_eq_true.2 hdigits⟩

/-! ## Numerals -/

structure Numeral where
  whole : List Char
  fraction : List Char
  exponent : Option Int
  digits : ∀ c ∈ whole ++ fraction, c.isDigit = true
  begun : whole ≠ []

namespace Numeral

def tail (n : Numeral) : List Char :=
  match n.exponent with
  | none => []
  | some power => 'e' :: exponentText power

def text (n : Numeral) : List Char :=
  n.whole ++ '.' :: (n.fraction ++ n.tail)

/-- The power of ten of the last digit. -/
def power (n : Numeral) : Int :=
  n.exponent.getD 0 - n.fraction.length

def value (n : Numeral) : ℚ :=
  ofDigits (n.whole ++ n.fraction) * 10 ^ n.power

theorem head (n : Numeral) : ∃ c cs, n.text = c :: cs ∧ c.isDigit = true := by
  obtain ⟨c, cs, hwhole⟩ := List.exists_cons_of_ne_nil n.begun
  exact ⟨c, cs ++ '.' :: (n.fraction ++ n.tail), by rw [text, hwhole]; rfl,
    n.digits c (by rw [hwhole]; simp)⟩

theorem mem_text {n : Numeral} {c : Char} (h : c ∈ n.text) :
    c.isDigit = true ∨ c ∈ ['+', '-', '.', 'e'] := by
  unfold text at h
  rcases List.mem_append.1 h with hc | hc
  · exact .inl (n.digits c (List.mem_append_left _ hc))
  · rcases List.mem_cons.1 hc with rfl | hc
    · exact .inr (by decide)
    · rcases List.mem_append.1 hc with hc | hc
      · exact .inl (n.digits c (List.mem_append_right _ hc))
      · unfold tail at hc
        split at hc
        · cases hc
        · rcases List.mem_cons.1 hc with rfl | hc
          · exact .inr (by decide)
          · rcases mem_exponentText hc with hc | rfl | rfl
            · exact .inl hc
            · exact .inr (by decide)
            · exact .inr (by decide)

/-- Zeros around digits do not change what they stand for. -/
theorem value_eq {n : Numeral} {ds : List Char} {a b : Nat}
    (hdigits : n.whole ++ n.fraction = zeros a ++ ds ++ zeros b) :
    n.value = ofDigits ds * 10 ^ (n.power + b) := by
  rw [value, hdigits, ofDigits_append, ofDigits_append, ofDigits_zeros, ofDigits_zeros,
    length_zeros, zpow_add₀ (by norm_num), zpow_natCast]
  push_cast
  ring

/-! ## Reading -/

theorem tail?_tail (n : Numeral) : tail? n.tail = some (n.exponent.getD 0) := by
  unfold tail
  cases n.exponent with
  | none => rfl
  | some power => exact exponent?_exponentText power

theorem mantissa_text (n : Numeral) : mantissa n.text = (n.whole, n.fraction, n.tail) := by
  have hwhole : ∀ c ∈ n.whole, c.isDigit = true := fun c hc =>
    n.digits c (List.mem_append_left _ hc)
  have hfraction : ∀ c ∈ n.fraction, c.isDigit = true := fun c hc =>
    n.digits c (List.mem_append_right _ hc)
  have htail : n.tail.takeWhile Char.isDigit = [] ∧ n.tail.dropWhile Char.isDigit = n.tail := by
    unfold tail
    cases n.exponent <;> exact ⟨rfl, rfl⟩
  have hpoint : ∀ cs, ('.' :: cs).takeWhile Char.isDigit = [] ∧
      ('.' :: cs).dropWhile Char.isDigit = '.' :: cs := fun _ => ⟨rfl, rfl⟩
  unfold mantissa text
  rw [List.takeWhile_append_of_pos hwhole, List.dropWhile_append_of_pos hwhole, (hpoint _).1,
    (hpoint _).2, List.append_nil]
  simp only [List.takeWhile_append_of_pos hfraction, List.dropWhile_append_of_pos hfraction, htail,
    List.append_nil]

/-- A digit starts neither a sign nor a word. -/
theorem real?_digit {c : Char} {cs : List Char} (hc : c.isDigit = true) :
    real? (c :: cs) = unsigned? false (c :: cs) := by
  have hne : ∀ d : Char, d.isDigit = false → c ≠ d := fun _ => ne_of_isDigit hc
  have hlower : c.toLower = c := by
    have hle : c.val ≤ 57 := of_decide_eq_true (Bool.and_eq_true_iff.1 hc).2
    unfold Char.toLower
    rw [dif_neg]
    exact fun h => absurd (UInt32.le_trans h.1 hle) (by decide)
  have hsign : sign (c :: cs) = (false, c :: cs) := by
    unfold sign
    split
    · rename_i h
      exact absurd (List.cons.inj h).1 (hne _ rfl)
    · rename_i h
      exact absurd (List.cons.inj h).1 (hne _ rfl)
    · rfl
  have hword : word? false (c :: cs) = none := by
    unfold word?
    simp [hlower, hne 'i' rfl, hne 'n' rfl]
  unfold real?
  simp only [hsign, hword]
  rfl

/-- A numeral is read as the double nearest to its value. -/
theorem real?_text (n : Numeral) :
    real? n.text = some (nearest false (ofDigits (n.whole ++ n.fraction)) n.power) := by
  obtain ⟨c, cs, htext, hc⟩ := n.head
  rw [htext, real?_digit hc, ← htext]
  unfold unsigned?
  rw [mantissa_text]
  simp only [tail?_tail]
  rw [if_neg (by simp [n.begun])]
  rfl

/-! ## Writing -/

section
variable {ds : List Char} (hds : ∀ c ∈ ds, c.isDigit = true) (hne : ds ≠ [])

/-- Digits with the point after some of them. -/
def pointed (whole : Nat) (exponent : Option Int) (hwhole : 0 < whole) : Numeral where
  whole := ds.take whole ++ zeros (whole - ds.length)
  fraction := if (ds.drop whole).isEmpty then ['0'] else ds.drop whole
  exponent := exponent
  digits c hc := by
    rcases List.mem_append.1 hc with hc | hc
    · rcases List.mem_append.1 hc with hc | hc
      · exact hds c (List.mem_of_mem_take hc)
      · exact isDigit_of_mem_zeros hc
    · split at hc
      · exact List.mem_singleton.1 hc ▸ rfl
      · exact hds c (List.mem_of_mem_drop hc)
  begun hnil := by
    have hlength := congrArg List.length hnil
    have hpos := List.length_pos_iff.2 hne
    rw [List.length_append, List.length_take, length_zeros, List.length_nil] at hlength
    omega

theorem text_pointed (whole : Nat) (exponent : Option Int) (hwhole : 0 < whole) :
    (pointed hds hne whole exponent hwhole).text =
      ds.take whole ++ zeros (whole - ds.length) ++
        (if (ds.drop whole).isEmpty then ".0".toList else '.' :: ds.drop whole) ++
          (pointed hds hne whole exponent hwhole).tail := by
  unfold text pointed
  split <;> simp

theorem value_pointed (whole : Nat) (exponent : Option Int) (hwhole : 0 < whole) :
    (pointed hds hne whole exponent hwhole).value =
      ofDigits ds * 10 ^ (exponent.getD 0 + whole - ds.length) := by
  by_cases hdrop : ds.length ≤ whole
  · have hfraction : (pointed hds hne whole exponent hwhole).fraction = ['0'] :=
      if_pos (by rw [List.drop_eq_nil_of_le hdrop]; rfl)
    rw [value_eq (a := 0) (b := whole - ds.length + 1)]
    · congr 2
      unfold power
      rw [hfraction]
      show exponent.getD 0 - 1 + _ = _
      omega
    · rw [hfraction]
      show ds.take whole ++ zeros (whole - ds.length) ++ ['0'] = _
      rw [List.take_of_length_le hdrop, zeros_succ, List.append_assoc, List.append_assoc]
      rfl
  · have hfraction : (pointed hds hne whole exponent hwhole).fraction = ds.drop whole :=
      if_neg (by rw [List.isEmpty_iff, List.drop_eq_nil_iff]; exact hdrop)
    rw [value_eq (a := 0) (b := 0)]
    · congr 2
      unfold power
      rw [hfraction, List.length_drop]
      show exponent.getD 0 - _ + _ = _
      omega
    · rw [hfraction]
      show ds.take whole ++ zeros (whole - ds.length) ++ ds.drop whole = _
      rw [Nat.sub_eq_zero_of_le (by omega)]
      simp [zeros]

/-- Digits behind a point and zeros. -/
def small (leadingZeros : Nat) : Numeral where
  whole := ['0']
  fraction := zeros leadingZeros ++ ds
  exponent := none
  digits c hc := by
    rcases List.mem_append.1 hc with hc | hc
    · exact List.mem_singleton.1 hc ▸ rfl
    · exact (List.mem_append.1 hc).elim isDigit_of_mem_zeros (hds c)
  begun := nofun

theorem value_small (leadingZeros : Nat) :
    (small hds leadingZeros).value = ofDigits ds * 10 ^ (-(leadingZeros + ds.length : Int)) := by
  rw [value_eq (a := leadingZeros + 1) (b := 0)]
  · congr 2
    show 0 - ((zeros leadingZeros ++ ds).length : Int) + 0 = _
    rw [List.length_append, length_zeros]
    omega
  · show '0' :: (zeros leadingZeros ++ ds) = _
    simp [zeros, List.replicate_succ]

end
end Numeral

/-- Layouts that never leave out the point of a number. -/
structure Layout.Pointed (l : Layout) : Prop where
  wholeTail : l.wholeTail = ".0"
  digitTail : l.digitTail = ".0"

/-- Digits are written as a numeral of their value. -/
theorem Layout.Pointed.exists_numeral {l : Layout} (hl : l.Pointed) {ds : List Char}
    (hds : ∀ c ∈ ds, c.isDigit = true) (hne : ds ≠ []) (power : Int) :
    ∃ n : Numeral, l.digits ds power = n.text ∧
      n.value = ofDigits ds * 10 ^ (power + 1 - ds.length) := by
  have hpos := List.length_pos_iff.2 hne
  unfold Layout.digits
  split
  · unfold place
    rw [hl.wholeTail]
    split
    · refine ⟨.small hds (-power - 1).toNat, ?_, ?_⟩
      · simp [Numeral.text, Numeral.small, Numeral.tail]
      · rw [Numeral.value_small]
        congr 2
        omega
    · refine ⟨.pointed hds hne (power.toNat + 1) none (Nat.succ_pos _), ?_, ?_⟩
      · rw [Numeral.text_pointed]
        exact (List.append_nil _).symm
      · rw [Numeral.value_pointed]
        congr 2
        show 0 + ((power.toNat + 1 : Nat) : Int) - _ = _
        omega
  · refine ⟨.pointed hds hne 1 (some power) Nat.one_pos, ?_, ?_⟩
    · rw [Numeral.text_pointed, Nat.sub_eq_zero_of_le hpos]
      unfold withExponent
      rw [hl.digitTail]
      show _ = ds.take 1 ++ [] ++ _ ++ 'e' :: exponentText power
      rw [List.append_nil]
    · rw [Numeral.value_pointed]
      rfl

end OptimalAssignment.Decimal
