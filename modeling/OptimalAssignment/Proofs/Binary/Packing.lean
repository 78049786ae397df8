import OptimalAssignment.Proofs.Binary.Rounding

/-!
# Packing of doubles

What is read from a double is canonical, and what is rounded is read back from its packed form,
as an infinity where its exponent is beyond the format.
-/

namespace OptimalAssignment.Binary

open Float.Model (UnpackedFloat)
open Float.Model.UnpackedFloat

theorem toNat_implicit (m : BitVec 52) : (1#1 ++ m).toNat = 2 ^ 52 + m.toNat := by
  rw [BitVec.toNat_append, ← Nat.shiftLeft_add_eq_or_of_lt m.isLt]
  rfl

theorem unpack_normal (s : Sign) {x : BitVec 11} (m : BitVec 52) (hx : x ≠ -1#11) (hx' : x ≠ 0#11) :
    ∃ h, UnpackedFloat.unpack .binary64 (packComponents .binary64 s x m) =
      .finite s (2 ^ 52 + m.toNat) (x.toNat - 1075) h := by
  refine ⟨by omega, ?_⟩
  unfold UnpackedFloat.unpack
  simp only [unpackMantissa_packComponents, unpackExponent_packComponents, if_neg hx, if_neg hx']
  rw [unpackSign_packComponents, Sign.ofBitVec_toBitVec]
  simp only [toNat_implicit]
  rfl

theorem unpack_subnormal (s : Sign) {m : BitVec 52} (hm : m ≠ 0#52) :
    ∃ h, UnpackedFloat.unpack .binary64 (packComponents .binary64 s 0#11 m) =
      .finite s m.toNat (-1074) h := by
  have hpos : 0 < m.toNat := by
    rw [Nat.pos_iff_ne_zero]
    intro h
    exact hm (BitVec.eq_of_toNat_eq h)
  refine ⟨hpos, ?_⟩
  unfold UnpackedFloat.unpack
  simp only [unpackMantissa_packComponents, unpackExponent_packComponents]
  rw [unpackSign_packComponents, Sign.ofBitVec_toBitVec, if_neg (by decide), if_pos trivial,
    dif_neg hm]
  rfl

theorem unpack_infinity (s : Sign) : (Float.Model.pack (.infinity s)).unpack = .infinity s := by
  cases s <;> rfl

theorem unpack_zero (s : Sign) : (Float.Model.pack (.zero s)).unpack = .zero s := by
  cases s <;> rfl

/-! ## Reading what was packed -/

theorem unpack_pack_normal (s : Sign) {m : Nat} {e : Int} (h : 0 < m) (hm : 2 ^ 52 ≤ m)
    (hm' : m < 2 ^ 53) (he : -1074 ≤ e) (he' : e ≤ 971) :
    (Float.Model.pack (.finite s m e h)).unpack = .finite s m e h := by
  have hlog : m.log2 = 52 := (Nat.log2_eq_iff (Nat.ne_of_gt h)).2 ⟨hm, hm'⟩
  have hfield : (e + 1023 + 52).toNat < 2047 := by omega
  have hpack : UnpackedFloat.pack .binary64 (.finite s m e h) =
      packComponents .binary64 s (BitVec.ofNat 11 (e + 1023 + 52).toNat) (BitVec.ofNat 52 m) := by
    -- the exponent is in range and the mantissa has its leading bit
    show (if 2048 ≤ (e + 1023 + 52).toNat + 1 then _ else if m.log2 + 1 = 53 then _ else _) = _
    rw [if_neg (by omega), if_pos (by omega)]
    rfl
  have hx : (BitVec.ofNat 11 (e + 1023 + 52).toNat).toNat = (e + 1023 + 52).toNat := by
    rw [BitVec.toNat_ofNat]
    omega
  have hne : BitVec.ofNat 11 (e + 1023 + 52).toNat ≠ -1#11 := by
    intro heq
    rw [heq, show (-1#11 : BitVec 11).toNat = 2047 from rfl] at hx
    omega
  have hne' : BitVec.ofNat 11 (e + 1023 + 52).toNat ≠ 0#11 := by
    intro heq
    rw [heq, show (0#11 : BitVec 11).toNat = 0 from rfl] at hx
    omega
  obtain ⟨hpos, hunpack⟩ := unpack_normal s (BitVec.ofNat 52 m) hne hne'
  show UnpackedFloat.unpack .binary64 (UnpackedFloat.pack .binary64 (.finite s m e h)) = _
  rw [hpack, hunpack]
  congr 1
  · rw [BitVec.toNat_ofNat]
    omega
  · rw [hx]
    omega

theorem unpack_pack_subnormal (s : Sign) {m : Nat} (h : 0 < m) (hm : m < 2 ^ 52) :
    (Float.Model.pack (.finite s m (-1074) h)).unpack = .finite s m (-1074) h := by
  have hlog : m.log2 < 52 := (Nat.log2_lt (Nat.ne_of_gt h)).2 hm
  have hpack : UnpackedFloat.pack .binary64 (.finite s m (-1074) h) =
      packComponents .binary64 s 0#11 (BitVec.ofNat 52 m) := by
    show (if 2048 ≤ 1 + 1 then packedInfinity .binary64 s
      else if m.log2 + 1 = 53 then packComponents .binary64 s 1#11 (BitVec.ofNat 52 m)
      else packComponents .binary64 s 0#11 (BitVec.ofNat 52 m)) = _
    rw [if_neg (by decide), if_neg (by omega)]
  have hm' : (BitVec.ofNat 52 m).toNat = m := by
    rw [BitVec.toNat_ofNat, Nat.mod_eq_of_lt hm]
  have hne : BitVec.ofNat 52 m ≠ 0#52 := by
    intro heq
    rw [heq, show (0#52 : BitVec 52).toNat = 0 from rfl] at hm'
    omega
  obtain ⟨hpos, hunpack⟩ := unpack_subnormal s hne
  show UnpackedFloat.unpack .binary64 (UnpackedFloat.pack .binary64 (.finite s m (-1074) h)) = _
  rw [hpack, hunpack]
  congr 1

theorem unpack_pack_overflow (s : Sign) {m : Nat} {e : Int} (h : 0 < m) (he : 971 < e) :
    (Float.Model.pack (.finite s m e h)).unpack = .infinity s := by
  have hpack : UnpackedFloat.pack .binary64 (.finite s m e h) = packedInfinity .binary64 s := by
    show (if 2048 ≤ (e + 1023 + 52).toNat + 1 then _ else _) = _
    rw [if_pos (by omega)]
  show UnpackedFloat.unpack .binary64 (UnpackedFloat.pack .binary64 (.finite s m e h)) = _
  rw [hpack]
  exact unpack_infinity s

theorem unpack_pack_finite (s : Sign) {m : Nat} {e : Int} (h : 0 < m) (hc : Canonical m e) :
    (Float.Model.pack (.finite s m e h)).unpack =
      if e ≤ 971 then .finite s m e h else .infinity s := by
  split
  · rename_i he
    by_cases hm : 2 ^ 52 ≤ m
    · exact unpack_pack_normal s h hm hc.lt hc.low he
    · obtain rfl := hc.normal.resolve_left hm
      exact unpack_pack_subnormal s h (by omega)
  · rename_i he
    exact unpack_pack_overflow s h (by omega)

/-! ## What a double holds -/

theorem canonical_of_unpack {x : Float.Model} {s : Sign} {m : Nat} {e : Int} {h : 0 < m}
    (hx : x.unpack = .finite s m e h) : Canonical m e ∧ e ≤ 971 := by
  unfold Float.Model.unpack UnpackedFloat.unpack at hx
  simp only [] at hx
  -- the greatest field is no finite double, the least one a zero or a subnormal one
  split at hx
  · split at hx <;> cases hx
  · rename_i hmax
    split at hx
    · split at hx
      · cases hx
      · rename_i hfield _
        cases hx
        have hlt := (@unpackMantissa .binary64 x.toBits.toBitVec).isLt
        rw [hfield]
        refine ⟨⟨Nat.lt_of_lt_of_le hlt (by decide), by decide, .inr rfl⟩, by decide⟩
    · rename_i hmin
      cases hx
      have hfield : (@unpackExponent .binary64 x.toBits.toBitVec).toNat ≠ 2047 :=
        fun heq => hmax (BitVec.eq_of_toNat_eq heq)
      have hfield' : (@unpackExponent .binary64 x.toBits.toBitVec).toNat ≠ 0 :=
        fun heq => hmin (BitVec.eq_of_toNat_eq heq)
      have hlt : (@unpackExponent .binary64 x.toBits.toBitVec).toNat < 2048 :=
        (@unpackExponent .binary64 x.toBits.toBitVec).isLt
      have hlt' : (@unpackMantissa .binary64 x.toBits.toBitVec).toNat < 2 ^ 52 :=
        (@unpackMantissa .binary64 x.toBits.toBitVec).isLt
      have himplicit := toNat_implicit (@unpackMantissa .binary64 x.toBits.toBitVec)
      refine ⟨⟨?_, ?_, .inl ?_⟩, ?_⟩
      · show (1#1 ++ @unpackMantissa .binary64 x.toBits.toBitVec).toNat < 2 ^ 53
        omega
      · show -1074 ≤ ((@unpackExponent .binary64 x.toBits.toBitVec).toNat : Int) - 1075
        omega
      · show 2 ^ 52 ≤ (1#1 ++ @unpackMantissa .binary64 x.toBits.toBitVec).toNat
        omega
      · show ((@unpackExponent .binary64 x.toBits.toBitVec).toNat : Int) - 1075 ≤ 971
        omega

end OptimalAssignment.Binary
