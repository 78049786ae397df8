import OptimalAssignment.Proofs.Binary.Doubles

/-!
# The order of doubles

Every double has a rank: its units with their sign, the limit at an infinity, and beyond that if it
is not a number.  Doubles that are numbers are ordered by their ranks, unsigned ones by their units.
-/

namespace OptimalAssignment.Binary

open Float.Model (UnpackedFloat)
open Float.Model.UnpackedFloat

def signed : Sign → Nat → Int
  | .positive, n => n
  | .negative, n => -n

def rankOf : UnpackedFloat → Int
  | .zero _ => 0
  | .finite s m e _ => signed s (units m e)
  | .infinity s => signed s limit
  | .notANumber => limit + 1

def rank (x : Float) : Int :=
  rankOf x.toModel.unpack

/-- The mantissa is canonical, and what it stands for lies between zero and infinity. -/
def Readable : UnpackedFloat → Prop
  | .finite _ m e _ => Canonical m e ∧ 0 < units m e ∧ units m e < limit
  | _ => True

theorem readable_unpack (x : Float.Model) : Readable x.unpack := by
  cases h : x.unpack with
  | finite s m e hm =>
      obtain ⟨hc, he⟩ := canonical_of_unpack h
      exact ⟨hc, units_pos hm, (units_lt_limit_iff hc).2 he⟩
  | infinity s => trivial
  | notANumber => trivial
  | zero s => trivial

theorem compare_neg (i j : Int) : compare (-i) (-j) = (compare i j).swap := by
  rw [Int.compare_swap]
  rcases Int.lt_trichotomy i j with hlt | rfl | hgt
  · rw [Int.compare_eq_gt.2 hlt, Int.compare_eq_gt.2 (Int.neg_lt_neg hlt)]
  · rw [Int.compare_eq_eq.2 rfl, Int.compare_eq_eq.2 rfl]
  · rw [Int.compare_eq_lt.2 hgt, Int.compare_eq_lt.2 (Int.neg_lt_neg hgt)]

theorem compare_eq_compare_rank {a b : UnpackedFloat} (ha : Readable a) (hb : Readable b)
    (ha' : a ≠ .notANumber) (hb' : b ≠ .notANumber) :
    UnpackedFloat.compare a b = some (compare (rankOf a) (rankOf b)) := by
  have hlimit := limit_pos
  have hlt : ∀ {i j : Int}, i < j → some Ordering.lt = some (compare i j) := fun hij =>
    congrArg some (Int.compare_eq_lt.2 hij).symm
  have hgt : ∀ {i j : Int}, j < i → some Ordering.gt = some (compare i j) := fun hji =>
    congrArg some (Int.compare_eq_gt.2 hji).symm
  rcases a with ⟨_ | _⟩ | _ | _ | ⟨_ | _, m, e, hm⟩ <;>
    rcases b with ⟨_ | _⟩ | _ | _ | ⟨_ | _, k, f, hk⟩
  -- two finite doubles of one sign are compared by their units, all others by their kinds
  case finite.negative.finite.negative =>
    exact congrArg some ((congrArg _ (compare_eq_compare_units ha.1 hb.1)).trans
      (compare_neg _ _).symm)
  case finite.positive.finite.positive =>
    exact congrArg some (compare_eq_compare_units ha.1 hb.1)
  all_goals first
    | exact absurd rfl ha'
    | exact absurd rfl hb'
    | exact congrArg some (Int.compare_eq_eq.2 rfl).symm
    | exact hlt (by simp only [Readable, rankOf, signed] at ha hb ⊢; omega)
    | exact hgt (by simp only [Readable, rankOf, signed] at ha hb ⊢; omega)

theorem isNaN_iff {x : Float} : x.isNaN = true ↔ x.toModel.unpack = .notANumber := by
  show x.toModel.unpack.isNaN = true ↔ _
  cases x.toModel.unpack with
  | notANumber => exact ⟨fun _ => rfl, fun _ => rfl⟩
  | _ => exact ⟨nofun, nofun⟩

theorem unpack_ne_notANumber {x : Float} (hx : x.isNaN = false) :
    x.toModel.unpack ≠ .notANumber := fun h => by
  rw [isNaN_iff.2 h] at hx
  cases hx

theorem lt_iff_rank {x y : Float} (hx : x.isNaN = false) (hy : y.isNaN = false) :
    x < y ↔ rank x < rank y := by
  rw [lt_iff_model, UnpackedFloat.lt, compare_eq_compare_rank (readable_unpack _)
    (readable_unpack _) (unpack_ne_notANumber hx) (unpack_ne_notANumber hy), beq_iff_eq,
    Option.some_inj, Int.compare_eq_lt]
  rfl

theorem not_lt_of_isNaN {x y : Float} (h : x.isNaN = true ∨ y.isNaN = true) : ¬x < y := by
  rw [lt_iff_model, UnpackedFloat.lt]
  rcases h with h | h <;> rw [isNaN_iff.1 h]
  · exact nofun
  · cases x.toModel.unpack <;> exact nofun

theorem rank_of_isNaN {x : Float} (hx : x.isNaN = true) : rank x = limit + 1 := by
  rw [rank, isNaN_iff.1 hx]
  rfl

theorem rank_le_limit {x : Float} (hx : x.isNaN = false) : rank x ≤ limit := by
  have hread := readable_unpack x.toModel
  have hnumber := unpack_ne_notANumber hx
  unfold rank
  rcases h : x.toModel.unpack with ⟨_ | _⟩ | _ | _ | ⟨_ | _, m, e, hm⟩ <;> rw [h] at hread hnumber
  case notANumber => exact absurd rfl hnumber
  all_goals
    simp only [Readable, rankOf, signed] at hread ⊢
    omega

/-! ## Unsigned doubles -/

section Unsigned

variable {x y : Float}

theorem rank_of_unsigned (hx : 0 ≤ x) : x.isNaN = false ∧ rank x = magnitude x := by
  show x.toModel.unpack.isNaN = false ∧ rankOf x.toModel.unpack = unitsOf x.toModel.unpack
  rcases unsigned_cases hx with h | ⟨s, h⟩ | ⟨m, e, hm, h, -, -⟩ <;> rw [h] <;> exact ⟨rfl, rfl⟩

/-- Unsigned doubles are equal as numbers if they have the same units. -/
theorem beq_iff_magnitude (hx : 0 ≤ x) (hy : 0 ≤ y) :
    (x == y) = true ↔ magnitude x = magnitude y := by
  obtain ⟨hx', hrank⟩ := rank_of_unsigned hx
  obtain ⟨hy', hrank'⟩ := rank_of_unsigned hy
  show (UnpackedFloat.compare x.toModel.unpack y.toModel.unpack == some .eq) = true ↔ _
  rw [compare_eq_compare_rank (readable_unpack _) (readable_unpack _) (unpack_ne_notANumber hx')
    (unpack_ne_notANumber hy'), beq_iff_eq, Option.some_inj, Int.compare_eq_eq]
  show rank x = rank y ↔ _
  rw [hrank, hrank', Int.natCast_inj]

theorem not_lt_zero (hx : 0 ≤ x) : ¬x < 0.0 := by
  rw [lt_iff_model, show (0.0 : Float).toModel.unpack = .zero .positive from rfl]
  rcases unsigned_cases hx with h | ⟨s, h⟩ | ⟨m, e, hm, h, -, -⟩ <;> rw [h] <;>
    simp [UnpackedFloat.lt, UnpackedFloat.compare]

/-- Whatever stands above an unsigned double is unsigned. -/
theorem zero_le_of_le (hx : 0 ≤ x) (hxy : x ≤ y) : 0 ≤ y := by
  rw [le_iff_model] at hxy
  rw [zero_le_iff]
  -- below zero and beside the numbers, no unsigned double comes before
  rcases unsigned_cases hx with h | ⟨s, h⟩ | ⟨m, e, hm, h, -, -⟩ <;> rw [h] at hxy <;>
    rcases h' : y.toModel.unpack with ⟨_ | _⟩ | _ | _ | ⟨_ | _, k, f, hk⟩ <;> rw [h'] at hxy <;>
    trivial

end Unsigned

end OptimalAssignment.Binary
