import OptimalAssignment.Proofs.Binary.Nearest
import OptimalAssignment.Scores.Raw

/-!
# Leaves of scores

A leaf that is converted to a finite double means that double: it is a number, rounded to the
nearest double, or a text that reads as one.  The kind of loose leaves stands above the kinds of all
of them, so a leaf that is brought to it is converted as it would be by itself.
-/

namespace OptimalAssignment

open Binary

/-! ## Values that are converted -/

namespace Value

/-- Truth values count as numbers. -/
def isNumber : Value → Bool
  | .bool _ | .int _ | .real _ => true
  | _ => false

/-- What a leaf stands for as a double: a truth value is zero or one, an integer is rounded, and a
text is read. -/
inductive Means : Value → Float → Prop where
  | bool (b : Bool) : Means (.bool b) (if b then 1.0 else 0.0)
  | int {i : Int} {x : Float} : Nearest i x → Means (.int i) x
  | real (x : Float) : Means (.real x) x
  | text {s : String} {x : Float} : Decimal.looseReal? s = some x → Means (.text s) x

theorem readReal_ok {shown s : String} {x : Float} (h : readReal shown s = .ok x) :
    Decimal.looseReal? s = some x := by
  unfold readReal at h
  split at h
  · rename_i hread
    cases h
    exact hread
  · cases h

theorem readReal_error {shown s : String} {why : ConversionError}
    (h : readReal shown s = .error why) : why = .unreadable shown := by
  unfold readReal at h
  split at h
  · cases h
  · cases h
    rfl

theorem toReal_int (i : Int) : toReal (.int i) =
    match ofInt? i with
    | some x => .ok x
    | none => .error .outOfRange :=
  rfl

/-- A leaf that is converted means its double, unless there is nothing to mean. -/
theorem means_of_ne_null {v : Value} {x : Float} (hv : v ≠ .null) (h : v.toReal = .ok x) :
    v.Means x := by
  cases v with
  | null => exact absurd rfl hv
  | bool b =>
      cases h
      exact .bool b
  | int i =>
      rw [toReal_int] at h
      split at h
      · rename_i hround
        cases h
        exact .int (ofInt?_nearest hround)
      · cases h
  | real x =>
      cases h
      exact .real x
  | text s => exact .text (readReal_ok h)
  | complex re im => cases h
  | list items => cases h
  | record fields => cases h

theorem means_of_toReal {v : Value} {x : Float} (h : v.toReal = .ok x) (hfin : x.isFinite = true) :
    v.Means x := by
  apply means_of_ne_null _ h
  rintro rfl
  cases h
  exact absurd hfin (by decide)

/-- Only whole numbers are beyond the doubles. -/
theorem toReal_outOfRange {v : Value} :
    v.toReal = .error .outOfRange ↔ ∃ i, v = .int i ∧ overflow ≤ i.natAbs := by
  constructor
  · intro h
    cases v with
    | int i =>
        rw [toReal_int] at h
        split at h
        · cases h
        · rename_i hnone
          exact ⟨i, rfl, ofInt?_eq_none.1 hnone⟩
    | text s => cases readReal_error h
    | _ => cases h
  · rintro ⟨i, rfl, hi⟩
    rw [toReal_int, ofInt?_eq_none.2 hi]

end Value

/-! ## Kinds of leaves -/

namespace Kind

/-- A kind holds what the kinds below it hold. -/
def rank : Kind → Nat
  | .bool => 0
  | .int _ | .uint _ => 1
  | .real _ => 2
  | .complex _ => 3
  | .text _ | .bytes _ => 4
  | .any => 5

/-- The kinds that loose leaves are given. -/
inductive Loose : Kind → Prop where
  | bool : Loose .bool
  | int : Loose (.int 64)
  | uint : Loose (.uint 64)
  | real : Loose (.real 64)
  | complex : Loose (.complex 128)
  | text (length : Nat) : Loose (.text length)
  | any : Loose .any

theorem loose_ofInt (i : Int) : Loose (ofInt i) := by
  unfold ofInt
  split
  · exact .int
  · split
    · exact .uint
    · exact .any

theorem one_le_rank_ofInt (i : Int) : 1 ≤ (ofInt i).rank := by
  unfold ofInt
  split
  · decide
  · split <;> decide

theorem loose_ofLeaf (v : Value) : Loose (ofLeaf v) := by
  cases v with
  | int i => exact loose_ofInt i
  | bool b => exact .bool
  | real x => exact .real
  | complex re im => exact .complex
  | text s => exact .text _
  | null => exact .any
  | list items => exact .any
  | record fields => exact .any

theorem Loose.join {k l : Kind} (hk : Loose k) (hl : Loose l) : Loose (k.join l) := by
  cases hk <;> cases hl <;> constructor

theorem rank_le_join {k l : Kind} (hk : Loose k) (hl : Loose l) :
    k.rank ≤ (k.join l).rank ∧ l.rank ≤ (k.join l).rank := by
  cases hk <;> cases hl <;> simp [Kind.join, rank]

/-- The kinds of numbers are closed under joins. -/
theorem rank_join_le_two {k l : Kind} (hk : Loose k) (hl : Loose l) (hk' : k.rank ≤ 2)
    (hl' : l.rank ≤ 2) : (k.join l).rank ≤ 2 := by
  cases hk <;> cases hl <;> simp [Kind.join, rank] at *

theorem loose_foldl {k : Kind} (hk : Loose k) (vs : List Value) :
    Loose (vs.foldl (fun k w => k.join (ofLeaf w)) k) ∧
      k.rank ≤ (vs.foldl (fun k w => k.join (ofLeaf w)) k).rank ∧
      ∀ v ∈ vs, (ofLeaf v).rank ≤ (vs.foldl (fun k w => k.join (ofLeaf w)) k).rank := by
  induction vs generalizing k with
  | nil => exact ⟨hk, Nat.le_refl _, nofun⟩
  | cons w ws ih =>
      -- the kind only rises while leaves join it
      obtain ⟨hleft, hright⟩ := rank_le_join hk (loose_ofLeaf w)
      obtain ⟨hloose, hle, hall⟩ := ih (hk.join (loose_ofLeaf w))
      rw [List.foldl_cons]
      refine ⟨hloose, Nat.le_trans hleft hle, fun v hv => ?_⟩
      rcases List.mem_cons.1 hv with rfl | hv
      · exact Nat.le_trans hright hle
      · exact hall v hv

/-- The kind of leaves stands above the kind of each. -/
theorem loose_ofLeaves (vs : List Value) :
    Loose (ofLeaves vs) ∧ ∀ v ∈ vs, (ofLeaf v).rank ≤ (ofLeaves vs).rank := by
  cases vs with
  | nil => exact ⟨.real, nofun⟩
  | cons v vs =>
      obtain ⟨hloose, hle, hall⟩ := loose_foldl (loose_ofLeaf v) vs
      refine ⟨hloose, fun w hw => ?_⟩
      rcases List.mem_cons.1 hw with rfl | hw
      · exact hle
      · exact hall w hw

theorem rank_foldl_le_two {k : Kind} (hk : Loose k) (hk' : k.rank ≤ 2) {vs : List Value}
    (h : ∀ v ∈ vs, (ofLeaf v).rank ≤ 2) :
    (vs.foldl (fun k w => k.join (ofLeaf w)) k).rank ≤ 2 := by
  induction vs generalizing k with
  | nil => exact hk'
  | cons w ws ih =>
      rw [List.foldl_cons]
      apply ih (hk.join (loose_ofLeaf w))
      · exact rank_join_le_two hk (loose_ofLeaf w) hk' (h w List.mem_cons_self)
      · exact fun v hv => h v (List.mem_cons_of_mem _ hv)

/-- Numbers are given a kind of real numbers. -/
theorem mayBeReal_ofLeaves {vs : List Value} (h : ∀ v ∈ vs, (ofLeaf v).rank ≤ 2) :
    (ofLeaves vs).mayBeReal = true := by
  have hrank : (ofLeaves vs).rank ≤ 2 := by
    cases vs with
    | nil => exact Nat.le_refl 2
    | cons v vs =>
        apply rank_foldl_le_two (loose_ofLeaf v) (h v List.mem_cons_self)
        exact fun w hw => h w (List.mem_cons_of_mem _ hw)
  cases hk : ofLeaves vs <;> rw [hk] at hrank <;> simp [rank, mayBeReal] at *

/-- A kind of whole numbers is above whole numbers and truth values. -/
theorem cases_of_rank_le_one {v : Value} (hv : (ofLeaf v).rank ≤ 1) :
    (∃ b, v = .bool b) ∨ ∃ i, v = .int i := by
  cases v with
  | bool b => exact .inl ⟨b, rfl⟩
  | int i => exact .inr ⟨i, rfl⟩
  | _ => simp [ofLeaf, rank] at hv

theorem isNumber_of_rank_le_two {v : Value} (hv : (ofLeaf v).rank ≤ 2) : v.isNumber = true := by
  cases v with
  | bool b => rfl
  | int i => rfl
  | real x => rfl
  | _ => simp [ofLeaf, rank] at hv

theorem ofLeaf_of_overflow {i : Int} (hi : overflow ≤ i.natAbs) : ofLeaf (.int i) = .any := by
  have hlarge : pow2 64 < i.natAbs :=
    Nat.lt_of_lt_of_le (pow2_lt (by decide)) (Nat.le_trans overflow_bounds.1 hi)
  have hdouble : pow2 63 < pow2 64 := pow2_lt (by decide)
  show ofInt i = _
  unfold ofInt
  rw [if_neg (by omega), if_neg (by omega)]

/-- Below a kind that may be real there are numbers only, unless it is the kind of anything. -/
theorem Loose.isNumber {k : Kind} {v : Value} (hk : Loose k) (hreal : k.mayBeReal = true)
    (hv : (ofLeaf v).rank ≤ k.rank) : k = .any ∨ v.isNumber = true := by
  cases hk with
  | any => exact .inl rfl
  | complex => cases hreal
  | text => cases hreal
  | _ => exact .inr (isNumber_of_rank_le_two (Nat.le_trans hv (by decide)))

theorem Loose.eq_any {k : Kind} (hk : Loose k) (h : Kind.any.rank ≤ k.rank) : k = .any := by
  cases hk with
  | any => rfl
  | _ => exact absurd h (by simp [rank])

theorem toReal_joined_whole {k : Kind} {v : Value} (signed : Bool) (bits : Nat)
    (hk : k.ofValue v = whole signed bits v) (hv : (ofLeaf v).rank ≤ 1) :
    Value.toReal (RawScores.joined k v) = v.toReal := by
  unfold RawScores.joined
  rw [hk]
  rcases cases_of_rank_le_one hv with ⟨b, rfl⟩ | ⟨i, rfl⟩
  · cases b <;> rfl
  -- within the bounds or not, the number stays
  · have hfit : whole signed bits (.int i) = .ok (.int i) ∨
        whole signed bits (.int i) = .error .outOfRange := ite_eq_or_eq _ _ _
    rcases hfit with h | h <;> rw [h]

/-- A leaf that is brought to a kind above its own is still converted as it would be by itself. -/
theorem toReal_joined {k : Kind} {v : Value} (hk : Loose k) (hreal : k.mayBeReal = true)
    (hv : (ofLeaf v).rank ≤ k.rank) : k.toReal (RawScores.joined k v) = v.toReal := by
  cases hk with
  | bool =>
      cases v with
      | bool b => rfl
      -- whole numbers stand above truth values
      | int i =>
          have hpos := one_le_rank_ofInt i
          exact absurd hv (Nat.not_le_of_lt hpos)
      | _ => simp [ofLeaf, rank] at hv
  | int => exact toReal_joined_whole true 64 rfl hv
  | uint => exact toReal_joined_whole false 64 rfl hv
  | real =>
      have hcell : ofValue (.real 64) v = v.toReal.map fun x => .real (narrowTo 64 x) := rfl
      unfold RawScores.joined
      rw [hcell]
      cases hread : v.toReal with
      | ok x => rfl
      | error why => exact hread
  | any => rfl
  | complex => cases hreal
  | text length => cases hreal

end Kind

end OptimalAssignment
