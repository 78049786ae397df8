import OptimalAssignment.Proofs.Grid
import OptimalAssignment.Proofs.Results
import OptimalAssignment.Proofs.Scores.Leaves
import OptimalAssignment.Proofs.Scores.Nesting

/-!
# Inputs and their leaves

Every array that is made can be stored: its cells are as many as its shape says, and all of its
kind.  The leaves of an input are converted one by one, and they are numbers unless the kind holds
anything.  The entries of a matrix are its leaves, row by row.
-/

namespace OptimalAssignment

open Binary

/-! ## Arrays -/

namespace Kind

/-- The values of a kind. -/
inductive Holds : Kind → Value → Prop where
  | bool (b : Bool) : Holds .bool (.bool b)
  | int {bits : Nat} {i : Int} : (bounds true bits).1 ≤ i → i < (bounds true bits).2 →
      Holds (.int bits) (.int i)
  | uint {bits : Nat} {i : Int} : (bounds false bits).1 ≤ i → i < (bounds false bits).2 →
      Holds (.uint bits) (.int i)
  | real (bits : Nat) (x : Float) : Holds (.real bits) (.real x)
  | complex (bits : Nat) (re im : Float) : Holds (.complex bits) (.complex re im)
  | text (length : Nat) (s : String) : Holds (.text length) (.text s)
  | bytes (length : Nat) (s : String) : Holds (.bytes length) (.text s)
  | any (v : Value) : Holds .any v

theorem Holds.isNumber {k : Kind} {v : Value} (h : k.Holds v) (hreal : k.mayBeReal = true) :
    k = .any ∨ v.isNumber = true := by
  cases h with
  | any => exact .inl rfl
  | complex => cases hreal
  | text => cases hreal
  | bytes => cases hreal
  | _ => exact .inr rfl

theorem Holds.toReal_eq {k : Kind} {v : Value} (h : k.Holds v) (hreal : k.mayBeReal = true) :
    k.toReal v = v.toReal := by
  cases h with
  | complex => cases hreal
  | text => cases hreal
  | bytes => cases hreal
  | _ => rfl

/-- The widths of stored whole numbers. -/
def widths : List Nat := [8, 16, 32, 64]

def isStorable : Kind → Bool
  | .int bits | .uint bits => widths.contains bits
  | _ => true

/-- Truth values are within the bounds of every width. -/
theorem bool_in_bounds (signed : Bool) {bits : Nat} (hbits : bits ∈ widths) (b : Bool) :
    (bounds signed bits).1 ≤ b.toInt ∧ b.toInt < (bounds signed bits).2 := by
  have hall : ∀ signed b, ∀ bits ∈ widths,
      (bounds signed bits).1 ≤ Bool.toInt b ∧ Bool.toInt b < (bounds signed bits).2 := by decide
  exact hall signed b bits hbits

theorem bounds_lt_overflow (signed : Bool) {bits : Nat} (hbits : bits ∈ widths) {i : Int}
    (hlow : (bounds signed bits).1 ≤ i) (hhigh : i < (bounds signed bits).2) :
    i.natAbs < overflow := by
  have hall : ∀ signed, ∀ bits ∈ widths,
      -pow2 64 ≤ (bounds signed bits).1 ∧ (bounds signed bits).2 ≤ pow2 64 := by decide
  obtain ⟨hlow', hhigh'⟩ := hall signed bits hbits
  have hsmall : i.natAbs ≤ pow2 64 := by omega
  have hlarge : pow2 64 < pow2 1023 := pow2_lt (by decide)
  exact Nat.lt_of_le_of_lt hsmall (Nat.lt_of_lt_of_le hlarge overflow_bounds.1)

theorem Holds.eq_any {k : Kind} {i : Int} (h : k.Holds (.int i)) (hk : k.isStorable = true)
    (hi : overflow ≤ i.natAbs) : k = .any := by
  cases h with
  | any => rfl
  | int hlow hhigh =>
      have hlt := bounds_lt_overflow true (List.contains_iff_mem.1 hk) hlow hhigh
      exact absurd hi (Nat.not_le_of_lt hlt)
  | uint hlow hhigh =>
      have hlt := bounds_lt_overflow false (List.contains_iff_mem.1 hk) hlow hhigh
      exact absurd hi (Nat.not_le_of_lt hlt)

theorem fit_ok {signed : Bool} {bits : Nat} {i : Int} {w : Value} (h : fit signed bits i = .ok w) :
    w = .int i ∧ (bounds signed bits).1 ≤ i ∧ i < (bounds signed bits).2 := by
  unfold fit at h
  simp only [] at h
  split at h
  · cases h
    exact ⟨rfl, ‹_›⟩
  · cases h

theorem whole_ok {signed : Bool} {bits : Nat} {v w : Value} (hbits : bits ∈ widths)
    (h : whole signed bits v = .ok w) :
    ∃ i, w = .int i ∧ (bounds signed bits).1 ≤ i ∧ i < (bounds signed bits).2 := by
  cases v with
  | bool b =>
      cases h
      exact ⟨_, rfl, bool_in_bounds signed hbits b⟩
  | int i => exact ⟨i, fit_ok h⟩
  | real x =>
      simp only [whole] at h
      cases htruncate : truncate? x with
      | some i =>
          rw [htruncate] at h
          exact ⟨i, fit_ok h⟩
      | none =>
          rw [htruncate] at h
          cases h
  | text s =>
      simp only [whole] at h
      cases hread : Decimal.looseInt? s with
      | some i =>
          rw [hread] at h
          exact ⟨i, fit_ok h⟩
      | none =>
          rw [hread] at h
          cases h
  | null => cases h
  | complex re im => cases h
  | list items => cases h
  | record fields => cases h

theorem ofValue_complex (bits : Nat) (v : Value) :
    (∃ re im, ofValue (.complex bits) v = .ok (.complex re im)) ∨
      ofValue (.complex bits) v = v.toReal.map fun x => .complex (narrowTo (bits / 2) x) 0.0 := by
  cases v with
  | complex re im => exact .inl ⟨_, _, rfl⟩
  | _ => exact .inr rfl

/-- What is made a cell of a kind is a value of the kind. -/
theorem holds_of_ofValue {k : Kind} {v w : Value} (hk : k.isStorable = true)
    (h : k.ofValue v = .ok w) : k.Holds w := by
  cases k with
  | any => exact .any w
  | bool =>
      cases h
      exact .bool _
  | int bits =>
      obtain ⟨i, rfl, hlow, hhigh⟩ := whole_ok (List.contains_iff_mem.1 hk) h
      exact .int hlow hhigh
  | uint bits =>
      obtain ⟨i, rfl, hlow, hhigh⟩ := whole_ok (List.contains_iff_mem.1 hk) h
      exact .uint hlow hhigh
  | real bits =>
      obtain ⟨x, -, rfl⟩ := map_ok h
      exact .real bits _
  | complex bits =>
      rcases ofValue_complex bits v with ⟨re, im, hv⟩ | hv <;> rw [hv] at h
      · cases h
        exact .complex bits re im
      · obtain ⟨x, -, rfl⟩ := map_ok h
        exact .complex bits _ _
  | text length =>
      cases h
      exact .text length _
  | bytes length =>
      have hascii : (if isAscii v.spoken then Except.ok (Value.text (clip length v.spoken))
        else .error (ConversionError.notAscii v.spoken)) = .ok w := h
      split at hascii
      · cases hascii
        exact .bytes length _
      · cases hascii

theorem isStorable_fitted {k : Kind} (hk : k.isStorable = true) (leaves : List Value) :
    (k.fitted leaves).isStorable = true := by
  unfold fitted
  split
  · rfl
  · rfl
  · exact hk

end Kind

namespace RawScores

/-- An array as it can be stored: as many cells as its shape says, all of them of its kind. -/
structure Sound (a : RawScores) : Prop where
  size : a.cells.cells.size = a.shape.prod
  storable : a.kind.isStorable = true
  holds : ∀ v ∈ a.cells.cells, a.kind.Holds v

theorem mapExcept_ok {α β ε : Type} {f : α → Except ε β} {t : Tensor α} {u : Tensor β}
    (h : t.mapExcept f = .ok u) : u.shape = t.shape ∧
      List.Forall₂ (fun x y => f x = .ok y) t.cells.toList u.cells.toList := by
  obtain ⟨cells, hcells, rfl⟩ := map_ok h
  exact ⟨rfl, mapM_ok_iff.1 hcells⟩

/-- Whatever an array of some kind is made from, it can be stored. -/
theorem sound_of_build {kind : Kind} {v : Value} {a : RawScores} (hkind : kind.isStorable = true)
    (h : build kind v = .ok a) : a.Sound := by
  unfold build at h
  split at h
  · rename_i hany
    subst hany
    cases h
    exact ⟨Nesting.size_spread v, rfl, fun w _ => .any w⟩
  · obtain ⟨t, hregular, h⟩ := bind_ok h
    obtain ⟨u, hcells, h⟩ := bind_ok h
    cases h
    obtain ⟨hshape, hall⟩ := mapExcept_ok (mapError_ok hcells)
    obtain ⟨rfl, -⟩ := Nesting.spread_of_regular (mapError_ok hregular)
    have hfitted := Kind.isStorable_fitted hkind (Nesting.spread v).cells.toList
    refine ⟨?_, hfitted, fun w hw => ?_⟩
    · show u.cells.size = u.shape.prod
      rw [hshape, ← Nesting.size_spread, ← Array.length_toList, ← Array.length_toList,
        hall.length_eq]
    -- a cell was made from the leaf at its own place
    · obtain ⟨k, hk, rfl⟩ := List.getElem_of_mem (Array.mem_toList_iff.2 hw)
      exact Kind.holds_of_ofValue hfitted (hall.get (hall.length_eq ▸ hk) hk)

end RawScores

/-! ## Inputs -/

theorem RawScores.ofNested_ok {v : Value} {a : RawScores} (h : ofNested v = .ok a) :
    a = ⟨Kind.ofLeaves (Nesting.spread v).cells.toList,
      (Nesting.spread v).map (joined (Kind.ofLeaves (Nesting.spread v).cells.toList))⟩ := by
  obtain ⟨t, hregular, h⟩ := bind_ok h
  obtain ⟨rfl, -⟩ := Nesting.spread_of_regular hregular
  cases h
  rfl

theorem RawScores.ofNested_of_leaves {v : Value}
    (h : ∀ w ∈ (Nesting.spread v).cells, Nesting.isList w = false) :
    ofNested v = .ok ⟨Kind.ofLeaves (Nesting.spread v).cells.toList,
      (Nesting.spread v).map (joined (Kind.ofLeaves (Nesting.spread v).cells.toList))⟩ := by
  unfold ofNested
  rw [Nesting.regular_of_leaves h]
  simp [bind, Except.bind, pure, Except.pure]

/-- Lists, of whatever depth, around a single leaf. -/
theorem RawScores.ofNested_lone {v w : Value} {shape : List Nat}
    (h : Nesting.spread v = ⟨shape, #[w]⟩) (hw : Nesting.isList w = false) :
    ofNested v = .ok ⟨Kind.ofLeaves [w], ⟨shape, #[joined (Kind.ofLeaves [w]) w]⟩⟩ := by
  have hleaf : ∀ u ∈ (Nesting.spread v).cells, Nesting.isList u = false := by
    rw [h]
    simpa using hw
  rw [ofNested_of_leaves hleaf, h]
  simp [Tensor.map]

namespace ScoreInput

/-- Nested lists may hold anything.  An array has to be one that can be stored, as all arrays are
that are built from values. -/
inductive Sound : ScoreInput → Prop where
  | nested (v : Value) : Sound (.nested v)
  | stored {a : RawScores} : a.Sound → Sound (.array a)
  | built {kind : Kind} {v : Value} {a : RawScores} : kind.isStorable = true →
      RawScores.build kind v = .ok a → Sound (.array a)

theorem Sound.array {a : RawScores} (h : Sound (.array a)) : a.Sound := by
  cases h with
  | stored h => exact h
  | built hkind hbuild => exact RawScores.sound_of_build hkind hbuild

/-- What the innermost lists or the cells hold. -/
def leaves : ScoreInput → List Value
  | .nested v => (Nesting.spread v).cells.toList
  | .array a => a.cells.cells.toList

/-- The entry in a row and a column. -/
def entryAt? : ScoreInput → Nat → Nat → Option Value
  | .nested v, i, j => (Nesting.items v)[i]?.bind fun row => (Nesting.items row)[j]?
  | .array a, i, j =>
      match a.shape with
      | [r, c] => if i < r ∧ j < c then a.cells.cells[i * c + j]? else none
      | _ => none

variable {input : ScoreInput} {a : RawScores}

theorem length_leaves (hraw : input.raw = .ok a) (hsound : input.Sound) :
    input.leaves.length = a.shape.prod := by
  cases input with
  | nested v =>
      rw [RawScores.ofNested_ok hraw]
      exact Nesting.size_spread v
  | array b =>
      cases hraw
      exact hsound.array.size

/-- The kind of nested lists stands above their leaves, the kind of an array holds its cells. -/
theorem kind_cases (hraw : input.raw = .ok a) (hsound : input.Sound) {v : Value}
    (hv : v ∈ input.leaves) : (Kind.Loose a.kind ∧ (Kind.ofLeaf v).rank ≤ a.kind.rank) ∨
      (a.kind.isStorable = true ∧ a.kind.Holds v) := by
  cases input with
  | nested w =>
      obtain rfl := RawScores.ofNested_ok hraw
      obtain ⟨hloose, hrank⟩ := Kind.loose_ofLeaves (Nesting.spread w).cells.toList
      exact .inl ⟨hloose, hrank v hv⟩
  | array b =>
      cases hraw
      exact .inr ⟨hsound.array.storable, hsound.array.holds v (Array.mem_toList_iff.1 hv)⟩

/-- Where the kind is not that of anything, only numbers may be real. -/
theorem isNumber_of_mem (hraw : input.raw = .ok a) (hsound : input.Sound)
    (hreal : a.kind.mayBeReal = true) {v : Value} (hv : v ∈ input.leaves) :
    a.kind = .any ∨ v.isNumber = true := by
  rcases kind_cases hraw hsound hv with ⟨hloose, hrank⟩ | ⟨-, hholds⟩
  · exact hloose.isNumber hreal hrank
  · exact hholds.isNumber hreal

/-- Only arrays of anything hold whole numbers beyond the doubles. -/
theorem kind_of_overflow (hraw : input.raw = .ok a) (hsound : input.Sound) {i : Int}
    (hi : overflow ≤ i.natAbs) (hmem : .int i ∈ input.leaves) : a.kind = .any := by
  rcases kind_cases hraw hsound hmem with ⟨hloose, hrank⟩ | ⟨hstorable, hholds⟩
  · rw [Kind.ofLeaf_of_overflow hi] at hrank
    exact hloose.eq_any hrank
  · exact hholds.eq_any hstorable hi

/-- Every leaf is converted as it would be by itself. -/
theorem mapM_toReal (hraw : input.raw = .ok a) (hsound : input.Sound)
    (hreal : a.kind.mayBeReal = true) :
    a.cells.cells.toList.mapM a.kind.toReal = input.leaves.mapM Value.toReal := by
  cases input with
  -- the cells are the leaves brought to their kind
  | nested v =>
      obtain rfl := RawScores.ofNested_ok hraw
      obtain ⟨hloose, hrank⟩ := Kind.loose_ofLeaves (Nesting.spread v).cells.toList
      show ((Nesting.spread v).cells.map _).toList.mapM _ = _
      rw [Array.toList_map, List.mapM_map]
      exact mapM_congr fun w hw => Kind.toReal_joined hloose hreal (hrank w hw)
  -- the cells are the leaves
  | array b =>
      cases hraw
      exact mapM_congr fun w hw => (hsound.array.holds w (Array.mem_toList_iff.1 hw)).toReal_eq hreal

/-- The entries of a matrix are its leaves, row by row. -/
theorem entryAt?_eq {r c : Nat} (hraw : input.raw = .ok a) (hshape : a.shape = [r, c]) (i j : Nat) :
    input.entryAt? i j = if i < r ∧ j < c then input.leaves[i * c + j]? else none := by
  cases input with
  | nested v =>
      obtain rfl := RawScores.ofNested_ok hraw
      obtain ⟨hrows, hitems, hcells⟩ := Nesting.spread_matrix hshape
      show (Nesting.items v)[i]?.bind (fun row => (Nesting.items row)[j]?) =
        if i < r ∧ j < c then (Nesting.spread v).cells.toList[i * c + j]? else none
      -- no row has an item beyond the last column, and beyond the last row there is none
      by_cases hj : j < c
      · rw [hcells, getElem?_flatMap hitems i hj]
        by_cases hi : i < r
        · rw [if_pos ⟨hi, hj⟩]
        · rw [if_neg fun h => hi h.1, List.getElem?_eq_none (by omega)]
          rfl
      · rw [if_neg fun h => hj h.2, Option.bind_eq_none_iff]
        intro row hrow
        have hlength := hitems row (List.mem_of_getElem? hrow)
        exact List.getElem?_eq_none (by omega)
  | array b =>
      cases hraw
      show (match a.shape with
        | [r, c] => if i < r ∧ j < c then a.cells.cells[i * c + j]? else none
        | _ => none) = if i < r ∧ j < c then a.cells.cells.toList[i * c + j]? else none
      rw [hshape]
      simp only [Array.getElem?_toList]

end ScoreInput
end OptimalAssignment
