import Mathlib.Algebra.BigOperators.Group.Finset.Sigma
import Mathlib.Tactic.Abel
import OptimalAssignment.Entries

/-!
# Extremes and totals

An extreme is one of the entries it is taken of, and it bounds those among which the order is total.
In exact arithmetic a pairwise total is the sum.
-/

namespace OptimalAssignment

variable {α : Type}

/-! ## Extremes -/

section Extremes

variable [LE α] [DecidableLE α]

theorem least_mem (a b : α) : least a b = a ∨ least a b = b := by
  unfold least
  split
  · exact .inl rfl
  · exact .inr rfl

theorem foldl_least_mem (xs : List α) (a : α) : xs.foldl least a ∈ a :: xs := by
  induction xs generalizing a with
  | nil => exact List.mem_singleton_self a
  | cons x xs ih =>
      rw [List.foldl_cons]
      -- the fold goes on with one of the first two entries
      rcases List.mem_cons.1 (ih (least a x)) with h | h
      · rw [h]
        rcases least_mem a x with e | e <;> rw [e] <;> simp
      · exact List.mem_cons_of_mem _ (List.mem_cons_of_mem _ h)

theorem leastOf?_mem {xs : List α} {a : α} (h : leastOf? xs = some a) : a ∈ xs := by
  cases xs with
  | nil => cases h
  | cons x xs =>
      cases h
      exact foldl_least_mem xs x

theorem leastOf?_isSome {xs : List α} {x : α} (h : x ∈ xs) : ∃ a, leastOf? xs = some a := by
  cases xs with
  | nil => cases h
  | cons y ys => exact ⟨_, rfl⟩

/-- The order is total on the entries with a property. -/
structure Ordered (α : Type) [LE α] (p : α → Prop) : Prop where
  trans : ∀ {a b c : α}, p a → p b → p c → a ≤ b → b ≤ c → a ≤ c
  total : ∀ {a b : α}, p a → p b → a ≤ b ∨ b ≤ a

theorem ordered_linear {β : Type} [LinearOrder β] : Ordered β fun _ => True where
  trans _ _ _ hab hbc := le_trans hab hbc
  total _ _ := le_total _ _

omit [DecidableLE α] in
theorem Ordered.mono {p q : α → Prop} (h : Ordered α p) (hq : ∀ {a}, q a → p a) : Ordered α q where
  trans ha hb hc hab hbc := h.trans (hq ha) (hq hb) (hq hc) hab hbc
  total ha hb := h.total (hq ha) (hq hb)

omit [DecidableLE α] in
theorem Ordered.refl {p : α → Prop} (h : Ordered α p) {a : α} (ha : p a) : a ≤ a :=
  (h.total ha ha).elim id id

theorem least_le {p : α → Prop} (h : Ordered α p) {a b : α} (ha : p a) (hb : p b) :
    least a b ≤ a ∧ least a b ≤ b := by
  unfold least
  split
  · rename_i hle
    exact ⟨h.refl ha, hle.resolve_right (absurd (h.refl ha))⟩
  · rename_i hle
    exact ⟨(h.total ha hb).resolve_left fun hab => hle (.inl hab), h.refl hb⟩

theorem foldl_least_le {p : α → Prop} (h : Ordered α p) (xs : List α) {a : α}
    (hp : ∀ b ∈ a :: xs, p b) {b : α} (hb : b ∈ a :: xs) : xs.foldl least a ≤ b := by
  induction xs generalizing a b with
  | nil =>
      rw [List.mem_singleton.1 hb]
      exact h.refl (hp a List.mem_cons_self)
  | cons x xs ih =>
      rw [List.foldl_cons]
      have ha : p a := hp a List.mem_cons_self
      have hx : p x := hp x (List.mem_cons_of_mem _ List.mem_cons_self)
      -- the order is total among the entries with the property, and the pick is one of them
      have hpick : p (least a x) := by
        rcases least_mem a x with e | e <;> rw [e]
        · exact ha
        · exact hx
      have hall : ∀ c ∈ least a x :: xs, p c := by
        intro c hc
        rcases List.mem_cons.1 hc with rfl | hc
        · exact hpick
        · exact hp c (List.mem_cons_of_mem _ (List.mem_cons_of_mem _ hc))
      have hrest : p (xs.foldl least (least a x)) := hall _ (foldl_least_mem xs _)
      have hhead := ih hall List.mem_cons_self
      have hboth := least_le h ha hx
      rcases List.mem_cons.1 hb with rfl | hb
      · exact h.trans hrest hpick ha hhead hboth.1
      · rcases List.mem_cons.1 hb with rfl | hb
        · exact h.trans hrest hpick hx hhead hboth.2
        · exact ih hall (List.mem_cons_of_mem _ hb)

theorem leastOf?_le {p : α → Prop} (h : Ordered α p) {xs : List α} (hp : ∀ b ∈ xs, p b) {a b : α}
    (ha : leastOf? xs = some a) (hb : b ∈ xs) : a ≤ b := by
  cases xs with
  | nil => cases ha
  | cons x xs =>
      cases ha
      exact foldl_least_le h xs hp hb

/-! An extreme of images is the image of the extreme if the order of the entries shows in them. -/

section Images

variable {β : Type} [LE β] [DecidableLE β] {f : α → β}

theorem least_map {a b : α} (ha : f a ≤ f a ↔ a ≤ a) (hab : f a ≤ f b ↔ a ≤ b) :
    least (f a) (f b) = f (least a b) := by
  simp only [least, ha, hab]
  split <;> rfl

theorem foldl_least_map (xs : List α) {a : α}
    (hf : ∀ b ∈ a :: xs, ∀ c ∈ a :: xs, (f b ≤ f c ↔ b ≤ c)) :
    (xs.map f).foldl least (f a) = f (xs.foldl least a) := by
  induction xs generalizing a with
  | nil => rfl
  | cons x xs ih =>
      have ha : a ∈ a :: x :: xs := List.mem_cons_self
      have hx : x ∈ a :: x :: xs := List.mem_cons_of_mem _ List.mem_cons_self
      have hsub : ∀ b ∈ least a x :: xs, b ∈ a :: x :: xs := by
        intro b hb
        rcases List.mem_cons.1 hb with rfl | hb
        · rcases least_mem a x with e | e <;> rw [e]
          · exact ha
          · exact hx
        · exact List.mem_cons_of_mem _ (List.mem_cons_of_mem _ hb)
      rw [List.map_cons, List.foldl_cons, List.foldl_cons, least_map (hf a ha a ha) (hf a ha x hx)]
      exact ih fun b hb c hc => hf b (hsub b hb) c (hsub c hc)

theorem leastOf?_map {xs : List α} (hf : ∀ a ∈ xs, ∀ b ∈ xs, (f a ≤ f b ↔ a ≤ b)) :
    leastOf? (xs.map f) = (leastOf? xs).map f := by
  cases xs with
  | nil => rfl
  | cons x xs => exact congrArg some (foldl_least_map xs hf)

end Images

/-! The greatest entry is the least one of the order turned around. -/

local instance decidableLEDual : DecidableLE αᵒᵈ :=
  fun a b => inferInstanceAs (Decidable (OrderDual.ofDual b ≤ OrderDual.ofDual a))

theorem greatestOf?_isSome {xs : List α} {x : α} (h : x ∈ xs) : ∃ a, greatestOf? xs = some a :=
  leastOf?_isSome (α := αᵒᵈ) h

theorem greatestOf?_mem {xs : List α} {a : α} (h : greatestOf? xs = some a) : a ∈ xs :=
  leastOf?_mem (α := αᵒᵈ) h

omit [DecidableLE α] in
theorem Ordered.dual {p : α → Prop} (h : Ordered α p) :
    Ordered αᵒᵈ fun a => p (OrderDual.ofDual a) where
  trans ha hb hc hab hbc := h.trans hc hb ha hbc hab
  total ha hb := h.total hb ha

theorem le_greatestOf? {p : α → Prop} (h : Ordered α p) {xs : List α} (hp : ∀ b ∈ xs, p b)
    {a b : α} (ha : greatestOf? xs = some a) (hb : b ∈ xs) : b ≤ a := by
  have hle := @leastOf?_le αᵒᵈ _ _ _ h.dual xs hp _ _ ha hb
  exact hle

theorem greatestOf?_map {β : Type} [LE β] [DecidableLE β] {f : α → β} {xs : List α}
    (hf : ∀ a ∈ xs, ∀ b ∈ xs, (f a ≤ f b ↔ a ≤ b)) :
    greatestOf? (xs.map f) = (greatestOf? xs).map f :=
  leastOf?_map (α := αᵒᵈ) (β := βᵒᵈ) fun a ha b hb => hf b hb a ha

end Extremes

/-! ## Totals -/

section Totals

variable [AddCommMonoid α]

theorem foldl_add_eq (xs : List α) (a : α) : xs.foldl (· + ·) a = a + xs.sum := by
  induction xs generalizing a with
  | nil => simp
  | cons x xs ih => rw [List.foldl_cons, ih, List.sum_cons, add_assoc]

theorem sum_take_eq (xs : List α) (m : Nat) :
    (xs.take m).sum = ∑ k ∈ Finset.range m, xs.getD k 0 := by
  induction m with
  | zero => simp
  | succ m ih =>
      rw [List.take_add_one, List.sum_append, ih, Finset.sum_range_succ, List.getD_eq_getElem?_getD]
      cases xs[m]? <;> simp

theorem sum_filterMap_eq {β : Type} (f : β → Option α) (bs : List β) :
    (bs.filterMap f).sum = (bs.map fun b => (f b).getD 0).sum := by
  induction bs with
  | nil => rfl
  | cons b bs ih =>
      rw [List.filterMap_cons, List.map_cons, List.sum_cons, ← ih]
      cases f b <;> simp

theorem lane_eq (xs : List α) (blocks k : Nat) :
    lane xs.toArray blocks k = ∑ b ∈ Finset.range blocks, xs.getD (8 * b + k) 0 := by
  have hsum : lane xs.toArray blocks k =
      ((List.range blocks).filterMap fun b => xs.toArray[8 * b + k]?).sum := by
    -- a lane starts with its first entry and not with zero
    unfold lane
    split
    · rename_i h
      rw [h]
      rfl
    · rename_i h
      rw [h, foldl_add_eq, List.sum_cons]
  rw [hsum, sum_filterMap_eq]
  simp only [List.getElem?_toArray, List.getD_eq_getElem?_getD]
  rfl

/-- The eight lanes hold the entries of the whole blocks. -/
theorem lanes_eq (xs : List α) (blocks : Nat) :
    (xs.take (8 * blocks)).sum = ∑ k ∈ Finset.range 8, lane xs.toArray blocks k := by
  rw [sum_take_eq]
  simp only [lane_eq]
  -- now both sides go over the same cells, once by blocks and once by lanes
  rw [Finset.sum_comm]
  induction blocks with
  | zero => simp
  | succ b ih =>
      rw [Finset.sum_range_succ, ← ih, Nat.mul_succ, Finset.sum_range_add]

theorem blockTotal_eq_sum (xs : List α) : blockTotal xs = xs.sum := by
  have hlanes := lanes_eq xs (xs.length / 8)
  simp only [Finset.sum_range_succ, Finset.sum_range_zero, zero_add] at hlanes
  unfold blockTotal
  simp only []
  -- the whole blocks, and then the entries that are left
  rw [foldl_add_eq, ← List.sum_take_add_sum_drop xs (8 * (xs.length / 8)), hlanes]
  abel

theorem pairwiseTotal_eq_sum (xs : List α) : pairwiseTotal xs = xs.sum := by
  induction xs using pairwiseTotal.induct with
  | case1 xs h => rw [pairwiseTotal, if_pos h, foldl_add_eq, zero_add]
  | case2 xs h h' => rw [pairwiseTotal, if_neg h, dif_pos h', blockTotal_eq_sum]
  | case3 xs h h' half ih₁ ih₂ =>
      rw [pairwiseTotal, if_neg h, dif_neg h']
      simp only []
      rw [ih₁, ih₂, List.sum_take_add_sum_drop]

theorem total_eq_sum (xs : List α) : total xs = xs.sum := by
  unfold total
  rw [pairwiseTotal_eq_sum, zero_add]

end Totals
end OptimalAssignment
