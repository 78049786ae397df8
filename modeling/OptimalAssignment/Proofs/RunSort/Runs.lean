import Mathlib.Data.List.Basic
import OptimalAssignment.RunSort

/-!
# Runs

Under a comparison that answers for any two items, a run is a first part of the items that is put in
order, and those in it that are alike stay as they stood.
-/

namespace OptimalAssignment.RunSort

variable {ε α : Type}

/-! ## Consistent comparisons -/

/-- What the comparison of two items answers. -/
def ordering (le : α → α → Bool) (x y : α) : Ordering :=
  if le x y then if le y x then .eq else .lt else .gt

theorem ordering_eq_gt {le : α → α → Bool} {x y : α} : ordering le x y = .gt ↔ ¬le x y = true := by
  unfold ordering
  split
  · rename_i hxy
    split <;> simp [hxy]
  · rename_i hxy
    simp [hxy]

/-- An item is ahead of another if it is less, or if it is like it and stood before it. -/
def Ahead (le : α → α → Bool) (before : α → α → Prop) (x y : α) : Prop :=
  le x y = true ∧ (le y x = true → before x y)

instance (le : α → α → Bool) (before : α → α → Prop) [DecidableRel before] :
    DecidableRel (Ahead le before) :=
  fun x y => inferInstanceAs (Decidable (le x y = true ∧ (le y x = true → before x y)))

abbrev Sorted (le : α → α → Bool) (before : α → α → Prop) (items : List α) : Prop :=
  items.Pairwise (Ahead le before)

/-- Any two items can be compared, and alike ones stand one before the other. -/
structure Comparable (le : α → α → Bool) (before : α → α → Prop) : Prop where
  trans : ∀ {x y z}, le x y = true → le y z = true → le x z = true
  total : ∀ x y, le x y = true ∨ le y x = true
  before_trans : ∀ {x y z}, before x y → before y z → before x z
  before_irrefl : ∀ x, ¬before x x

/-- The comparison never fails, and answers for comparable items. -/
structure Consistent (cmp : α → α → Except ε Ordering) (le : α → α → Bool)
    (before : α → α → Prop) : Prop extends Comparable le before where
  compare : ∀ x y, cmp x y = .ok (ordering le x y)

@[simp] theorem ok_bind {β γ : Type} (b : β) (f : β → Except ε γ) : (Except.ok b >>= f) = f b := rfl

namespace Comparable

variable {le : α → α → Bool} {before : α → α → Prop} (h : Comparable le before)

include h

theorem ahead_trans {x y z : α} (hxy : Ahead le before x y) (hyz : Ahead le before y z) :
    Ahead le before x z :=
  ⟨h.trans hxy.1 hyz.1, fun hzx =>
    h.before_trans (hxy.2 (h.trans hyz.1 hzx)) (hyz.2 (h.trans hzx hxy.1))⟩

theorem ahead_of_not_le {x y : α} (hyx : ¬le y x = true) : Ahead le before x y :=
  ⟨(h.total x y).resolve_right hyx, fun hle => absurd hle hyx⟩

theorem ordering_eq_lt {x y : α} : ordering le x y = .lt ↔ ¬le y x = true := by
  unfold ordering
  split
  · split
    · rename_i hyx
      simp [hyx]
    · rename_i hyx
      simp [hyx]
  · rename_i hxy
    simp [(h.total x y).resolve_left hxy]

end Comparable

namespace Consistent

variable {cmp : α → α → Except ε Ordering} {le : α → α → Bool} {before : α → α → Prop}
  (h : Consistent cmp le before)

include h

/-- The same items from the back. -/
theorem flip : Consistent (fun x y => cmp y x) (fun x y => le y x) (fun x y => before y x) where
  trans hxy hyz := h.trans hyz hxy
  total x y := h.total y x
  before_trans hxy hyz := h.before_trans hyz hxy
  before_irrefl := h.before_irrefl
  compare x y := h.compare y x

theorem less_eq (x y : α) : less cmp x y = .ok (!le y x) := by
  rw [less, h.compare, ok_bind]
  show Except.ok (ordering le x y == .lt) = _
  by_cases hyx : le y x = true
  · have hne : ordering le x y ≠ .lt := fun hlt => h.ordering_eq_lt.1 hlt hyx
    simp [hyx, hne]
  · simp [h.ordering_eq_lt.2 hyx, hyx]

/-! ## Runs -/

theorem follow_ok (kept : Ordering → Bool) (x : α) (items : List α) :
    ∃ run rest, follow cmp kept x items = .ok (run, rest) ∧ items = run ++ rest ∧
      (x :: run).IsChain fun a b => kept (ordering le a b) = true := by
  induction items generalizing x with
  | nil => exact ⟨[], [], rfl, rfl, .singleton x⟩
  | cons y items ih =>
      rw [follow, h.compare, ok_bind]
      split
      · rename_i hkept
        obtain ⟨run, rest, hfollow, hparts, hchain⟩ := ih y
        rw [hfollow, hparts]
        exact ⟨y :: run, rest, rfl, rfl, .cons_cons hkept hchain⟩
      · exact ⟨[], y :: items, rfl, rfl, .singleton x⟩

theorem sorted_of_rising {items : List α}
    (hchain : items.IsChain fun a b => (ordering le a b != .gt) = true)
    (hitems : items.Pairwise before) : Sorted le before items := by
  have htrans : Trans (fun a b => le a b = true) (fun a b => le a b = true)
    (fun a b => le a b = true) := ⟨h.trans⟩
  have hle : items.IsChain fun a b => le a b = true := by
    refine hchain.imp fun a b hab => ?_
    by_contra hnot
    simp [ordering_eq_gt.2 hnot] at hab
  exact (hle.pairwise.and hitems).imp fun hab => ⟨hab.1, fun _ => hab.2⟩

/-- No two items of a falling run are alike, so it can be turned round. -/
theorem sorted_of_falling {items : List α}
    (hchain : items.IsChain fun a b => (ordering le a b == .gt) = true) :
    Sorted le before items.reverse := by
  have htrans : Trans (fun a b => ¬le a b = true) (fun a b => ¬le a b = true)
      (fun a b => ¬le a b = true) := by
    refine ⟨fun {a b c} hab hbc hac => ?_⟩
    exact hab (h.trans hac ((h.total b c).resolve_left hbc))
  have hgt : items.IsChain fun a b => ¬le a b = true :=
    hchain.imp fun a b hab => ordering_eq_gt.1 (by simpa using hab)
  rw [Sorted, List.pairwise_reverse]
  exact hgt.pairwise.imp h.ahead_of_not_le

end Consistent

/-- The run is a first part of the items, put in order. -/
structure Cut (le : α → α → Bool) (before : α → α → Prop) (items run rest : List α) : Prop where
  sorted : Sorted le before run
  parts : ∃ first, items = first ++ rest ∧ run.Perm first
  progress : items ≠ [] → run ≠ []

namespace Cut

variable {le : α → α → Bool} {before : α → α → Prop} {items run rest : List α}

theorem perm (hc : Cut le before items run rest) : (run ++ rest).Perm items := by
  obtain ⟨first, rfl, hperm⟩ := hc.parts
  exact hperm.append_right rest

theorem rest_pairwise (hc : Cut le before items run rest) (hitems : items.Pairwise before) :
    rest.Pairwise before := by
  obtain ⟨first, rfl, -⟩ := hc.parts
  exact (List.pairwise_append.1 hitems).2.1

theorem apart (hc : Cut le before items run rest) (hitems : items.Pairwise before) :
    ∀ a ∈ run, ∀ b ∈ rest, before a b := by
  obtain ⟨first, rfl, hperm⟩ := hc.parts
  exact fun a ha b hb => (List.pairwise_append.1 hitems).2.2 a (hperm.mem_iff.1 ha) b hb

theorem length_rest (hc : Cut le before items run rest) (hitems : items ≠ []) :
    rest.length < items.length := by
  have hlen := hc.perm.length_eq
  rw [List.length_append] at hlen
  have hpos := List.length_pos_iff.2 (hc.progress hitems)
  omega

end Cut

namespace Consistent

variable {cmp : α → α → Except ε Ordering} {le : α → α → Bool} {before : α → α → Prop}
  (h : Consistent cmp le before)

include h

theorem front_cut {items : List α} (hitems : items.Pairwise before) :
    ∃ run rest, front cmp items = .ok (run, rest) ∧ Cut le before items run rest := by
  match items with
  | [] => exact ⟨[], [], rfl, .nil, ⟨[], rfl, .refl _⟩, id⟩
  | [x] => exact ⟨[x], [], rfl, List.pairwise_singleton _ x, ⟨[x], rfl, .refl _⟩, id⟩
  | x :: y :: items =>
      rw [front, h.compare, ok_bind]
      split
      · rename_i hrises
        obtain ⟨run, rest, hfollow, hparts, hchain⟩ := h.follow_ok (· != .gt) y items
        rw [hfollow]
        rw [hparts] at hitems ⊢
        refine ⟨x :: y :: run, rest, rfl, ?_, ⟨x :: y :: run, rfl, .refl _⟩, by simp⟩
        exact h.sorted_of_rising (.cons_cons hrises hchain) (List.pairwise_append.1 hitems).1
      · rename_i hfalls
        obtain ⟨run, rest, hfollow, hparts, hchain⟩ := h.follow_ok (· == .gt) y items
        rw [hfollow]
        rw [hparts]
        refine ⟨(x :: y :: run).reverse, rest, rfl, ?_, ⟨x :: y :: run, rfl, List.reverse_perm _⟩,
          by simp⟩
        exact h.sorted_of_falling (.cons_cons (by simpa using hfalls) hchain)

/-- The list is turned round: its last item is the first of the run. -/
theorem insertBack_ok {v : α} {items : List α}
    (hitems : items.Pairwise fun a b => Ahead le before b a) (hv : ∀ a ∈ items, before a v) :
    ∃ out, insertBack cmp v items = .ok out ∧ out.Perm (v :: items) ∧
      out.Pairwise fun a b => Ahead le before b a := by
  induction items with
  | nil => exact ⟨[v], rfl, .refl _, List.pairwise_singleton _ v⟩
  | cons p items ih =>
      obtain ⟨hp, hrest⟩ := List.pairwise_cons.1 hitems
      rw [insertBack, h.less_eq, ok_bind]
      by_cases hpv : le p v = true
      · -- the new item is the last that stood, so it goes behind all that are not more
        have hahead : Ahead le before p v := ⟨hpv, fun _ => hv p List.mem_cons_self⟩
        rw [hpv]
        refine ⟨v :: p :: items, rfl, .refl _, List.pairwise_cons.2 ⟨?_, hitems⟩⟩
        intro a ha
        rcases List.mem_cons.1 ha with rfl | ha
        · exact hahead
        · exact h.ahead_trans (hp a ha) hahead
      · obtain ⟨out, hout, hperm, hfalls⟩ := ih hrest fun a ha => hv a (List.mem_cons_of_mem _ ha)
        rw [Bool.eq_false_iff.2 hpv, hout]
        refine ⟨p :: out, rfl, (hperm.cons p).trans (.swap v p items),
          List.pairwise_cons.2 ⟨?_, hfalls⟩⟩
        intro a ha
        rcases List.mem_cons.1 (hperm.mem_iff.1 ha) with rfl | ha
        · exact h.ahead_of_not_le hpv
        · exact hp a ha

theorem insertAll_ok (vs : List α) {items : List α}
    (hitems : items.Pairwise fun a b => Ahead le before b a) (hvs : vs.Pairwise before)
    (hbefore : ∀ a ∈ items, ∀ v ∈ vs, before a v) :
    ∃ out, vs.foldlM (fun r v => insertBack cmp v r) items = .ok out ∧ out.Perm (items ++ vs) ∧
      out.Pairwise fun a b => Ahead le before b a := by
  induction vs generalizing items with
  | nil => exact ⟨items, rfl, by simp, hitems⟩
  | cons v vs ih =>
      obtain ⟨hv, hvs⟩ := List.pairwise_cons.1 hvs
      obtain ⟨more, hmore, hperm, hfalls⟩ :=
        h.insertBack_ok hitems fun a ha => hbefore a ha v List.mem_cons_self
      have hnext : ∀ a ∈ more, ∀ w ∈ vs, before a w := by
        intro a ha w hw
        rcases List.mem_cons.1 (hperm.mem_iff.1 ha) with rfl | ha
        · exact hv w hw
        · exact hbefore a ha w (List.mem_cons_of_mem _ hw)
      obtain ⟨out, hout, hperm', hfalls'⟩ := ih hfalls hvs hnext
      rw [List.foldlM_cons, hmore, ok_bind]
      refine ⟨out, hout, hperm'.trans ?_, hfalls'⟩
      exact (hperm.append_right vs).trans List.perm_middle.symm

theorem nextRun_cut (shortest : Nat) {items : List α} (hitems : items.Pairwise before) :
    ∃ run rest, nextRun cmp shortest items = .ok (run, rest) ∧ Cut le before items run rest := by
  obtain ⟨run, rest, hfront, hcut⟩ := h.front_cut hitems
  let missing := shortest - run.length
  have hrest := hcut.rest_pairwise hitems
  obtain ⟨filled, hfilled, hperm, hfalls⟩ :=
    h.insertAll_ok (rest.take missing)
      (List.pairwise_reverse.2 hcut.sorted) (hrest.sublist (List.take_sublist _ _))
      fun a ha v hv => hcut.apart hitems a (List.mem_reverse.1 ha) v (List.mem_of_mem_take hv)
  obtain ⟨first, rfl, hfirst⟩ := hcut.parts
  refine ⟨filled.reverse, rest.drop missing, ?_, List.pairwise_reverse.2 hfalls,
    ⟨first ++ rest.take missing, by simp, ?_⟩, fun hne => ?_⟩
  · rw [nextRun, hfront, ok_bind]
    show (List.foldlM _ run.reverse (rest.take missing) >>= _) = _
    rw [hfilled]
    rfl
  · have hrun : run.reverse.Perm first := (List.reverse_perm _).trans hfirst
    exact (List.reverse_perm _).trans (hperm.trans (hrun.append_right _))
  · intro hnil
    have hlen := hperm.length_eq
    rw [List.reverse_eq_nil_iff.1 hnil, List.length_append, List.length_reverse] at hlen
    have hpos := List.length_pos_iff.2 (hcut.progress hne)
    simp at hlen
    omega

end Consistent
end OptimalAssignment.RunSort
