import Mathlib.Data.List.Pairwise
import OptimalAssignment.Proofs.RunSort.Merging

/-!
# Sorting by runs is stable sorting

Merging two neighbours of the stack keeps it a stack of runs of the same items, so whatever merges
the lengths of the runs ask for, one run with all items is left.  As only one list of the items has
its items ahead of each other, this is the stable sort.
-/

namespace OptimalAssignment.RunSort

variable {ε α : Type}

/-! ## The stable sort -/

theorem not_sublist_swap {items : List α} (hnodup : items.Nodup) {x y : α}
    (hxy : [x, y].Sublist items) : ¬[y, x].Sublist items := by
  intro hyx
  obtain ⟨l, r, rfl, hx, hy⟩ := List.append_sublist_iff.1 (show ([x] ++ [y]).Sublist items from hxy)
  obtain ⟨-, -, hapart⟩ := List.nodup_append.1 hnodup
  have hx : x ∈ l := List.singleton_sublist.1 hx
  have hy : y ∈ r := List.singleton_sublist.1 hy
  obtain ⟨left, right, hparts, hl, hr⟩ := List.sublist_append_iff.1 hyx
  -- the first of the two cannot be in front of the cut, nor the second behind it
  cases left with
  | nil =>
      obtain rfl : [y, x] = right := hparts
      exact hapart x hx x (hr.subset (by simp)) rfl
  | cons a left =>
      obtain rfl : y = a := List.head_eq_of_cons_eq hparts
      exact hapart y (hl.subset List.mem_cons_self) y hy rfl

namespace Comparable

variable {le : α → α → Bool} {before : α → α → Prop} (h : Comparable le before)

include h

theorem eq_of_sorted {xs ys : List α} (hxs : Sorted le before xs)
    (hys : Sorted le before ys) (hperm : xs.Perm ys) : xs = ys := by
  refine hperm.eq_of_pairwise (fun x y _ _ hxy hyx => ?_) hxs hys
  exact absurd (h.before_trans (hxy.2 hyx.1) (hyx.2 hxy.1)) (h.before_irrefl x)

theorem sorted_mergeSort {items : List α}
    (hitems : items.Pairwise before) : Sorted le before (items.mergeSort le) := by
  have htrans : ∀ x y z, le x y = true → le y z = true → le x z = true := fun _ _ _ => h.trans
  have htotal : ∀ x y, (le x y || le y x) = true := fun x y => Bool.or_eq_true_iff.2 (h.total x y)
  have hnodup : items.Nodup := hitems.imp fun {a b} hab => by
    rintro rfl
    exact h.before_irrefl a hab
  have hplaces : items.Pairwise fun a b => [a, b].Sublist items ∨ [b, a].Sublist items :=
    List.pairwise_iff_forall_sublist.2 .inl
  have hsymm : Std.Symm fun a b => [a, b].Sublist items ∨ [b, a].Sublist items :=
    ⟨fun _ _ => Or.symm⟩
  have hsorted := List.pairwise_mergeSort htrans htotal items
  have hmerged : (items.mergeSort le).Nodup := (List.mergeSort_perm _ _).nodup_iff.2 hnodup
  rw [Sorted, List.pairwise_iff_forall_sublist]
  intro x y hxy
  refine ⟨List.pairwise_iff_forall_sublist.1 hsorted hxy, fun hyx => ?_⟩
  have hne : x ≠ y := List.pairwise_iff_forall_sublist.1 hmerged hxy
  have hmem : ∀ a ∈ [x, y], a ∈ items := fun a ha =>
    (List.mergeSort_perm _ _).mem_iff.1 (hxy.subset ha)
  -- alike items that stood the other way round would still stand that way
  rcases hplaces.forall (hmem x (by simp)) (hmem y (by simp)) hne with hplace | hplace
  · exact List.pairwise_iff_forall_sublist.1 hitems hplace
  · have hswap := List.pair_sublist_mergeSort htrans htotal hyx hplace
    exact absurd hswap (not_sublist_swap hmerged hxy)

end Comparable

/-! ## Stacks of runs -/

/-- The top run is the first, and its items stood behind those of the runs below it. -/
structure Stacked (le : α → α → Bool) (before : α → α → Prop) (runs : List (List α)) : Prop where
  sorted : ∀ run ∈ runs, Sorted le before run
  apart : runs.Pairwise fun top low => ∀ a ∈ low, ∀ b ∈ top, before a b

namespace Stacked

variable {le : α → α → Bool} {before : α → α → Prop} {runs : List (List α)}

theorem push (hs : Stacked le before runs) {run : List α} (hrun : Sorted le before run)
    (hafter : ∀ a ∈ runs.flatten, ∀ b ∈ run, before a b) : Stacked le before (run :: runs) :=
  ⟨List.forall_mem_cons.2 ⟨hrun, hs.sorted⟩,
    List.pairwise_cons.2 ⟨fun _ hlow a ha => hafter a (List.mem_flatten_of_mem hlow ha), hs.apart⟩⟩

/-- A run with the items of two neighbours may take their place. -/
theorem merge_two {upper below : List (List α)} {top second zs : List α}
    (hs : Stacked le before (upper ++ top :: second :: below)) (hsorted : Sorted le before zs)
    (hmem : ∀ a ∈ zs, a ∈ second ∨ a ∈ top) : Stacked le before (upper ++ zs :: below) := by
  obtain ⟨hupper, hlower, hacross⟩ := List.pairwise_append.1 hs.apart
  obtain ⟨htop, hlower⟩ := List.pairwise_cons.1 hlower
  obtain ⟨hsecond, hbelow⟩ := List.pairwise_cons.1 hlower
  refine ⟨fun run hrun => ?_, List.pairwise_append.2
    ⟨hupper, List.pairwise_cons.2 ⟨fun low hlow a ha b hb => ?_, hbelow⟩,
      fun high hhigh low hlow a ha b hb => ?_⟩⟩
  · rcases List.mem_append.1 hrun with hrun | hrun
    · exact hs.sorted run (List.mem_append_left _ hrun)
    · rcases List.mem_cons.1 hrun with rfl | hrun
      · exact hsorted
      · exact hs.sorted run (by simp [hrun])
  -- the runs below stood in front of both neighbours
  · rcases hmem b hb with hb | hb
    · exact hsecond low hlow a ha b hb
    · exact htop low (List.mem_cons_of_mem _ hlow) a ha b hb
  -- and the runs above stood behind both of them
  · rcases List.mem_cons.1 hlow with rfl | hlow
    · rcases hmem a ha with ha | ha
      · exact hacross high hhigh second (by simp) a ha b hb
      · exact hacross high hhigh top (by simp) a ha b hb
    · exact hacross high hhigh low (by simp [hlow]) a ha b hb

end Stacked

namespace Consistent

variable {cmp : α → α → Except ε Ordering} {le : α → α → Bool} {before : α → α → Prop}
  (h : Consistent cmp le before)

include h

theorem merge_stacked (upper : List (List α)) {top second : List α} {below : List (List α)}
    (hs : Stacked le before (upper ++ top :: second :: below)) :
    ∃ zs, merge cmp second top = .ok zs ∧ Stacked le before (upper ++ zs :: below) ∧
      (upper ++ zs :: below).flatten.Perm (upper ++ top :: second :: below).flatten := by
  have htop : ∀ a ∈ second, ∀ b ∈ top, before a b :=
    (List.pairwise_cons.1 (List.pairwise_append.1 hs.apart).2.1).1 second List.mem_cons_self
  obtain ⟨zs, hzs, hperm, hsorted⟩ := h.merge_ok (hs.sorted second (by simp))
    (hs.sorted top (by simp)) htop
  refine ⟨zs, hzs, hs.merge_two hsorted fun a ha => List.mem_append.1 (hperm.mem_iff.1 ha), ?_⟩
  rw [List.flatten_append, List.flatten_append, List.flatten_cons, List.flatten_cons,
    List.flatten_cons, ← List.append_assoc top]
  exact ((hperm.trans List.perm_append_comm).append_right _).append_left _

theorem collapse_ok (steps : Nat) {runs : List (List α)} (hs : Stacked le before runs) :
    ∃ out, collapse cmp steps runs = .ok out ∧ Stacked le before out ∧
      out.flatten.Perm runs.flatten := by
  induction steps generalizing runs with
  | zero => exact ⟨runs, by simp [collapse], hs, .refl _⟩
  | succ steps ih =>
      match runs with
      | [] | [_] => exact ⟨_, by simp [collapse], hs, .refl _⟩
      | top :: second :: below =>
          -- after a merge of two neighbours the rest is as the shorter stack has it
          have hmerged : ∀ (upper : List (List α)) {x y : List α} {lower : List (List α)},
              top :: second :: below = upper ++ x :: y :: lower →
              ∃ out, (merge cmp y x >>= fun zs => collapse cmp steps (upper ++ zs :: lower)) =
                  .ok out ∧ Stacked le before out ∧
                out.flatten.Perm (top :: second :: below).flatten := by
            intro upper x y lower hparts
            rw [hparts] at hs ⊢
            obtain ⟨zs, hzs, hstacked, hperm⟩ := h.merge_stacked upper hs
            obtain ⟨out, hout, hstacked', hperm'⟩ := ih hstacked
            rw [hzs, ok_bind]
            exact ⟨out, hout, hstacked', hperm'.trans hperm⟩
          rw [collapse.eq_def]
          simp only []
          split
          · match below with
            | [] => exact ⟨_, rfl, hs, .refl _⟩
            | third :: rest =>
                simp only []
                split
                · exact hmerged [top] rfl
                · exact hmerged [] rfl
          · split
            · exact hmerged [] rfl
            · exact ⟨_, rfl, hs, .refl _⟩

theorem mergeAll_ok (steps : Nat) {runs : List (List α)} (hs : Stacked le before runs)
    (hsteps : runs.length ≤ steps) :
    ∃ out, mergeAll cmp steps runs = .ok out ∧ out.Perm runs.flatten ∧ Sorted le before out := by
  induction steps generalizing runs with
  | zero =>
      have hnil : runs = [] := List.length_eq_zero_iff.1 (by omega)
      exact ⟨[], by rw [hnil]; rfl, by rw [hnil]; exact .refl _, .nil⟩
  | succ steps ih =>
      match runs with
      | [] => exact ⟨[], rfl, .refl _, .nil⟩
      | [run] =>
          exact ⟨run, by simp [mergeAll], by simp, hs.sorted run (List.mem_singleton_self run)⟩
      | [top, second] =>
          obtain ⟨zs, hzs, hstacked, hperm⟩ := h.merge_stacked [] hs
          refine ⟨zs, hzs, ?_, hstacked.sorted zs (List.mem_singleton_self zs)⟩
          simpa using hperm
      | top :: second :: third :: below =>
          rw [mergeAll]
          simp only [List.length_cons] at hsteps
          split
          · obtain ⟨zs, hzs, hstacked, hperm⟩ := h.merge_stacked [top] hs
            obtain ⟨out, hout, hperm', hsorted⟩ := ih hstacked
              (by simp only [List.singleton_append, List.length_cons]; omega)
            rw [hzs]
            exact ⟨out, hout, hperm'.trans hperm, hsorted⟩
          · obtain ⟨zs, hzs, hstacked, hperm⟩ := h.merge_stacked [] hs
            obtain ⟨out, hout, hperm', hsorted⟩ := ih hstacked
              (by simp only [List.nil_append, List.length_cons]; omega)
            rw [hzs]
            exact ⟨out, hout, hperm'.trans hperm, hsorted⟩

theorem stack_ok (shortest steps : Nat) {runs : List (List α)} {items : List α}
    (hs : Stacked le before runs) (hitems : items.Pairwise before)
    (hafter : ∀ a ∈ runs.flatten, ∀ b ∈ items, before a b) (hsteps : items.length ≤ steps) :
    ∃ out, stack cmp shortest steps runs items = .ok out ∧ Stacked le before out ∧
      out.flatten.Perm (runs.flatten ++ items) := by
  induction steps generalizing runs items with
  | zero =>
      have hnil : items = [] := List.length_eq_zero_iff.1 (by omega)
      exact ⟨runs, rfl, hs, by rw [hnil, List.append_nil]⟩
  | succ steps ih =>
      match items with
      | [] => exact ⟨runs, rfl, hs, by rw [List.append_nil]⟩
      | x :: items =>
          obtain ⟨run, rest, hrun, hcut⟩ := h.nextRun_cut shortest hitems
          have hsub : ∀ b, b ∈ run ∨ b ∈ rest → b ∈ x :: items := fun b hb =>
            hcut.perm.mem_iff.1 (List.mem_append.2 hb)
          have hpushed : Stacked le before (run :: runs) :=
            hs.push hcut.sorted fun a ha b hb => hafter a ha b (hsub b (.inl hb))
          obtain ⟨more, hmore, hstacked, hperm⟩ := h.collapse_ok (runs.length + 1) hpushed
          -- merging moves no item out of the stack, so what is left stood behind all of it
          have hafter' : ∀ a ∈ more.flatten, ∀ b ∈ rest, before a b := by
            intro a ha b hb
            rcases List.mem_append.1 (hperm.mem_iff.1 ha) with ha | ha
            · exact hcut.apart hitems a ha b hb
            · exact hafter a ha b (hsub b (.inr hb))
          have hless := hcut.length_rest (List.cons_ne_nil x items)
          obtain ⟨out, hout, hstacked', hperm'⟩ :=
            ih hstacked (hcut.rest_pairwise hitems) hafter' (by omega)
          rw [stack.eq_def]
          simp only []
          rw [hrun, ok_bind]
          simp only []
          rw [hmore, ok_bind]
          refine ⟨out, hout, hstacked', hperm'.trans ?_⟩
          calc (more.flatten ++ rest).Perm (run ++ runs.flatten ++ rest) := hperm.append_right _
            _ |>.Perm (runs.flatten ++ (run ++ rest)) := by
              rw [← List.append_assoc]
              exact List.perm_append_comm.append_right _
            _ |>.Perm (runs.flatten ++ x :: items) := hcut.perm.append_left _

/-! ## The sort -/

theorem sort_sorted {items : List α} (hitems : items.Pairwise before) :
    ∃ out, sort cmp items = .ok out ∧ out.Perm items ∧ Sorted le before out := by
  obtain ⟨runs, hruns, hstacked, hperm⟩ :=
    h.stack_ok (shortestRun items.length items.length 0) items.length
      (show Stacked le before [] from ⟨nofun, .nil⟩) hitems nofun (Nat.le_refl _)
  obtain ⟨out, hout, hperm', hsorted⟩ := h.mergeAll_ok runs.length hstacked (Nat.le_refl _)
  refine ⟨out, ?_, hperm'.trans hperm, hsorted⟩
  rw [sort, hruns]
  exact hout

/-- The items in order, alike ones as they stood. -/
theorem sort_eq_mergeSort {items : List α}
    (hitems : items.Pairwise before) : sort cmp items = .ok (items.mergeSort le) := by
  obtain ⟨out, hout, hperm, hsorted⟩ := h.sort_sorted hitems
  rw [hout, h.eq_of_sorted hsorted (h.sorted_mergeSort hitems)
    (hperm.trans (List.mergeSort_perm _ _).symm)]

end Consistent
end OptimalAssignment.RunSort
