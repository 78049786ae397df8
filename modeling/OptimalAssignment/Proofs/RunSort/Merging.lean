import OptimalAssignment.Proofs.RunSort.Runs

/-!
# Merging runs

The searches find how much of each run is in place already, whatever they skip on the way.  The rest
is merged from the front or from the back, and items that are alike stay in the order of the runs.
-/

namespace OptimalAssignment.RunSort

variable {ε α : Type}

/-! ## Searching -/

section Search

variable {hit : Nat → Except ε Bool} {P : Nat → Bool} {size : Nat}
  (hhit : ∀ k < size, hit k = .ok (P k))

include hhit

/-- The places found enclose the first hit. -/
theorem gallop_ok (steps : Nat) {low high : Nat} (hlow : P low = false) (hlt : low < high)
    (hsize : low < size) :
    ∃ l u, gallop hit size steps low high = .ok (l, u) ∧ l < u ∧ u ≤ size ∧ P l = false ∧
      (u < size → P u = true) := by
  induction steps generalizing low high with
  | zero => exact ⟨low, size, rfl, hsize, Nat.le_refl _, hlow, fun h => absurd h (Nat.lt_irrefl _)⟩
  | succ steps ih =>
      rw [gallop]
      split
      · exact ⟨low, size, rfl, hsize, Nat.le_refl _, hlow, fun h => absurd h (Nat.lt_irrefl _)⟩
      · rename_i hhigh
        rw [hhit high (by omega), ok_bind]
        cases hP : P high with
        | true => exact ⟨low, high, rfl, hlt, by omega, hlow, fun _ => hP⟩
        | false => exact ih hP (by omega) (by omega)

theorem bisect_ok {middle : Nat → Nat → Nat}
    (hmiddle : ∀ l u, l + 1 < u → l < middle l u ∧ middle l u < u) (steps : Nat) {low high : Nat}
    (hlow : P low = false) (hlt : low < high) (hhigh : high ≤ size)
    (hP : high < size → P high = true) (hsteps : high ≤ low + steps + 1) :
    ∃ l, bisect hit middle steps low high = .ok (l, l + 1) ∧ l < size ∧ P l = false ∧
      (l + 1 < size → P (l + 1) = true) := by
  induction steps generalizing low high with
  | zero =>
      obtain rfl : high = low + 1 := by omega
      exact ⟨low, rfl, by omega, hlow, hP⟩
  | succ steps ih =>
      rw [bisect]
      split
      · rename_i hgap
        obtain ⟨hm, hm'⟩ := hmiddle low high hgap
        simp only []
        rw [hhit _ (by omega), ok_bind]
        cases hmid : P (middle low high) with
        | true => exact ih hlow hm (by omega) (fun _ => hmid) (by omega)
        | false => exact ih hmid hm' hhigh hP (by omega)
      · obtain rfl : high = low + 1 := by omega
        exact ⟨low, rfl, by omega, hlow, hP⟩

/-- The answer divides the places without a hit from those with one. -/
theorem search_ok {middle : Nat → Nat → Nat}
    (hmiddle : ∀ l u, l + 1 < u → l < middle l u ∧ middle l u < u)
    (hmono : ∀ j k, j ≤ k → k < size → P j = true → P k = true) (hsize : 0 < size) :
    ∃ k, search hit middle size = .ok k ∧ k ≤ size ∧ (∀ j < k, P j = false) ∧
      ∀ j, k ≤ j → j < size → P j = true := by
  rw [search, hhit 0 hsize, ok_bind]
  cases hzero : P 0 with
  | true => exact ⟨0, rfl, Nat.zero_le _, nofun, fun j _ hj => hmono 0 j (Nat.zero_le _) hj hzero⟩
  | false =>
      obtain ⟨l, u, hgallop, hlt, hu, hl, hP⟩ := gallop_ok hhit size hzero Nat.zero_lt_one hsize
      obtain ⟨k, hbisect, hk, hPk, hnext⟩ := bisect_ok hhit hmiddle size hl hlt hu hP (by omega)
      refine ⟨k + 1, ?_, hk, fun j hj => ?_, fun j hj hjs => hmono _ j hj hjs (hnext (by omega))⟩
      · simp only [Bool.false_eq_true, if_false]
        rw [hgallop, ok_bind]
        simp only []
        rw [hbisect]
        rfl
      · by_contra hne
        rw [hmono j k (by omega) hk (by simpa using hne)] at hPk
        cases hPk

end Search

/-- A search over a run whose items without the property stand before those with it. -/
theorem search_divides (run : List α) (p : α → Bool) (hit : Nat → Except ε Bool)
    (middle : Nat → Nat → Nat) (hhit : ∀ k (hk : k < run.length), hit k = .ok (p run[k]))
    (hmiddle : ∀ l u, l + 1 < u → l < middle l u ∧ middle l u < u)
    (hp : run.Pairwise fun a b => p a = true → p b = true) (hne : run ≠ []) :
    ∃ k, search hit middle run.length = .ok k ∧ k ≤ run.length ∧
      (∀ a ∈ run.take k, p a = false) ∧ ∀ a ∈ run.drop k, p a = true := by
  have hget : ∀ {k} (hk : k < run.length), (run[k]?).any p = p run[k] := by
    intro k hk
    simp [hk]
  obtain ⟨k, hsearch, hk, hfirst, hlast⟩ := search_ok (P := fun k => (run[k]?).any p)
    (fun k hk => (hhit k hk).trans (congrArg Except.ok (hget hk).symm)) hmiddle
    (by
      intro i j hij hj hi
      rcases Nat.lt_or_eq_of_le hij with hlt | rfl
      · rw [hget (by omega)] at hi
        rw [hget hj]
        exact List.pairwise_iff_getElem.1 hp i j (by omega) hj hlt hi
      · exact hi)
    (List.length_pos_iff.2 hne)
  refine ⟨k, hsearch, hk, fun a ha => ?_, fun a ha => ?_⟩
  · obtain ⟨j, hj, rfl⟩ := List.mem_take_iff_getElem.1 ha
    exact (hget (by omega)).symm.trans (hfirst j (by omega))
  · obtain ⟨j, hj, rfl⟩ := List.mem_drop_iff_getElem.1 ha
    exact (hget (by omega)).symm.trans (hlast (k + j) (by omega) (by omega))

namespace Consistent

variable {cmp : α → α → Except ε Ordering} {le : α → α → Bool} {before : α → α → Prop}
  (h : Consistent cmp le before)

include h

/-- The items of a run that do not follow a key are in front of those that do. -/
theorem placeAfter_ok {run : List α} (hrun : Sorted le before run) (hne : run ≠ []) (key : α) :
    ∃ k, placeAfter cmp run.toArray key = .ok k ∧ k ≤ run.length ∧
      (∀ a ∈ run.take k, le a key = true) ∧ ∀ a ∈ run.drop k, ¬le a key = true := by
  obtain ⟨k, hsearch, hk, hfirst, hlast⟩ := search_divides run (fun x => !le x key)
    (fun k => run.toArray[k]?.elim (.ok true) fun x => less cmp key x)
    (fun low high => low + (high - low) / 2)
    (by
      intro k hk
      simp only [List.getElem?_toArray, List.getElem?_eq_getElem hk]
      exact h.less_eq key run[k])
    (by intro l u hlu; omega)
    (hrun.imp fun {a b} hab ha => by
      by_contra hb
      have hb : le b key = true := by simpa using hb
      simp [h.trans hab.1 hb] at ha)
    hne
  refine ⟨k, ?_, hk, fun a ha => ?_, fun a ha => ?_⟩
  · unfold placeAfter
    refine (congrArg (search · _ run.length) (funext fun k => ?_)).trans hsearch
    cases run.toArray[k]? <;> rfl
  · simpa using hfirst a ha
  · simpa using hlast a ha

/-- The items of a run that precede a key are in front of those that do not. -/
theorem placeBefore_ok {run : List α} (hrun : Sorted le before run) (hne : run ≠ []) (key : α) :
    ∃ k, placeBefore cmp run.toArray key = .ok k ∧ k ≤ run.length ∧
      (∀ a ∈ run.take k, ¬le key a = true) ∧ ∀ a ∈ run.drop k, le key a = true := by
  -- the search goes through the run from the back
  obtain ⟨k, hsearch, hk, hfirst, hlast⟩ := search_divides run.reverse
    (fun x => !le key x)
    (fun k => run.toArray[run.length - 1 - k]?.elim (.ok true) fun x => less cmp x key)
    (fun low high => high - (high - low) / 2)
    (by
      intro k hk
      rw [List.length_reverse] at hk
      have hlt : run.length - 1 - k < run.length := by omega
      simp only [List.getElem?_toArray, List.getElem?_eq_getElem hlt]
      rw [List.getElem_reverse]
      exact h.less_eq _ key)
    (by intro l u hlu; omega)
    (List.pairwise_reverse.2 (hrun.imp fun {a b} hab hb => by
      by_contra ha
      have ha : le key a = true := by simpa using ha
      simp [h.trans ha hab.1] at hb))
    (by simpa using hne)
  rw [List.length_reverse] at hsearch hk
  rw [List.take_reverse] at hfirst
  rw [List.drop_reverse] at hlast
  refine ⟨run.length - k, ?_, by omega, fun a ha => ?_, fun a ha => ?_⟩
  · refine congrArg (· >>= fun found => Except.ok (run.length - found))
      ((congrArg (search · _ run.length) (funext fun k => ?_)).trans hsearch)
    cases run.toArray[run.length - 1 - k]? <;> rfl
  · simpa using hlast a (List.mem_reverse.2 ha)
  · simpa using hfirst a (List.mem_reverse.2 ha)

/-! ## Merging -/

omit h in
theorem sorted_cons_of_perm {x : α} {zs items : List α} (hsorted : Sorted le before zs)
    (hperm : zs.Perm items) (hx : ∀ a ∈ items, Ahead le before x a) : Sorted le before (x :: zs) :=
  List.pairwise_cons.2 ⟨fun a ha => hx a (hperm.mem_iff.1 ha), hsorted⟩

theorem mergeFront_ok (steps : Nat) {xs ys : List α} (hxs : Sorted le before xs)
    (hys : Sorted le before ys) (hbefore : ∀ a ∈ xs, ∀ b ∈ ys, before a b)
    (hsteps : xs.length + ys.length ≤ steps) :
    ∃ zs, mergeFront cmp steps xs ys = .ok zs ∧ zs.Perm (xs ++ ys) ∧ Sorted le before zs := by
  induction steps generalizing xs ys with
  | zero =>
      have hxs' : xs = [] := List.length_eq_zero_iff.1 (by omega)
      have hys' : ys = [] := List.length_eq_zero_iff.1 (by omega)
      exact ⟨[], by rw [hxs', hys']; rfl, by rw [hxs', hys']; exact .refl _, .nil⟩
  | succ steps ih =>
      match xs, ys with
      | [], ys => exact ⟨ys, rfl, .refl _, hys⟩
      | x :: xs, [] => exact ⟨x :: xs, by simp [mergeFront], by simp, hxs⟩
      | x :: xs, y :: ys =>
          obtain ⟨hx, hxs'⟩ := List.pairwise_cons.1 hxs
          obtain ⟨hy, hys'⟩ := List.pairwise_cons.1 hys
          simp only [List.length_cons] at hsteps
          rw [mergeFront, h.less_eq, ok_bind]
          by_cases hxy : le x y = true
          · obtain ⟨zs, hzs, hperm, hsorted⟩ := ih hxs' hys
              (fun a ha => hbefore a (List.mem_cons_of_mem _ ha))
              (by simp only [List.length_cons]; omega)
            -- the item of the first run stood before all of the second
            have hahead : Ahead le before x y :=
              ⟨hxy, fun _ => hbefore x List.mem_cons_self y List.mem_cons_self⟩
            rw [hxy, hzs]
            refine ⟨x :: zs, rfl, hperm.cons x, sorted_cons_of_perm hsorted hperm fun a ha => ?_⟩
            rcases List.mem_append.1 ha with ha | ha
            · exact hx a ha
            · rcases List.mem_cons.1 ha with rfl | ha
              · exact hahead
              · exact h.ahead_trans hahead (hy a ha)
          · obtain ⟨zs, hzs, hperm, hsorted⟩ := ih hxs hys'
              (fun a ha b hb => hbefore a ha b (List.mem_cons_of_mem _ hb))
              (by simp only [List.length_cons]; omega)
            have hahead : Ahead le before y x := h.ahead_of_not_le hxy
            rw [Bool.eq_false_iff.2 hxy, hzs]
            refine ⟨y :: zs, rfl, (hperm.cons y).trans List.perm_middle.symm,
              sorted_cons_of_perm hsorted hperm fun a ha => ?_⟩
            rcases List.mem_append.1 ha with ha | ha
            · rcases List.mem_cons.1 ha with rfl | ha
              · exact hahead
              · exact h.ahead_trans hahead (hx a ha)
            · exact hy a ha

omit h in
/-- Merging from the back is merging what is turned round. -/
theorem mergeBack_eq (steps : Nat) (xs ys : List α) :
    mergeBack cmp steps xs ys = mergeFront (fun x y => cmp y x) steps ys xs := by
  induction steps generalizing xs ys with
  | zero => cases xs <;> cases ys <;> simp [mergeBack, mergeFront]
  | succ steps ih =>
      cases xs with
      | nil => cases ys <;> simp [mergeBack, mergeFront]
      | cons x xs =>
          cases ys with
          | nil => simp [mergeBack, mergeFront]
          | cons y ys =>
              rw [mergeBack, mergeFront, ih, ih]
              rfl

theorem mergeBack_ok (steps : Nat) {xs ys : List α} (hxs : Sorted le before xs)
    (hys : Sorted le before ys) (hbefore : ∀ a ∈ xs, ∀ b ∈ ys, before a b)
    (hsteps : xs.length + ys.length ≤ steps) :
    ∃ zs, mergeBack cmp steps xs.reverse ys.reverse = .ok zs ∧ zs.Perm (xs ++ ys) ∧
      Sorted le before zs.reverse := by
  obtain ⟨zs, hzs, hperm, hsorted⟩ := h.flip.mergeFront_ok steps (List.pairwise_reverse.2 hys)
    (List.pairwise_reverse.2 hxs)
    (fun b hb a ha => hbefore a (List.mem_reverse.1 ha) b (List.mem_reverse.1 hb))
    (by simp only [List.length_reverse]; omega)
  have hback : (ys.reverse ++ xs.reverse).Perm (xs ++ ys) :=
    ((List.reverse_perm ys).append (List.reverse_perm xs)).trans List.perm_append_comm
  exact ⟨zs, by rw [mergeBack_eq, hzs], hperm.trans hback, List.pairwise_reverse.2 hsorted⟩

/-- What is left of two runs, where the second starts within the first and the first ends beyond the
second. -/
theorem mergeParts_ok {first second : List α} (hfirst : Sorted le before first)
    (hsecond : Sorted le before second) (hbefore : ∀ a ∈ first, ∀ b ∈ second, before a b)
    (hhead : ∀ y ∈ second.head?, ∀ a ∈ first, Ahead le before y a)
    (hlast : ∀ x ∈ first.getLast?, ∀ b ∈ second, Ahead le before b x) :
    ∃ zs, mergeParts cmp first second = .ok zs ∧ zs.Perm (first ++ second) ∧
      Sorted le before zs := by
  unfold mergeParts
  simp only []
  split
  · rename_i hlen
    obtain ⟨xs, x, rfl⟩ : ∃ xs x, first = xs ++ [x] := by
      rcases List.eq_nil_or_concat first with rfl | ⟨xs, x, rfl⟩
      · simp at hlen
      · exact ⟨xs, x, List.concat_eq_append⟩
    obtain ⟨hxs, -, hx⟩ := List.pairwise_append.1 hfirst
    obtain ⟨zs, hzs, hperm, hsorted⟩ := h.mergeBack_ok ((xs ++ [x]).length + second.length) hxs
      hsecond (fun a ha => hbefore a (List.mem_append_left _ ha))
      (by simp only [List.length_append]; omega)
    -- the item that is moved first is behind all others
    have hbehind : ∀ a ∈ zs, Ahead le before a x := by
      intro a ha
      rcases List.mem_append.1 (hperm.mem_iff.1 ha) with ha | ha
      · exact hx a ha x (List.mem_singleton_self x)
      · exact hlast x (by simp) a ha
    rw [List.reverse_append, List.reverse_singleton, List.singleton_append]
    simp only []
    rw [hzs, ok_bind]
    refine ⟨(x :: zs).reverse, rfl, ?_,
      List.pairwise_reverse.2 (List.pairwise_cons.2 ⟨hbehind, List.pairwise_reverse.1 hsorted⟩)⟩
    refine (List.reverse_perm _).trans ((hperm.cons x).trans ?_)
    rw [List.append_assoc, List.singleton_append]
    exact List.perm_middle.symm
  · match second with
    | [] => exact ⟨first, rfl, by simp, hfirst⟩
    | y :: ys =>
        obtain ⟨hy, hys⟩ := List.pairwise_cons.1 hsecond
        obtain ⟨zs, hzs, hperm, hsorted⟩ := h.mergeFront_ok (first.length + (y :: ys).length)
          hfirst hys (fun a ha b hb => hbefore a ha b (List.mem_cons_of_mem _ hb))
          (by simp only [List.length_cons]; omega)
        simp only []
        rw [hzs, ok_bind]
        -- its first item is ahead of all others
        refine ⟨y :: zs, rfl, (hperm.cons y).trans List.perm_middle.symm,
          sorted_cons_of_perm hsorted hperm fun a ha => ?_⟩
        rcases List.mem_append.1 ha with ha | ha
        · exact hhead y rfl a ha
        · exact hy a ha

omit h in
/-- What is merged lies between the first part of the one run and the last part of the other. -/
theorem sorted_middle {first second zs : List α} {start stop : Nat}
    (hfirst : Sorted le before first) (hsecond : Sorted le before second)
    (hfront : ∀ a ∈ first.take start, ∀ b ∈ second, Ahead le before a b)
    (hback : ∀ a ∈ first, ∀ b ∈ second.drop stop, Ahead le before a b)
    (hperm : zs.Perm (first.drop start ++ second.take stop)) (hsorted : Sorted le before zs) :
    Sorted le before (first.take start ++ zs ++ second.drop stop) := by
  rw [Sorted, ← List.take_append_drop start first] at hfirst
  rw [Sorted, ← List.take_append_drop stop second] at hsecond
  obtain ⟨hfirst, -, hacross⟩ := List.pairwise_append.1 hfirst
  obtain ⟨-, hsecond, hacross'⟩ := List.pairwise_append.1 hsecond
  have hmem : ∀ a ∈ zs, a ∈ first.drop start ∨ a ∈ second.take stop := fun a ha =>
    List.mem_append.1 (hperm.mem_iff.1 ha)
  have hrest : Sorted le before (zs ++ second.drop stop) := by
    refine List.pairwise_append.2 ⟨hsorted, hsecond, fun a ha b hb => ?_⟩
    rcases hmem a ha with ha | ha
    · exact hback a (List.mem_of_mem_drop ha) b hb
    · exact hacross' a ha b hb
  rw [List.append_assoc]
  refine List.pairwise_append.2 ⟨hfirst, hrest, fun a ha b hb => ?_⟩
  rcases List.mem_append.1 hb with hb | hb
  · rcases hmem b hb with hb | hb
    · exact hacross a ha b hb
    · exact hfront a ha b (List.mem_of_mem_take hb)
  · exact hfront a ha b (List.mem_of_mem_drop hb)

/-- The items of the first run from `start` on follow the head of the second, and the items of the
second run up to `stop` precede the last one of the first. -/
theorem mergeMiddle_ok {first second : List α} {start stop : Nat}
    (hfirst : Sorted le before first) (hsecond : Sorted le before second)
    (hbefore : ∀ a ∈ first, ∀ b ∈ second, before a b)
    (hfront : ∀ a ∈ first.take start, ∀ b ∈ second, Ahead le before a b)
    (hback : ∀ a ∈ first, ∀ b ∈ second.drop stop, Ahead le before a b)
    (hhead : ∀ y ∈ second.head?, ∀ a ∈ first.drop start, ¬le a y = true)
    (hlast : ∀ x ∈ first.getLast?, ∀ b ∈ second.take stop, ¬le x b = true) :
    ∃ zs, mergeParts cmp (first.drop start) (second.take stop) = .ok zs ∧
      (first.take start ++ zs ++ second.drop stop).Perm (first ++ second) ∧
      Sorted le before (first.take start ++ zs ++ second.drop stop) := by
  obtain ⟨zs, hzs, hperm, hsorted⟩ := h.mergeParts_ok
    (hfirst.sublist (List.drop_sublist start _)) (hsecond.sublist (List.take_sublist stop _))
    (fun a ha b hb => hbefore a (List.mem_of_mem_drop ha) b (List.mem_of_mem_take hb))
    (by
      intro y hy a ha
      rw [List.head?_take] at hy
      split at hy
      · cases hy
      · exact h.ahead_of_not_le (hhead y hy a ha))
    (by
      intro x hx b hb
      rw [List.getLast?_drop] at hx
      split at hx
      · cases hx
      · exact h.ahead_of_not_le (hlast x hx b hb))
  refine ⟨zs, hzs, ?_, sorted_middle hfirst hsecond hfront hback hperm hsorted⟩
  calc (first.take start ++ zs ++ second.drop stop).Perm
        (first.take start ++ (first.drop start ++ second.take stop) ++ second.drop stop) :=
      (hperm.append_left _).append_right _
    _ = (first.take start ++ first.drop start) ++ (second.take stop ++ second.drop stop) := by
      simp only [List.append_assoc]
    _ = first ++ second := by rw [List.take_append_drop, List.take_append_drop]

theorem merge_ok {first second : List α} (hfirst : Sorted le before first)
    (hsecond : Sorted le before second) (hbefore : ∀ a ∈ first, ∀ b ∈ second, before a b) :
    ∃ zs, merge cmp first second = .ok zs ∧ zs.Perm (first ++ second) ∧ Sorted le before zs := by
  match second, hlast : first.getLast? with
  | [], _ => exact ⟨first, by simp [merge], by simp, hfirst⟩
  | y :: ys, none =>
      rw [List.getLast?_eq_none_iff.1 hlast]
      exact ⟨y :: ys, rfl, .refl _, hsecond⟩
  | y :: ys, some x =>
      have hne : first ≠ [] := by
        rintro rfl
        cases hlast
      obtain ⟨start, hstart, -, hbelow, habove⟩ := h.placeAfter_ok hfirst hne y
      obtain ⟨stop, hstop, -, hbelow', habove'⟩ :=
        h.placeBefore_ok hsecond (List.cons_ne_nil y ys) x
      -- what the searches pass over is in place, whatever is merged between
      have hfront : ∀ a ∈ first.take start, ∀ b ∈ y :: ys, Ahead le before a b := by
        intro a ha b hb
        have hay : Ahead le before a y := ⟨hbelow a ha, fun _ =>
          hbefore a (List.mem_of_mem_take ha) y List.mem_cons_self⟩
        rcases List.mem_cons.1 hb with rfl | hb
        · exact hay
        · exact h.ahead_trans hay ((List.pairwise_cons.1 hsecond).1 b hb)
      have hback : ∀ a ∈ first, ∀ b ∈ (y :: ys).drop stop, Ahead le before a b := by
        obtain ⟨xs, rfl⟩ := List.getLast?_eq_some_iff.1 hlast
        intro a ha b hb
        have hxb : Ahead le before x b := ⟨habove' b hb, fun _ =>
          hbefore x (by simp) b (List.mem_of_mem_drop hb)⟩
        rcases List.mem_append.1 ha with ha | ha
        · exact h.ahead_trans
            ((List.pairwise_append.1 hfirst).2.2 a ha x (List.mem_singleton_self x)) hxb
        · exact List.mem_singleton.1 ha ▸ hxb
      unfold merge
      rw [hlast]
      simp only []
      rw [hstart, ok_bind]
      split
      · rename_i hall
        rw [hall, List.take_length] at hfront
        exact ⟨first ++ y :: ys, rfl, .refl _, List.pairwise_append.2 ⟨hfirst, hsecond, hfront⟩⟩
      · obtain ⟨zs, hzs, hperm, hsorted⟩ := h.mergeMiddle_ok hfirst hsecond hbefore hfront hback
          (fun _ hy => Option.some.inj hy ▸ habove)
          (fun _ hx => Option.some.inj (hlast.symm.trans hx) ▸ hbelow')
        rw [hstop, ok_bind, hzs]
        exact ⟨_, rfl, hperm, hsorted⟩

end Consistent
end OptimalAssignment.RunSort
