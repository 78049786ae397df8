import Mathlib
import OptimalAssignment.Json.Layout

/-!
# Documents that read in one way

A form is unambiguous if what it writes can be told from what follows, as long as that starts with
a comma or on a new line, and says which item was written.  Words without commas and ends of lines
are unambiguous, and so are lists of unambiguous items, at any depth.
-/

namespace OptimalAssignment.Json

variable {α : Type}

/-- What follows an item. -/
def Ends : List Char → Prop
  | [] => True
  | c :: _ => c = ',' ∨ c = '\n'

def Unambiguous (f : α → List Char) : Prop :=
  ∀ a b s t, Ends s → Ends t → f a ++ s = f b ++ t → a = b ∧ s = t

/-- No part of it ends an item. -/
def IsWord (cs : List Char) : Prop :=
  ∀ c ∈ cs, c ≠ ',' ∧ c ≠ '\n'

theorem ends_newline (depth : Nat) (s : List Char) : Ends (newline depth ++ s) :=
  .inr rfl

/-- A word and what follows it are told apart by the first mark. -/
theorem word_cut {cs ds s t : List Char} (hcs : IsWord cs) (hds : IsWord ds) (hs : Ends s)
    (ht : Ends t) (h : cs ++ s = ds ++ t) : cs = ds ∧ s = t := by
  induction cs generalizing ds with
  | nil =>
      cases ds with
      | nil => exact ⟨rfl, h⟩
      | cons d ds =>
          obtain rfl : s = d :: (ds ++ t) := h
          have hd := hds d List.mem_cons_self
          exact (hs.elim hd.1 hd.2).elim
  | cons c cs ih =>
      have hc := hcs c List.mem_cons_self
      cases ds with
      | nil =>
          obtain rfl : c :: (cs ++ s) = t := h
          exact (ht.elim hc.1 hc.2).elim
      | cons d ds =>
          obtain ⟨rfl, hrest⟩ := List.cons.inj h
          obtain ⟨rfl, rfl⟩ := ih (fun x hx => hcs x (List.mem_cons_of_mem _ hx))
            (fun x hx => hds x (List.mem_cons_of_mem _ hx)) hrest
          exact ⟨rfl, rfl⟩

theorem unambiguous_of_words {f : α → List Char} (hwords : ∀ a, IsWord (f a))
    (hinj : ∀ a b, f a = f b → a = b) : Unambiguous f := by
  intro a b s t hs ht h
  obtain ⟨hf, hrest⟩ := word_cut (hwords a) (hwords b) hs ht h
  exact ⟨hinj a b hf, hrest⟩

/-! ## Lists -/

/-- The items behind the first one, each after a comma on a new line. -/
def later (depth : Nat) (items : List (List Char)) : List Char :=
  items.flatMap fun item => ',' :: newline depth ++ item

theorem intercalate_cons (depth : Nat) (x : List Char) (xs : List (List Char)) :
    (',' :: newline depth).intercalate (x :: xs) = x ++ later depth xs := by
  induction xs generalizing x with
  | nil => exact List.intercalate_singleton.trans (List.append_nil x).symm
  | cons y ys ih =>
      rw [List.intercalate_cons_cons, ih]
      simp [later]

theorem enclose_cons (opening closing : Char) (depth : Nat) (x : List Char)
    (xs : List (List Char)) : enclose opening closing depth (x :: xs) =
      opening :: (newline (depth + 1) ++ (x ++ later (depth + 1) xs) ++
        (newline depth ++ [closing])) := by
  unfold enclose
  rw [intercalate_cons]
  simp

theorem ends_later (depth : Nat) (items : List (List Char)) {s : List Char} (hs : Ends s) :
    Ends (later depth items ++ s) := by
  cases items with
  | nil => exact hs
  | cons x xs => exact .inl rfl

/-- Whether there are more items shows in the mark after each of them. -/
theorem later_cut {f : α → List Char} (hf : Unambiguous f) {depth : Nat} {as bs : List α}
    {s t : List Char} (hs : Ends ('\n' :: s)) (ht : Ends ('\n' :: t))
    (h : later depth (as.map f) ++ '\n' :: s = later depth (bs.map f) ++ '\n' :: t) :
    as = bs ∧ s = t := by
  induction as generalizing bs with
  | nil =>
      cases bs with
      | nil => exact ⟨rfl, (List.cons.inj h).2⟩
      | cons b bs => exact absurd (List.cons.inj h).1 (by decide)
  | cons a as ih =>
      cases bs with
      | nil => exact absurd (List.cons.inj h).1 (by decide)
      | cons b bs =>
          have h : (',' :: newline depth) ++ (f a ++ (later depth (as.map f) ++ '\n' :: s)) =
              (',' :: newline depth) ++ (f b ++ (later depth (bs.map f) ++ '\n' :: t)) := by
            simpa [later] using h
          obtain ⟨rfl, hrest⟩ := hf a b _ _ (ends_later depth _ hs) (ends_later depth _ ht)
            (List.append_cancel_left h)
          obtain ⟨rfl, rfl⟩ := ih hrest
          exact ⟨rfl, rfl⟩

theorem unambiguous_enclose {f : α → List Char} (hf : Unambiguous f) {opening closing : Char}
    (hclosing : closing ≠ '\n') (depth : Nat) :
    Unambiguous fun as : List α => enclose opening closing depth (as.map f) := by
  intro as bs s t _ _ h
  cases as with
  | nil =>
      cases bs with
      | nil => exact ⟨rfl, (List.cons.inj (List.cons.inj h).2).2⟩
      | cons b bs => exact absurd (List.cons.inj (List.cons.inj h).2).1 hclosing
  | cons a as =>
      cases bs with
      | nil => exact absurd (List.cons.inj (List.cons.inj h).2).1.symm hclosing
      | cons b bs =>
          -- as if a comma stood in front of the first item, too
          have hlater : later (depth + 1) ((a :: as).map f) ++
                '\n' :: (List.replicate (2 * depth) ' ' ++ closing :: s) =
              later (depth + 1) ((b :: bs).map f) ++
                '\n' :: (List.replicate (2 * depth) ' ' ++ closing :: t) := by
            simp only [List.map_cons, enclose_cons, List.cons_append, List.cons.injEq] at h
            simpa [later, newline] using h.2
          obtain ⟨hitems, hrest⟩ := later_cut hf (.inr rfl) (.inr rfl) hlater
          exact ⟨hitems, (List.cons.inj (List.append_cancel_left hrest)).2⟩

/-! ## Whole numbers -/

theorem layoutItems_map {g : α → Value} (depth : Nat) (as : List α) :
    layoutItems depth (as.map g) = as.map fun a => layout depth (g a) := by
  induction as with
  | nil => rfl
  | cons a as ih => rw [List.map_cons, layoutItems, ih, List.map_cons]

theorem layout_list {g : α → Value} (depth : Nat) (as : List α) :
    layout depth (.list (as.map g)) =
      enclose '[' ']' depth (as.map fun a => layout (depth + 1) (g a)) := by
  rw [layout, layoutItems_map]

theorem isWord_nat (n : Nat) : IsWord n.repr.toList := by
  rw [Nat.repr_eq_ofList_toDigits, String.toList_ofList]
  intro c hc
  have hdigit := Nat.isDigit_of_mem_toDigits (by decide) (by decide) hc
  constructor <;> rintro rfl <;> exact absurd hdigit (by decide)

theorem isWord_int (i : Int) : IsWord (toString i).toList := by
  rw [Int.toString_eq_repr, Int.repr_eq_if]
  split
  · exact isWord_nat _
  · rw [String.toList_append]
    intro c hc
    rcases List.mem_append.1 hc with hminus | hdigits
    · obtain rfl := List.mem_singleton.1 hminus
      decide
    · exact isWord_nat _ c hdigits

theorem unambiguous_int (depth : Nat) : Unambiguous fun i : Int => layout depth (.int i) := by
  refine unambiguous_of_words isWord_int fun i j h => ?_
  have htext : toString i = toString j := String.toList_inj.1 h
  rw [Int.toString_eq_repr, Int.toString_eq_repr] at htext
  exact Int.repr_inj.1 htext

end OptimalAssignment.Json
