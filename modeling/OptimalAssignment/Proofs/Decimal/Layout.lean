import OptimalAssignment.Decimal.Layout

/-!
# The characters of written doubles

A written double consists of digits, of signs, points and the mark of the exponent, and of what its
layout has of its own: the ends of whole numbers, and the words for infinity and NaN.
-/

namespace OptimalAssignment.Decimal

open Binary

/-- The texts that a layout puts in. -/
def Layout.ownText (l : Layout) : List Char :=
  l.wholeTail.toList ++ l.digitTail.toList ++ l.nan.toList ++ l.infinite.toList

/-- The characters that a layout writes. -/
def Layout.Writes (l : Layout) (c : Char) : Prop :=
  c.isDigit = true ∨ c ∈ ['+', '-', '.', 'e'] ∨ c ∈ l.ownText

variable {l : Layout} {c : Char}

theorem isDigit_of_mem_digitsOf {n : Nat} (h : c ∈ digitsOf n) : c.isDigit = true := by
  unfold digitsOf at h
  rw [Nat.toString_eq_repr, Nat.repr_eq_ofList_toDigits, String.toList_ofList] at h
  exact Nat.isDigit_of_mem_toDigits (by decide) (by decide) h

theorem isDigit_of_mem_zeros {n : Nat} (h : c ∈ zeros n) : c.isDigit = true := by
  rw [(List.mem_replicate.1 h).2]
  rfl

theorem isDigit_of_mem_leading {n : Nat} {g : Int} (h : c ∈ (leading n g).1) :
    c.isDigit = true := by
  unfold leading at h
  have hmem := (List.dropWhile_sublist _).mem (List.mem_reverse.1 h)
  exact isDigit_of_mem_digitsOf (List.mem_reverse.1 hmem)

/-- A fraction is one of digits behind a point, or the text that stands for none. -/
theorem mem_tail {tail : List Char} {standard : String} (htail : ∀ d ∈ tail, d.isDigit = true)
    (hown : ∀ d ∈ standard.toList, d ∈ l.ownText)
    (h : c ∈ if tail.isEmpty then standard.toList else '.' :: tail) : l.Writes c := by
  split at h
  · exact .inr (.inr (hown c h))
  · rcases List.mem_cons.1 h with rfl | hc
    · exact .inr (.inl (by decide))
    · exact .inl (htail c hc)

theorem mem_place {ds : List Char} {power : Int} (hds : ∀ d ∈ ds, d.isDigit = true)
    (h : c ∈ place l.wholeTail ds power) : l.Writes c := by
  unfold place at h
  split at h
  · simp only [List.cons_append, List.mem_cons, List.mem_append] at h
    rcases h with rfl | rfl | hc | hc
    · exact .inl rfl
    · exact .inr (.inl (by decide))
    · exact .inl (isDigit_of_mem_zeros hc)
    · exact .inl (hds c hc)
  · rcases List.mem_append.1 h with hc | hc
    · rcases List.mem_append.1 hc with hc | hc
      · exact .inl (hds c (List.mem_of_mem_take hc))
      · exact .inl (isDigit_of_mem_zeros hc)
    · apply mem_tail (fun d hd => hds d (List.mem_of_mem_drop hd)) (fun d hd => ?_) hc
      simp [Layout.ownText, hd]

theorem mem_exponentText {power : Int} (h : c ∈ exponentText power) :
    c.isDigit = true ∨ c = '+' ∨ c = '-' := by
  unfold exponentText at h
  rcases List.mem_append.1 h with hc | hc
  · rcases List.mem_cons.1 hc with rfl | hc
    · split <;> simp
    · exact .inl (isDigit_of_mem_zeros hc)
  · exact .inl (isDigit_of_mem_digitsOf hc)

theorem mem_withExponent {ds : List Char} {power : Int} (hds : ∀ d ∈ ds, d.isDigit = true)
    (h : c ∈ withExponent l.digitTail ds power) : l.Writes c := by
  unfold withExponent at h
  rcases List.mem_append.1 h with hc | hc
  · rcases List.mem_append.1 hc with hc | hc
    · exact .inl (hds c (List.mem_of_mem_take hc))
    · apply mem_tail (fun d hd => hds d (List.mem_of_mem_drop hd)) (fun d hd => ?_) hc
      simp [Layout.ownText, hd]
  · rcases List.mem_cons.1 hc with rfl | hc
    · exact .inr (.inl (by decide))
    · rcases mem_exponentText hc with hc | rfl | rfl
      · exact .inl hc
      · exact .inr (.inl (by decide))
      · exact .inr (.inl (by decide))

theorem mem_digits {ds : List Char} {power : Int} (hds : ∀ d ∈ ds, d.isDigit = true)
    (h : c ∈ l.digits ds power) : l.Writes c := by
  unfold Layout.digits at h
  split at h
  · exact mem_place hds h
  · exact mem_withExponent hds h

theorem mem_signed {negative : Bool} {cs : List Char} (hcs : ∀ d ∈ cs, l.Writes d)
    (h : c ∈ (Layout.signed negative cs).toList) : l.Writes c := by
  unfold Layout.signed at h
  rw [String.toList_ofList] at h
  split at h
  · rcases List.mem_cons.1 h with rfl | hc
    · exact .inr (.inl (by decide))
    · exact hcs c hc
  · exact hcs c h

/-! ## Whole texts -/

theorem write_nan {x : Float} (h : exact x = .nan) : l.write x = l.nan := by
  unfold Layout.write Layout.writeWith
  rw [h]

theorem write_infinite {x : Float} {negative : Bool} (h : exact x = .infinite negative) :
    l.write x = Layout.signed negative l.infinite.toList := by
  unfold Layout.write Layout.writeWith
  rw [h]

theorem write_zero {x : Float} {negative : Bool} {e : Int} (h : exact x = .finite negative 0 e) :
    l.write x = Layout.signed negative (l.digits ['0'] 0) := by
  unfold Layout.write Layout.writeWith
  rw [h]
  rfl

theorem write_finite {x : Float} {negative : Bool} {m : Nat} {e : Int}
    (h : exact x = .finite negative m e) (hm : m ≠ 0) :
    l.write x = Layout.signed negative (l.digits (leading (shortest m e).1 (shortest m e).2).1
      (leading (shortest m e).1 (shortest m e).2).2) := by
  unfold Layout.write Layout.writeWith
  rw [h]
  exact if_neg hm

theorem mem_write {x : Float} (h : c ∈ (l.write x).toList) : l.Writes c := by
  cases hx : exact x with
  | nan =>
      rw [write_nan hx] at h
      exact .inr (.inr (by simp [Layout.ownText, h]))
  | infinite negative =>
      rw [write_infinite hx] at h
      exact mem_signed (fun d hd => .inr (.inr (by simp [Layout.ownText, hd]))) h
  | finite negative m e =>
      by_cases hm : m = 0
      · have hdigit : ∀ d ∈ ['0'], d.isDigit = true := by
          intro d hd
          rw [List.mem_singleton.1 hd]
          rfl
        rw [hm] at hx
        rw [write_zero hx] at h
        exact mem_signed (fun d hd => mem_digits hdigit hd) h
      · rw [write_finite hx hm] at h
        exact mem_signed (fun d hd => mem_digits (fun _ => isDigit_of_mem_leading) hd) h

end OptimalAssignment.Decimal
