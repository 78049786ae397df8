import OptimalAssignment.Proofs.Decimal.Reading
import OptimalAssignment.Proofs.Yaml.Written

/-!
# Numbers that are written

A number that is not negative is written as a word without quotes.  The word looks like a real to a
document, and it is read as the number.
-/

namespace OptimalAssignment.Yaml

open Decimal (Numeral Layout nearest ne_of_isDigit)

/-! ## Numerals look like reals -/

def isNumeralChar (c : Char) : Bool :=
  c.isDigit || ['+', '-', '.', 'e'].contains c

theorem isWordChar_of_isNumeralChar {c : Char} (h : isNumeralChar c = true) :
    isWordChar c = true := by
  unfold isNumeralChar at h
  unfold isWordChar Char.isAlphanum
  rcases Bool.or_eq_true_iff.1 h with h | h
  · simp [h]
  · simp only [List.contains_iff_mem, List.mem_cons, List.not_mem_nil, or_false] at h
    rcases h with rfl | rfl | rfl | rfl <;> decide

/-- The characters of numerals have no upper case, and neither groups nor places are among them. -/
theorem numeralChar {c : Char} (h : isNumeralChar c = true) :
    c.toLower = c ∧ c ≠ '_' ∧ c ≠ ':' := by
  have hclass : (!isNumeralChar c || (c.toLower == c && c != '_' && c != ':')) = true :=
    forall_wordChar (p := fun c => !isNumeralChar c || (c.toLower == c && c != '_' && c != ':'))
      (by decide +kernel) (isWordChar_of_isNumeralChar h)
  rw [h] at hclass
  simpa [and_assoc] using hclass

theorem numeral_chars (n : Numeral) : ∀ c ∈ n.text, isNumeralChar c = true := by
  intro c hc
  unfold isNumeralChar
  rcases Numeral.mem_text hc with h | h
  · rw [h, Bool.true_or]
  · rw [List.contains_iff_mem.2 h, Bool.or_true]

theorem isExponent_exponentText (power : Int) :
    isExponent true ('e' :: Decimal.exponentText power) = true := by
  obtain ⟨ds, htext, hne, hdigits, -⟩ := Decimal.exponentText_eq power
  have hrow : isRow Char.isDigit ds = true := by
    rw [isRow, List.all_eq_true.2 hdigits, Bool.and_true, Bool.not_eq_true', ← Bool.not_eq_true,
      List.isEmpty_iff]
    exact hne
  rw [htext]
  split
  · exact hrow
  · exact hrow

theorem isPointed_text {cs : List Char} {n : Numeral} (h : unsigned cs = n.text) :
    isPointed true isGrouped cs = true := by
  have hwhole : ∀ c ∈ n.whole, isGroupDigit c = true := fun c hc => by
    rw [isGroupDigit, n.digits c (List.mem_append_left _ hc), Bool.true_or]
  have hfraction : ∀ c ∈ n.fraction, isGroupDigit c = true := fun c hc => by
    rw [isGroupDigit, n.digits c (List.mem_append_right _ hc), Bool.true_or]
  have hgrouped : isGrouped n.whole = true := by
    obtain ⟨c, ds, hcons⟩ := List.exists_cons_of_ne_nil n.begun
    rw [hcons] at hwhole ⊢
    show (c.isDigit && ds.all isGroupDigit) = true
    rw [n.digits c (by simp [hcons]), Bool.true_and, List.all_eq_true]
    exact fun d hd => hwhole d (List.mem_cons_of_mem _ hd)
  have htail : n.tail.dropWhile isGroupDigit = n.tail ∧
      (n.tail.isEmpty || isExponent true n.tail) = true := by
    unfold Numeral.tail
    cases n.exponent with
    | none => exact ⟨rfl, rfl⟩
    | some power => exact ⟨rfl, isExponent_exponentText power⟩
  have hpoint : ∀ ds, ('.' :: ds).takeWhile isGroupDigit = [] ∧
      ('.' :: ds).dropWhile isGroupDigit = '.' :: ds := fun _ => ⟨rfl, rfl⟩
  unfold isPointed
  simp only [h]
  unfold Numeral.text
  rw [List.dropWhile_append_of_pos hwhole, List.takeWhile_append_of_pos hwhole, (hpoint _).1,
    (hpoint _).2, List.append_nil]
  show (isGrouped n.whole && _) = true
  rw [List.dropWhile_append_of_pos hfraction, htail.1, hgrouped, htail.2]
  rfl

theorem all_eq_false_of_mem {p : Char → Bool} {c : Char} {cs : List Char} (hp : p c = false)
    (h : c ∈ cs) : cs.all p = false := by
  rw [Bool.eq_false_iff, Ne, List.all_eq_true]
  exact fun hall => Bool.false_ne_true (hp.symm.trans (hall c h))

theorem mem_tail_of_ne {c d : Char} {cs : List Char} (hne : d ≠ c) (h : c ∈ d :: cs) : c ∈ cs :=
  (List.mem_cons.1 h).resolve_left (Ne.symm hne)

theorem isGrouped_eq_false {cs : List Char} (h : '.' ∈ cs) : isGrouped cs = false := by
  unfold isGrouped
  split
  · rename_i c cs
    by_cases hc : c = '.'
    · rw [hc]
      rfl
    · rw [all_eq_false_of_mem rfl (mem_tail_of_ne hc h), Bool.and_false]
  · rfl

/-- What has a point is no whole number. -/
theorem isWhole_eq_false {cs : List Char} (hpoint : '.' ∈ unsigned cs)
    (hcolon : ':' ∉ unsigned cs) : isWhole cs = false := by
  unfold isWhole
  generalize unsigned cs = ds at *
  have hbinary : isBinary ds = false := by
    unfold isBinary
    split
    · have hrest := mem_tail_of_ne (by decide) (mem_tail_of_ne (by decide) hpoint)
      rw [isRow, all_eq_false_of_mem rfl hrest, Bool.and_false]
    · rfl
  have hoctal : isOctal ds = false := by
    unfold isOctal
    split
    · rw [isRow, all_eq_false_of_mem rfl (mem_tail_of_ne (by decide) hpoint), Bool.and_false]
    · rfl
  have hdecimal : isDecimal ds = false := by
    have hzero : ds ≠ ['0'] := by
      rintro rfl
      exact absurd hpoint (by decide)
    rw [isDecimal, isGrouped_eq_false hpoint, Bool.and_false, Bool.or_false]
    exact beq_eq_false_iff_ne.2 hzero
  have hhexadecimal : isHexadecimal ds = false := by
    unfold isHexadecimal
    split
    · have hrest := mem_tail_of_ne (by decide) (mem_tail_of_ne (by decide) hpoint)
      rw [isRow, all_eq_false_of_mem rfl hrest, Bool.and_false]
    · rfl
  -- without colons there is only one place to the base of sixty
  have hsexagesimal : isSexagesimal ds = false := by
    unfold isSexagesimal splitAtColons
    rw [List.splitOn_eq_splitOnP, List.splitOnP_eq_singleton]
    intro c hc
    exact beq_eq_false_iff_ne.2 fun h => hcolon (h ▸ hc)
  simp only [hbinary, hoctal, hdecimal, hhexadecimal, hsexagesimal]
  rfl

/-- Words for truth values and for nothing start with a letter or a mark. -/
theorem not_word {c : Char} (hc : (c.isDigit || c == '-') = true) (cs : List Char) :
    truths.lookup (String.ofList (c :: cs)) = none ∧
      nulls.contains (String.ofList (c :: cs)) = false := by
  have hne : ∀ s : String, s.toList.head?.any (fun c => c.isDigit || c == '-') = false →
      String.ofList (c :: cs) ≠ s := by
    rintro _ h rfl
    rw [String.toList_ofList] at h
    exact Bool.false_ne_true (h.symm.trans hc)
  constructor
  · rw [List.lookup_eq_none_iff]
    have hall : ∀ p ∈ truths, p.1.toList.head?.any (fun c => c.isDigit || c == '-') = false := by
      decide
    intro p hp
    exact bne_iff_ne.2 (hne p.1 (hall p hp))
  · have hall : ∀ s ∈ nulls, s.toList.head?.any (fun c => c.isDigit || c == '-') = false := by
      decide
    rw [Bool.eq_false_iff, Ne, List.contains_iff_mem]
    exact fun hmem => hne _ (hall _ hmem) rfl

/-! ## Numbers -/

/-- A word that is read as a real. -/
structure ReadsReal (w : List Char) (x : Float) : Prop where
  legible : (Word.mk true w).Legible
  tag : Tag.ofText (String.ofList w) = .real
  value : realOf (String.ofList w) = .ok x

/-- A numeral, perhaps with a sign. -/
def signedText (negative : Bool) (n : Numeral) : List Char :=
  if negative then '-' :: n.text else n.text

section
variable (negative : Bool) (n : Numeral)

theorem signedText_chars : ∀ c ∈ signedText negative n, isNumeralChar c = true := by
  intro c hc
  unfold signedText at hc
  split at hc
  · rcases List.mem_cons.1 hc with rfl | hc
    · decide
    · exact numeral_chars n c hc
  · exact numeral_chars n c hc

theorem splitSign_signedText : splitSign (signedText negative n) = (negative, n.text) := by
  obtain ⟨d, ds, hcons, hd⟩ := n.head
  have hne : ∀ c : Char, c.isDigit = false → d ≠ c := fun _ => ne_of_isDigit hd
  unfold signedText splitSign
  cases negative with
  | true => rfl
  | false =>
      have hunsigned : unsigned (d :: ds) = d :: ds := by
        unfold unsigned
        split
        · rename_i heq
          exact absurd (List.cons.inj heq).1 (hne '+' rfl)
        · rename_i heq
          exact absurd (List.cons.inj heq).1 (hne '-' rfl)
        · rfl
      rw [if_neg Bool.false_ne_true, hcons, hunsigned]
      simp [hne '-' rfl]

theorem signedText_start : ∃ c cs, signedText negative n = c :: cs ∧
    (c.isDigit || c == '-') = true ∧ signedText negative n ≠ ['-'] := by
  obtain ⟨d, ds, hcons, hd⟩ := n.head
  unfold signedText
  rw [hcons]
  cases negative with
  | true => exact ⟨'-', d :: ds, rfl, rfl, by simp⟩
  | false =>
      refine ⟨d, ds, rfl, by rw [hd, Bool.true_or], ?_⟩
      rw [if_neg Bool.false_ne_true]
      exact fun heq => ne_of_isDigit hd (by decide) (List.cons.inj heq).1

theorem ofText_signedText : Tag.ofText (String.ofList (signedText negative n)) = .real := by
  obtain ⟨c, cs, hcons, hstart, -⟩ := signedText_start negative n
  have hunsigned : unsigned (signedText negative n) = n.text :=
    congrArg Prod.snd (splitSign_signedText negative n)
  have hpoint : '.' ∈ unsigned (signedText negative n) := by
    rw [hunsigned]
    simp [Numeral.text]
  have hcolon : ':' ∉ unsigned (signedText negative n) := by
    rw [hunsigned]
    exact fun hc => absurd (numeral_chars n _ hc) (by decide)
  have hreal : isReal (signedText negative n) = true := by
    unfold isReal isStrictReal
    rw [isPointed_text hunsigned]
    rfl
  obtain ⟨htruth, hnull⟩ := not_word hstart cs
  unfold Tag.ofText
  rw [String.toList_ofList]
  simp only [isWhole_eq_false hpoint hcolon, hreal]
  rw [hcons, htruth, hnull]
  rfl

theorem infinity_word : ".inf".toList = ['.', 'i', 'n', 'f'] :=
  String.toList_ofList

theorem nan_word : ".nan".toList = ['.', 'n', 'a', 'n'] :=
  String.toList_ofList

/-- A numeral is read as the double nearest to it, negated if it has a minus. -/
theorem realOf_signedText : realOf (String.ofList (signedText negative n)) =
    .ok (if negative then -nearest false (Text.ofDigits (n.whole ++ n.fraction)) n.power
      else nearest false (Text.ofDigits (n.whole ++ n.fraction)) n.power) := by
  have hchars := signedText_chars negative n
  -- there are no groups to take out and no capitals to lower
  have hgroups : withoutGroups (String.ofList (signedText negative n)) =
      signedText negative n := by
    unfold withoutGroups
    rw [String.toList_ofList, List.filter_eq_self]
    exact fun c hc => bne_iff_ne.2 (numeralChar (hchars c hc)).2.1
  have hlower : (signedText negative n).map Char.toLower = signedText negative n :=
    (List.map_congr_left fun c hc => (numeralChar (hchars c hc)).1).trans (List.map_id _)
  obtain ⟨c, cs, hcons, -, -⟩ := signedText_start negative n
  obtain ⟨d, ds, htext, hd⟩ := n.head
  have hpoint : ∀ w : List Char, (n.text == '.' :: w) = false := by
    intro w
    rw [htext, beq_eq_false_iff_ne]
    exact fun heq => ne_of_isDigit hd (by decide) (List.cons.inj heq).1
  have hcolon : n.text.contains ':' = false := by
    rw [Bool.eq_false_iff, Ne, List.contains_iff_mem]
    exact fun hc => absurd (numeral_chars n _ hc) (by decide)
  have hmagnitude : realMagnitude? n.text =
      some (nearest false (Text.ofDigits (n.whole ++ n.fraction)) n.power) := by
    unfold realMagnitude?
    rw [hcolon, if_neg Bool.false_ne_true, looseReal?_word, n.real?_text]
    · exact fun c hc => isWordChar_of_isNumeralChar (numeral_chars n c hc)
    · exact fun hc => absurd (numeral_chars n _ hc) (by decide)
  unfold realOf
  rw [hgroups, hlower, infinity_word, nan_word]
  simp only [splitSign_signedText, hmagnitude, hpoint]
  rw [if_neg (by rw [hcons]; exact Bool.false_ne_true)]
  rfl

theorem readsReal_signedText : ReadsReal (signedText negative n)
    (if negative then -nearest false (Text.ofDigits (n.whole ++ n.fraction)) n.power
      else nearest false (Text.ofDigits (n.whole ++ n.fraction)) n.power) where
  legible := by
    obtain ⟨c, cs, hcons, -, hdash⟩ := signedText_start negative n
    refine ⟨fun c hc => isWordChar_of_isNumeralChar (signedText_chars negative n c hc), fun _ => ?_⟩
    exact ⟨hcons ▸ List.cons_ne_nil c cs, hdash⟩
  tag := ofText_signedText negative n
  value := realOf_signedText negative n

end

theorem readsReal_infinity : ReadsReal ['.', 'i', 'n', 'f'] (Binary.infinity false) where
  legible := ⟨List.all_eq_true.1 (by decide), fun _ => ⟨List.cons_ne_nil _ _, by simp⟩⟩
  tag := by decide +kernel
  value := by
    have hlower : (withoutGroups (String.ofList ['.', 'i', 'n', 'f'])).map Char.toLower =
        ['.', 'i', 'n', 'f'] := by
      unfold withoutGroups
      rw [String.toList_ofList]
      decide
    unfold realOf
    rw [hlower, infinity_word]
    rfl

theorem number_pointed : number.Pointed :=
  ⟨rfl, rfl⟩

theorem readsReal_finite {x : Float} {m : Nat} {e : Int}
    (h : Binary.exact x = .finite false m e) : ReadsReal (number.write x).toList x := by
  obtain ⟨n, htext, hvalue⟩ := number_pointed.write_finite h
  have hwritten : (number.write x).toList = signedText false n := by
    rw [htext, Layout.signed, String.toList_ofList]
    rfl
  have hread := readsReal_signedText false n
  rw [if_neg Bool.false_ne_true, hvalue h] at hread
  rw [hwritten]
  exact hread

/-- The negative zero is made from the other one. -/
theorem readsReal_negative_zero {x : Float} (h : Binary.exact x = .finite true 0 (-1074)) :
    ReadsReal (number.write x).toList x := by
  obtain ⟨n, htext, hvalue⟩ := number_pointed.write_finite h
  have hwritten : (number.write x).toList = signedText true n := by
    rw [htext, Layout.signed, String.toList_ofList]
    rfl
  have hzero : Binary.exact 0.0 = .finite false 0 (-1074) := by rfl
  have hnegated : x = -0.0 := by
    rw [← Binary.ofBits_encode h]
    rfl
  have hread := readsReal_signedText true n
  rw [if_pos rfl, hvalue hzero] at hread
  rw [hwritten, hnegated]
  exact hread

/-- What is written of a number that is not negative is read as the number. -/
theorem readsReal_write {x : Float} (hx : 0 ≤ x) : ReadsReal (number.write x).toList x := by
  have hexact := Binary.exact_eq_ofUnpacked x
  rcases Binary.unsigned_cases hx with h | ⟨s, h⟩ | ⟨m, e, hm, h, -, -⟩
  · rw [h] at hexact
    have hinfinite : number.infinite.toList = ['.', 'i', 'n', 'f'] := infinity_word
    rw [Decimal.write_infinite hexact, Binary.eq_infinity hexact, Layout.signed,
      String.toList_ofList, hinfinite]
    exact readsReal_infinity
  · rw [h] at hexact
    cases s with
    | positive => exact readsReal_finite hexact
    | negative => exact readsReal_negative_zero hexact
  · rw [h] at hexact
    exact readsReal_finite hexact

/-! ## Values -/

/-- A value as it is written. -/
def Word.ofValue : Value → Word
  | .text s => .ofText s
  | v => ⟨true, scalarAt ⟨0, false⟩ 0 v⟩

/-- The values that are written as one word, from which they are read back. -/
inductive Simple : Value → Prop where
  | bool (b : Bool) : Simple (.bool b)
  | real {x : Float} : 0 ≤ x → Simple (.real x)
  | text {s : String} : (∀ c ∈ s.toList, isWordChar c = true) → '_' ∉ s.toList → Simple (.text s)

variable {v : Value}

theorem Simple.legible (h : Simple v) : (Word.ofValue v).Legible := by
  cases h with
  | bool b => cases b <;> exact ⟨List.all_eq_true.1 (by decide), fun _ => by decide⟩
  | real hx => exact (readsReal_write hx).legible
  | text hs _ => exact Word.legible_ofText hs

theorem Simple.read (h : Simple v) :
    makeScalar (Word.ofValue v).tag (String.ofList (Word.ofValue v).text) = .ok (.leaf v) := by
  cases h with
  | bool b => cases b <;> rfl
  | @real x hx =>
      have hread := readsReal_write hx
      have hword : Word.ofValue (.real x) = ⟨true, (number.write x).toList⟩ := rfl
      rw [hword, Word.tag, if_pos rfl, hread.tag, makeScalar, hread.value]
      rfl
  | text hs hgroup => exact Word.value_ofText hs hgroup

theorem Simple.written (h : Simple v) (indent column : Nat) :
    afterKey indent column v = ' ' :: ((Word.ofValue v).chars ++ ['\n']) := by
  cases h with
  | bool b => rfl
  | real _ => rfl
  | @text s hs _ =>
      show ' ' :: textAt _ _ s ++ ['\n'] = _
      rw [textAt_word hs]
      rfl

end OptimalAssignment.Yaml
