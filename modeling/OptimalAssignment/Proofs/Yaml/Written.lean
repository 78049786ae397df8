import Mathlib.Data.List.SplitBy
import OptimalAssignment.Proofs.Yaml.Entries
import OptimalAssignment.Yaml.Writer

/-!
# Words that are written

A text of letters, digits, points and hyphens is written as one word.  It has quotes if it looks
like anything else than a text, so a word without quotes is read as the text that it is.
-/

namespace OptimalAssignment.Yaml

open Decimal (looseReal? loosen joinGroups plainDigit)

/-! ## Words that look like numbers -/

theorem plainDigit_of_isWordChar {c : Char} (h : isWordChar c = true) : plainDigit c = c := by
  have hsame : (plainDigit c == c) = true :=
    forall_wordChar (p := fun c => plainDigit c == c) (by decide +kernel) h
  exact eq_of_beq hsame

theorem isNumberBlank_of_isWordChar {c : Char} (h : isWordChar c = true) :
    Text.isNumberBlank c = false :=
  forall_wordChar_not (by decide +kernel) h

theorem joinGroups_of_not_mem {cs : List Char} (h : '_' ∉ cs) : joinGroups cs = some cs := by
  induction cs with
  | nil => rfl
  | cons c cs ih =>
      obtain ⟨hc, hcs⟩ := not_or.1 (List.mem_cons.not.1 h)
      rw [joinGroups, if_neg (by simpa using Ne.symm hc), ih hcs]
      · rfl
      · rintro d ds rfl
        exact absurd List.mem_cons_self hcs

theorem dropWhile_eq_self {p : Char → Bool} {cs : List Char} (h : ∀ c ∈ cs, p c = false) :
    cs.dropWhile p = cs := by
  cases cs with
  | nil => rfl
  | cons c cs => rw [List.dropWhile_cons, if_neg (by simp [h c])]

/-- A word without underscores is read as a number as it stands. -/
theorem looseReal?_word {w : List Char} (hw : ∀ c ∈ w, isWordChar c = true) (hgroup : '_' ∉ w) :
    looseReal? (String.ofList w) = Decimal.real? w := by
  have htrim : Text.trim Text.isNumberBlank w = w := by
    unfold Text.trim
    rw [dropWhile_eq_self fun c hc => isNumberBlank_of_isWordChar (hw c hc), dropWhile_eq_self
      fun c hc => isNumberBlank_of_isWordChar (hw c (List.mem_reverse.1 hc)), List.reverse_reverse]
  have hdigits : w.map plainDigit = w :=
    (List.map_congr_left fun c hc => plainDigit_of_isWordChar (hw c hc)).trans (List.map_id w)
  unfold looseReal? loosen
  rw [String.toList_ofList, htrim, hdigits, joinGroups_of_not_mem hgroup]
  rfl

theorem sign_snd (cs : List Char) : (Decimal.sign cs).2 = unsigned cs := by
  unfold Decimal.sign unsigned
  split
  · rfl
  · rfl
  · rename_i hminus hplus
    split
    · exact absurd rfl (hplus _)
    · exact absurd rfl (hminus _)
    · rfl

theorem exponent?_isSome {cs : List Char} (h : isRow Char.isDigit (unsigned cs) = true) :
    (Decimal.exponent? cs).isSome = true := by
  obtain ⟨hne, hdigits⟩ := Bool.and_eq_true_iff.1 h
  unfold Decimal.exponent?
  simp only [sign_snd]
  rw [if_neg (by simp [hdigits] at hne ⊢; exact hne)]
  rfl

theorem tail?_isSome {signNeeded : Bool} {cs : List Char}
    (h : (cs.isEmpty || isExponent signNeeded cs) = true) : (Decimal.tail? cs).isSome = true := by
  cases cs with
  | nil => rfl
  | cons c cs =>
      obtain ⟨hmark, hdigits⟩ := Bool.and_eq_true_iff.1 (show isExponent _ (c :: cs) = true from h)
      have hrow : isRow Char.isDigit (unsigned cs) = true := by
        unfold unsigned
        split at hdigits
        · exact hdigits
        · exact hdigits
        · exact (Bool.and_eq_true_iff.1 hdigits).2
      unfold Decimal.tail?
      simp only [hmark]
      exact exponent?_isSome hrow

theorem takeWhile_congr {p q : Char → Bool} {cs : List Char} (h : ∀ c ∈ cs, p c = q c) :
    cs.takeWhile p = cs.takeWhile q := by
  induction cs with
  | nil => rfl
  | cons c cs ih =>
      rw [List.takeWhile_cons, List.takeWhile_cons, h c List.mem_cons_self,
        ih fun d hd => h d (List.mem_cons_of_mem _ hd)]

theorem dropWhile_congr {p q : Char → Bool} {cs : List Char} (h : ∀ c ∈ cs, p c = q c) :
    cs.dropWhile p = cs.dropWhile q := by
  induction cs with
  | nil => rfl
  | cons c cs ih =>
      rw [List.dropWhile_cons, List.dropWhile_cons, h c List.mem_cons_self,
        ih fun d hd => h d (List.mem_cons_of_mem _ hd)]

theorem unsigned?_isSome {cs : List Char} (hwhole : (Decimal.mantissa cs).1 ≠ [])
    (htail : (Decimal.tail? (Decimal.mantissa cs).2.2).isSome = true) (negative : Bool) :
    (Decimal.unsigned? negative cs).isSome = true := by
  unfold Decimal.unsigned?
  simp only []
  rw [if_neg (by simp [hwhole]), Option.isSome_map]
  exact htail

theorem mantissa_fst (cs : List Char) : (Decimal.mantissa cs).1 = cs.takeWhile Char.isDigit := by
  unfold Decimal.mantissa
  simp only []
  split <;> rfl

theorem ne_nil_of_isSeparated {cs : List Char} (h : isSeparated cs = true) : cs ≠ [] := by
  rintro rfl
  exact absurd h (by decide)

/-- Without underscores the digits of groups are digits. -/
theorem isGroupDigit_eq {cs : List Char} (hgroup : '_' ∉ cs) :
    ∀ c ∈ cs, isGroupDigit c = c.isDigit := by
  intro c hc
  have hne : c ≠ '_' := fun h => hgroup (h ▸ hc)
  simp [isGroupDigit, hne]

theorem not_mem_unsigned {c : Char} {cs : List Char} (h : c ∉ cs) : c ∉ unsigned cs := by
  unfold unsigned
  split
  · exact fun hc => h (List.mem_cons_of_mem _ hc)
  · exact fun hc => h (List.mem_cons_of_mem _ hc)
  · exact h

theorem unsigned?_of_isPointed {cs : List Char} (hgroup : '_' ∉ unsigned cs)
    (h : isPointed false isSeparated cs = true) (negative : Bool) :
    (Decimal.unsigned? negative (unsigned cs)).isSome = true := by
  unfold isPointed at h
  simp only [takeWhile_congr (isGroupDigit_eq hgroup), dropWhile_congr (isGroupDigit_eq hgroup)] at h
  split at h
  · rename_i rest hrest
    obtain ⟨hwhole, htail⟩ := Bool.and_eq_true_iff.1 h
    have hmantissa : (Decimal.mantissa (unsigned cs)).2.2 = rest.dropWhile Char.isDigit := by
      unfold Decimal.mantissa
      rw [hrest]
      rfl
    have hgroup' : '_' ∉ rest := fun hc =>
      hgroup (List.dropWhile_subset _ (hrest ▸ List.mem_cons_of_mem _ hc))
    rw [dropWhile_congr (isGroupDigit_eq hgroup')] at htail
    exact unsigned?_isSome (mantissa_fst _ ▸ ne_nil_of_isSeparated hwhole)
      (hmantissa ▸ tail?_isSome htail) negative
  · cases h

theorem unsigned?_of_isScaled {cs : List Char} (hgroup : '_' ∉ unsigned cs)
    (h : isScaled cs = true) (negative : Bool) :
    (Decimal.unsigned? negative (unsigned cs)).isSome = true := by
  unfold isScaled at h
  simp only [takeWhile_congr (isGroupDigit_eq hgroup), dropWhile_congr (isGroupDigit_eq hgroup)] at h
  obtain ⟨hwhole, htail⟩ := Bool.and_eq_true_iff.1 h
  -- what comes next is the mark of an exponent, so there is no point
  have hmantissa : (Decimal.mantissa (unsigned cs)).2.2 = (unsigned cs).dropWhile Char.isDigit := by
    unfold Decimal.mantissa
    split
    · rename_i rest hrest
      rw [hrest] at htail
      exact absurd htail (by simp [isExponent])
    · rfl
  exact unsigned?_isSome (mantissa_fst _ ▸ ne_nil_of_isSeparated hwhole)
    (hmantissa ▸ tail?_isSome (Bool.or_eq_true_iff.2 (.inr htail))) negative

/-- What looks like a real to a document is a number, if it has no groups of digits. -/
theorem real?_isSome {cs : List Char} (hgroup : '_' ∉ cs)
    (h : (isPointed false isSeparated cs || isScaled cs) = true) :
    (Decimal.real? cs).isSome = true := by
  have hsome : ∀ negative, (Decimal.unsigned? negative (unsigned cs)).isSome = true :=
    (Bool.or_eq_true_iff.1 h).elim (unsigned?_of_isPointed (not_mem_unsigned hgroup))
      (unsigned?_of_isScaled (not_mem_unsigned hgroup))
  unfold Decimal.real?
  simp only [sign_snd]
  cases Decimal.word? (Decimal.sign cs).1 (unsigned cs) with
  | some x => rfl
  | none => exact hsome _

/-! ## Quotes -/

theorem not_mark_of_wordChars {w : List Char} (hw : ∀ c ∈ w, isWordChar c = true) :
    ["!", "&", "*"].contains (String.ofList w) = false := by
  have hmark : ∀ mark : String, mark.toList.all isWordChar = false → String.ofList w ≠ mark := by
    rintro _ hall rfl
    rw [String.toList_ofList] at hall
    exact Bool.false_ne_true (hall.symm.trans (List.all_eq_true.2 hw))
  rw [Bool.eq_false_iff]
  intro hmem
  simp only [List.contains_iff_mem, List.mem_cons, List.not_mem_nil, or_false] at hmem
  rcases hmem with h | h | h <;> exact hmark _ (by decide) h

/-- A word without quotes is a text. -/
theorem ofText_of_plain {w : List Char} (hw : ∀ c ∈ w, isWordChar c = true) (hgroup : '_' ∉ w)
    (h : quoting (String.ofList w) = .plain) : Tag.ofText (String.ofList w) = .text := by
  unfold quoting at h
  simp only [] at h
  split at h
  · rename_i hplain
    simp only [Bool.and_eq_true, Bool.not_eq_true', looksLikeValue, isPlainText, isMark,
      Bool.or_eq_false_iff, String.toList_ofList, looseReal?_word hw hgroup] at hplain
    obtain ⟨⟨⟨-, hnumber⟩, htext⟩, -⟩ := hplain
    obtain ⟨⟨⟨⟨⟨⟨hdefault, hmerge⟩, htruth⟩, hnull⟩, hwhole⟩, hstrict⟩, -⟩ := htext
    have hloose : (isPointed false isSeparated w || isScaled w) = false := by
      rw [Bool.eq_false_iff]
      exact fun hreal => Bool.false_ne_true (hnumber.symm.trans (real?_isSome hgroup hreal))
    have hmarks := not_mark_of_wordChars hw
    have hreal : isReal w = false := by
      unfold isReal
      rw [Bool.or_assoc, hstrict, hloose]
      rfl
    unfold Tag.ofText
    rw [String.toList_ofList]
    simp only [htruth, hnull, hwhole, hreal, hmerge, hdefault, hmarks]
    rfl
  · split at h <;> cases h

theorem hasPair_eq_false {p q : Char → Bool} {cs : List Char}
    (h : (∀ c ∈ cs, p c = false) ∨ ∀ c ∈ cs, q c = false) : hasPair p q cs = false := by
  induction cs with
  | nil => rfl
  | cons a cs ih =>
      cases cs with
      | nil => rfl
      | cons b cs =>
          rw [hasPair, ih (h.imp (fun h c hc => h c (List.mem_cons_of_mem _ hc))
            fun h c hc => h c (List.mem_cons_of_mem _ hc)), Bool.or_false, Bool.and_eq_false_iff]
          exact h.imp (fun h => h a (by simp)) fun h => h b (by simp)

theorem isBreak_of_isWordChar {c : Char} (h : isWordChar c = true) : isBreak c = false :=
  (Bool.or_eq_false_iff.1 (isGap_of_isWordChar h)).2

/-- No word needs an escape. -/
theorem quoting_ne_double {w : List Char} (hw : ∀ c ∈ w, isWordChar c = true) :
    quoting (String.ofList w) ≠ .double := by
  have hbreak : ∀ c ∈ w, isBreak c = false := fun c hc => isBreak_of_isWordChar (hw c hc)
  have hescape : w.any needsEscape = false := by
    rw [List.any_eq_false]
    intro c hc
    rw [forall_wordChar_not (p := needsEscape) (by decide +kernel) (hw c hc)]
    exact Bool.false_ne_true
  have hsingle : allowsSingle w = true := by
    unfold allowsSingle
    rw [hasPair_eq_false (.inl hbreak), hasPair_eq_false (.inr hbreak), hescape]
    rfl
  unfold quoting
  simp only [String.toList_ofList, hsingle]
  split
  · exact nofun
  · exact nofun

/-- What is written without quotes has characters, and a dash is not all of it. -/
theorem ne_of_plain {w : List Char} (h : quoting (String.ofList w) = .plain) :
    w ≠ [] ∧ w ≠ ['-'] := by
  constructor
  · rintro rfl
    exact absurd h (by decide +kernel)
  · rintro rfl
    exact absurd h (by decide +kernel)

/-! ## Texts -/

/-- A text as it is written. -/
def Word.ofText (s : String) : Word :=
  ⟨quoting s == .plain, s.toList⟩

theorem Word.legible_ofText {s : String} (hs : ∀ c ∈ s.toList, isWordChar c = true) :
    (Word.ofText s).Legible where
  chars := hs
  start h := ne_of_plain (by
    show quoting (String.ofList s.toList) = .plain
    rw [String.ofList_toList]
    exact eq_of_beq h)

theorem Word.value_ofText {s : String} (hs : ∀ c ∈ s.toList, isWordChar c = true)
    (hgroup : '_' ∉ s.toList) :
    makeScalar (Word.ofText s).tag (String.ofList (Word.ofText s).text) = .ok (.leaf (.text s)) := by
  have htag : (Word.ofText s).tag = .text := by
    unfold Word.tag
    split
    · rename_i h
      have hplain : quoting (String.ofList s.toList) = .plain := by
        rw [String.ofList_toList]
        exact eq_of_beq h
      exact ofText_of_plain hs hgroup hplain
    · rfl
  rw [htag]
  show Except.ok (Data.leaf (.text (String.ofList s.toList))) = _
  rw [String.ofList_toList]

theorem ne_blank_of_isWordChar {c : Char} (h : isWordChar c = true) : c ≠ ' ' := by
  rintro rfl
  exact absurd (isGap_of_isWordChar h) (by decide)

theorem runs_word {w : List Char} (hw : ∀ c ∈ w, isWordChar c = true) (hne : w ≠ []) :
    runs w = [w] := by
  apply List.splitBy_of_isChain hne
  rw [List.isChain_iff_forall_rel_of_append_cons_cons]
  rintro a b xs ys rfl
  have ha := hw a (by simp)
  have hb := hw b (by simp)
  simp [ne_blank_of_isWordChar ha, ne_blank_of_isWordChar hb, isBreak_of_isWordChar ha,
    isBreak_of_isWordChar hb]

theorem isFold_word {w : List Char} (hw : ∀ c ∈ w, isWordChar c = true) (p : Place)
    (column : Nat) : isFold p column w = false := by
  have hne : (w == [' ']) = false := by
    rw [beq_eq_false_iff_ne]
    rintro rfl
    exact absurd (hw ' ' (by simp)) (by decide)
  unfold isFold
  rw [hne, Bool.and_false, Bool.false_and]

theorem doubled_word {w : List Char} (hw : ∀ c ∈ w, isWordChar c = true) : doubled w = w := by
  unfold doubled
  rw [List.flatMap_congr (g := fun c => [c]) fun c hc =>
    if_neg (by simpa using ne_of_mem_marks (hw c hc) (by decide))]
  exact List.flatMap_singleton' w

theorem plainRuns_word {w : List Char} (hw : ∀ c ∈ w, isWordChar c = true) (hne : w ≠ [])
    (p : Place) (column : Nat) : plainRuns p column (runs w) = w := by
  rw [runs_word hw hne, plainRuns, isFold_word hw]
  exact List.append_nil w

theorem singleRuns_word {w : List Char} (hw : ∀ c ∈ w, isWordChar c = true) (p : Place)
    (column : Nat) : singleRuns p true column (runs w) = w := by
  cases hne : w with
  | nil => rfl
  | cons c cs =>
      have hbreak : w.any isBreak = false :=
        List.any_eq_false.2 fun d hd => by simp [isBreak_of_isWordChar (hw d hd)]
      rw [← hne, runs_word hw (by simp [hne]), singleRuns, isFold_word hw, hbreak, doubled_word hw]
      exact List.append_nil w

/-- A text of words is written as one word. -/
theorem textAt_word {s : String} (hs : ∀ c ∈ s.toList, isWordChar c = true) (p : Place)
    (column : Nat) : textAt p column s = (Word.ofText s).chars := by
  have hdouble : quoting s ≠ .double := by
    rw [← String.ofList_toList (s := s)]
    exact quoting_ne_double hs
  unfold textAt Word.chars Word.ofText
  cases hquoting : quoting s with
  | plain =>
      have hne := (ne_of_plain (w := s.toList) (by rwa [String.ofList_toList])).1
      exact plainRuns_word hs hne p column
  | single =>
      show '\'' :: singleRuns p true (column + 1) (runs s.toList) ++ ['\''] = _
      rw [singleRuns_word hs]
      rfl
  | double => exact absurd hquoting hdouble

/-! ## Lines -/

/-- The writer makes the line of an entry. -/
structure Entry.Written (e : Entry) : Prop where
  simple : isSimpleKey e.name = true
  key : ∀ p column, textAt p column e.name = e.key
  value : ∀ indent column, afterKey indent column e.value = ' ' :: (e.word.chars ++ ['\n'])

theorem writeEntries_lines {es : List Entry} (hes : ∀ e ∈ es, e.Written) (indent : Nat) :
    writeEntries indent false (es.map fun e => (e.name, e.value)) = lines indent es := by
  induction es with
  | nil =>
      rw [List.map_nil, writeEntries]
      rfl
  | cons e es ih =>
      have he := hes e List.mem_cons_self
      rw [List.map_cons, writeEntries, if_pos he.simple,
        ih fun e he => hes e (List.mem_cons_of_mem _ he)]
      simp only [he.key, he.value]
      simp [lines, Entry.line, blanks]

/-- A document of entries is made of their lines. -/
theorem write_lines {es : List Entry} (hne : es ≠ []) (hes : ∀ e ∈ es, e.Written) :
    write (es.map fun e => (e.name, e.value)) = String.ofList (lines 0 es) := by
  obtain ⟨e, es, rfl⟩ := List.exists_cons_of_ne_nil hne
  rw [← writeEntries_lines hes 0]
  rfl

end OptimalAssignment.Yaml
