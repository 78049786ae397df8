import Mathlib.Data.List.Basic
import OptimalAssignment.Yaml.Token.Lexer

/-!
# Words and the gaps behind them

A word is a row of characters that mean nothing to a document.  It is read back whole, without
quotes or between single ones, and so is the gap behind its line: empty lines, comments and the
blanks in front of the next token, which stands at a column that is not further in.
-/

namespace OptimalAssignment.Yaml

/-! ## Characters of words -/

def isWordChar (c : Char) : Bool :=
  c.isAlphanum || ['.', '-', '_', '+'].contains c

/-- The marks that a token of another kind starts or ends with. -/
def marks : List Char :=
  indicators.erase '-'

theorem toNat_lt_of_isWordChar {c : Char} (h : isWordChar c = true) : c.toNat < 128 := by
  have hbound : ∀ bound : UInt32, bound.toNat < 128 → c.val ≤ bound → c.toNat < 128 :=
    fun bound hlt hle => Nat.lt_of_le_of_lt (UInt32.le_iff_toNat_le.1 hle) hlt
  rcases Bool.or_eq_true_iff.1 h with h | h
  · rcases Bool.or_eq_true_iff.1 (show (c.isAlpha || c.isDigit) = true from h) with h | h
    · rcases Bool.or_eq_true_iff.1 (show (c.isUpper || c.isLower) = true from h) with h | h
      · exact hbound 90 (by decide) (of_decide_eq_true h).2
      · exact hbound 122 (by decide) (of_decide_eq_true (Bool.and_eq_true_iff.1 h).2)
    · exact hbound 57 (by decide) (of_decide_eq_true (Bool.and_eq_true_iff.1 h).2)
  · simp only [List.contains_iff_mem, List.mem_cons, List.not_mem_nil, or_false] at h
    rcases h with rfl | rfl | rfl | rfl <;> decide

/-- What holds of each of the ASCII characters in words holds of all that words are made of. -/
theorem forall_wordChar {p : Char → Bool}
    (hp : ∀ n < 128, isWordChar (Char.ofNat n) = true → p (Char.ofNat n) = true) {c : Char}
    (h : isWordChar c = true) : p c = true := by
  rw [← Char.ofNat_toNat c] at h ⊢
  exact hp _ (toNat_lt_of_isWordChar (by rwa [Char.ofNat_toNat] at h)) h

theorem forall_wordChar_not {p : Char → Bool}
    (hp : ∀ n < 128, isWordChar (Char.ofNat n) = true → p (Char.ofNat n) = false) {c : Char}
    (h : isWordChar c = true) : p c = false := by
  have hnot : (!p c) = true :=
    forall_wordChar (p := fun c => !p c) (fun n hn hword => by rw [hp n hn hword, Bool.not_false]) h
  simpa using hnot

theorem isGap_of_isWordChar {c : Char} (h : isWordChar c = true) : isGap c = false :=
  forall_wordChar_not (by decide +kernel) h

theorem not_mem_marks {c : Char} (h : isWordChar c = true) : c ∉ marks := by
  have hnot : marks.contains c = false := forall_wordChar_not (by decide +kernel) h
  simpa using hnot

theorem ne_of_mem_marks {c d : Char} (h : isWordChar c = true) (hd : d ∈ marks) : c ≠ d :=
  fun hcd => not_mem_marks h (hcd ▸ hd)

/-! ## Words -/

/-- A text that stands in a document as one word, without quotes or between single ones. -/
structure Word where
  plain : Bool
  text : List Char

namespace Word

def chars (w : Word) : List Char :=
  if w.plain then w.text else '\'' :: (w.text ++ ['\''])

def token (w : Word) : Token :=
  .scalar w.plain (String.ofList w.text)

/-- A word without quotes has characters, and a dash is not all of it. -/
structure Legible (w : Word) : Prop where
  chars : ∀ c ∈ w.text, isWordChar c = true
  start : w.plain = true → w.text ≠ [] ∧ w.text ≠ ['-']

end Word

/-- A key is a short word that no document starts or ends with. -/
structure IsKey (key : List Char) : Prop where
  chars : ∀ c ∈ key, isWordChar c = true
  start : ∃ c cs, key = c :: cs ∧ c ≠ '-' ∧ c ≠ '.'
  short : key.length ≤ 1024

/-! ## Margins -/

/-- After empty lines and comments, what follows stands at the column `m` or further out. -/
inductive Margin (m : Nat) : Nat → List Char → Prop where
  | finish {col : Nat} : col ≤ m → Margin m col []
  | text {col : Nat} {c : Char} {cs : List Char} : isGap c = false → c ≠ '#' → col ≤ m →
      Margin m col (c :: cs)
  | blank {col : Nat} {cs : List Char} : Margin m (col + 1) cs → Margin m col (' ' :: cs)
  | newline {col : Nat} {c : Char} {cs : List Char} : isBreak c = true → Margin m 0 cs →
      Margin m col (c :: cs)
  | comment {col : Nat} {text : List Char} {c : Char} {cs : List Char} :
      (∀ d ∈ text, isBreak d = false) → isBreak c = true → Margin m 0 cs →
      Margin m col ('#' :: (text ++ c :: cs))

namespace Margin

variable {m n col : Nat} {cs : List Char}

theorem mono (h : Margin m col cs) (hmn : m ≤ n) : Margin n col cs := by
  induction h with
  | finish hcol => exact .finish (Nat.le_trans hcol hmn)
  | text hc hmark hcol => exact .text hc hmark (Nat.le_trans hcol hmn)
  | blank _ ih => exact .blank ih
  | newline hc _ ih => exact .newline hc ih
  | comment htext hc _ ih => exact .comment htext hc ih

theorem blanks (k : Nat) (h : Margin m (col + k) cs) :
    Margin m col (List.replicate k ' ' ++ cs) := by
  induction k generalizing col with
  | zero => exact h
  | succ k ih =>
      apply Margin.blank
      apply ih
      rwa [Nat.add_right_comm, Nat.add_assoc]

end Margin

/-! ## Gaps -/

namespace Lexer

variable {col : Nat} {cs : List Char}

end Lexer

variable {line col : Nat} {w cs : List Char}

end OptimalAssignment.Yaml
