import OptimalAssignment.Proofs.Yaml.Lines

/-!
# Parts of a document

Whole lines of a document are read within it as they are read by themselves: what comes after them
starts with a word, so that nothing takes it along, and how many lines there are above does not
count.  The last part of a document need not end its line, as nothing comes after it.
-/

namespace OptimalAssignment.Yaml

/-! ## Ends of lines -/

/-- What comes after whole lines: nothing, or a word that no document starts or ends with. -/
def StartsKey (rest : List Char) : Prop :=
  ∀ c ∈ rest.head?, isWordChar c = true ∧ c ≠ '-' ∧ c ≠ '.'

/-- A line ends before the rest, if there is any. -/
def Inside (rest cs : List Char) : Prop :=
  rest ≠ [] → ∃ c ∈ cs.getLast?, isBreak c = true

variable {rest cs ds : List Char} {c : Char}

namespace Inside

theorem tail (h : Inside rest (c :: cs)) (hc : isBreak c = false) : Inside rest cs := by
  intro hne
  obtain ⟨d, hd, hbreak⟩ := h hne
  cases cs with
  | nil =>
      cases hd
      exact absurd hbreak (Bool.eq_false_iff.1 hc)
  | cons e cs => exact ⟨d, by rwa [List.getLast?_cons_cons] at hd, hbreak⟩

theorem append_left (h : Inside rest (ds ++ cs)) (hds : ∀ c ∈ ds, isBreak c = false) :
    Inside rest cs := by
  induction ds with
  | nil => exact h
  | cons d ds ih =>
      exact ih (h.tail (hds d List.mem_cons_self)) fun c hc => hds c (List.mem_cons_of_mem _ hc)

section Classes

variable {p : Char → Bool}

end Classes
end Inside

/-! ## Sources within a document -/

namespace Source

/-- A source with more lines above it and the rest of the document after it. -/
def within (above : Nat) (rest : List Char) (s : Source) : Source :=
  ⟨s.line + above, s.col, s.chars ++ rest⟩

variable {above : Nat} {s : Source}

end Source

/-- A source within its part, or at the end of the lines of the part. -/
def Fits (rest : List Char) (s : Source) : Prop :=
  Inside rest s.chars ∨ s.chars = [] ∧ s.col = 0

theorem Fits.inside {s : Source} (h : Fits rest s) (hs : s.chars ≠ []) : Inside rest s.chars :=
  h.resolve_right fun hend => hs hend.1

section

variable {above : Nat} {s t u : Source} {ends text : List Char}

end

end OptimalAssignment.Yaml
