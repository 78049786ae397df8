import OptimalAssignment.Proofs.Settings.Typed
import OptimalAssignment.Proofs.Yaml.Numbers
import OptimalAssignment.Proofs.Yaml.Parts.Sections

/-!
# Saved settings

Settings are saved as one line for each of them, with its name and a word for its value.  Any of
these lines, at the top of a document or below the key of the section, give the settings that they
are lines of, and the standard values of all others.
-/

namespace OptimalAssignment.Settings

open Yaml

/-! ## Values -/

variable {v : Value}

theorem hasReference_word {w : List Char} (hw : ∀ c ∈ w, isWordChar c = true) :
    Reference.hasReference w = false := by
  induction w with
  | nil => rfl
  | cons c w ih =>
      have hc : c ≠ '$' := by
        rintro rfl
        exact absurd (hw '$' (by simp)) (by decide)
      rw [Reference.hasReference]
      · exact ih fun d hd => hw d (List.mem_cons_of_mem _ hd)
      · rintro ds rfl
        exact absurd rfl hc

theorem check_simple (h : Simple v) : Content.check (.leaf v) = .ok () := by
  cases h with
  | bool b => rfl
  | real _ => rfl
  | @text s hs _ =>
      have hkept : Reference.isKept s = true := by
        unfold Reference.isKept
        simp [hasReference_word hs]
      rw [Content.check, if_pos hkept]

theorem ofValue_simple (h : Simple v) : Content.ofValue v = .leaf v := by
  cases h <;> rfl

/-- Some of the settings, and the standard values of the others. -/
def restrict (s : Settings) (fs : List Setting) : Settings where
  scoreDirection := if .scoreDirection ∈ fs then s.scoreDirection else standard.scoreDirection
  zeroTolerance := if .zeroTolerance ∈ fs then s.zeroTolerance else standard.zeroTolerance
  trace := if .trace ∈ fs then s.trace else standard.trace
  version := if .version ∈ fs then s.version else standard.version

theorem get_restrict (s : Settings) (fs : List Setting) (f : Setting) :
    (s.restrict fs).get f = if f ∈ fs then s.get f else standard.get f := by
  cases f <;> rfl

/-- Settings of the declared types that pass their checks and whose values are written as words. -/
structure Plain (s : Settings) : Prop where
  valid : s.Valid
  typed : ∀ f, HasType f (s.get f)
  simple : ∀ f, Simple (s.get f)

/-- The characters of versions. -/
def isVersionChar (c : Char) : Bool :=
  c.isAlphanum || c == '.' || c == '-'

theorem simple_version {version : String} (h : ∀ c ∈ version.toList, isVersionChar c = true) :
    Simple (.text version) := by
  refine .text (fun c hc => ?_) fun hc => absurd (h _ hc) (by decide)
  have hclass := h c hc
  simp only [isVersionChar, Bool.or_eq_true, beq_iff_eq] at hclass
  unfold isWordChar
  rcases hclass with (hclass | rfl) | rfl
  · rw [hclass, Bool.true_or]
  · decide
  · decide

theorem simple_direction (d : Direction) : Simple (.text d.word) := by
  cases d <;> exact .text (List.all_eq_true.1 (by decide)) (by decide)

theorem Plain.intro (d : Direction) {x : Float} (trace : Bool) {version : String} (hx : 0 ≤ x)
    (hversion : ∀ c ∈ version.toList, isVersionChar c = true) :
    Plain ⟨.text d.word, .real x, .bool trace, .text version⟩ where
  valid := ⟨isDirection_word d, isAtLeastZero_of_zero_le hx⟩
  typed f := by
    cases f with
    | scoreDirection => exact .direction _
    | zeroTolerance => exact .tolerance _
    | trace => exact .trace _
    | version => exact .version _
  simple f := by
    cases f with
    | scoreDirection => exact simple_direction d
    | zeroTolerance => exact .real hx
    | trace => exact .bool trace
    | version => exact simple_version hversion

theorem plain_standard : standard.Plain :=
  .intro .minimize false (by decide) (List.all_eq_true.1 (by decide))

theorem Plain.restrict {s : Settings} (h : s.Plain) (fs : List Setting) :
    (s.restrict fs).Plain where
  valid := by
    constructor
    · show isDirection (if .scoreDirection ∈ fs then _ else _) = true
      split
      · exact h.valid.direction
      · exact plain_standard.valid.direction
    · show isAtLeastZero? (if .zeroTolerance ∈ fs then _ else _) = some true
      split
      · exact h.valid.tolerance
      · exact plain_standard.valid.tolerance
  typed f := by
    rw [get_restrict]
    split
    · exact h.typed f
    · exact plain_standard.typed f
  simple f := by
    rw [get_restrict]
    split
    · exact h.simple f
    · exact plain_standard.simple f

/-! ## Lines -/

/-- A setting and its value on one line. -/
def entry (s : Settings) (f : Setting) : Entry :=
  ⟨f.name.toList, .ofValue (s.get f), s.get f⟩

variable {s : Settings} {f : Setting} {environment : String → Option String}

theorem entry_name (s : Settings) (f : Setting) : (s.entry f).name = f.name :=
  String.ofList_toList

theorem isWordChar_name (f : Setting) : ∀ c ∈ f.name.toList, isWordChar c = true := by
  cases f <;> exact List.all_eq_true.1 (by decide)

theorem written_entry (h : Simple (s.get f)) : (s.entry f).Written where
  simple := by
    rw [entry_name]
    cases f <;> decide +kernel
  key p column := by
    have hplain : quoting f.name = .plain := by cases f <;> decide +kernel
    rw [entry_name, textAt_word (isWordChar_name f), Word.ofText, hplain]
    rfl
  value := h.written

theorem fields_eq (s : Settings) :
    s.fields = (Setting.all.map s.entry).map fun e => (e.name, e.value) := by
  unfold fields
  rw [List.map_map]
  exact List.map_congr_left fun f _ => by rw [Function.comp_apply, entry_name]; rfl

theorem data_entry (s : Settings) (f : Setting) :
    (s.entry f).data = (.leaf (.text f.name), .leaf (s.get f)) := by
  unfold Entry.data
  rw [entry_name]
  rfl

theorem ofFields_entries (h : ∀ f, Simple (s.get f)) (fs : List Setting) :
    Content.ofFields ((fs.map s.entry).map fun e => (e.name, e.value)) =
      (fs.map s.entry).map Entry.data := by
  induction fs with
  | nil => rw [List.map_nil, List.map_nil, List.map_nil, Content.ofFields]
  | cons f fs ih =>
      rw [List.map_cons, List.map_cons, List.map_cons, Content.ofFields, ih]
      show (_, Content.ofValue (s.get f)) :: _ = _
      rw [ofValue_simple (h f)]
      rfl

theorem checkEntries_ok_iff {ds : List (Data × Data)} : Content.checkEntries ds = .ok () ↔
    ∀ d ∈ ds, Content.isKey d.1 = true ∧ Content.check d.2 = .ok () := by
  induction ds with
  | nil => simp [Content.checkEntries]
  | cons d ds ih =>
      obtain ⟨key, value⟩ := d
      rw [Content.checkEntries, List.forall_mem_cons, ← ih]
      constructor
      · intro h
        cases hkey : Content.isKey key with
        | false => rw [hkey] at h; cases h
        | true =>
            rw [hkey] at h
            obtain ⟨u, hvalue, hrest⟩ := bind_ok h
            exact ⟨⟨rfl, hvalue⟩, hrest⟩
      · rintro ⟨⟨hkey, hvalue⟩, hrest⟩
        rw [hkey, hvalue, hrest]
        rfl

theorem checkEntries_entries (h : ∀ f, Simple (s.get f)) (fs : List Setting) :
    Content.checkEntries ((fs.map s.entry).map Entry.data) = .ok () := by
  rw [checkEntries_ok_iff]
  intro d hd
  obtain ⟨e, he, rfl⟩ := List.mem_map.1 hd
  obtain ⟨f, -, rfl⟩ := List.mem_map.1 he
  rw [data_entry]
  exact ⟨rfl, check_simple (h f)⟩

/-- Settings are saved as one line for each of them. -/
theorem saved_eq (h : s.Plain) :
    s.saved = .ok (String.ofList (lines 0 (Setting.all.map s.entry))) := by
  have hcheck : Content.check (Content.ofValue (.record s.fields)) = .ok () := by
    rw [Content.ofValue, Content.check, fields_eq, ofFields_entries h.simple]
    exact checkEntries_entries h.simple Setting.all
  unfold saved
  rw [hcheck]
  show Except.ok (write s.fields) = _
  rw [fields_eq, write_lines (by simp [Setting.all])]
  intro e he
  obtain ⟨f, -, rfl⟩ := List.mem_map.1 he
  exact written_entry (h.simple f)

/-! ## Documents -/

end OptimalAssignment.Settings
