import OptimalAssignment.Proofs.Settings

/-!
# Settings that are changed again and again

Values of any type are given to settings one after the other, and to names that no setting has.
What is permitted for its setting is stored as it was given, and anything else leaves all settings
as they were.  So the direction is always the word of a direction, and the tolerance is a number
that is at least zero.
-/

namespace OptimalAssignment.Settings

/-! ## What is permitted -/

def IsNumber : Value → Prop
  | .bool _ | .int _ | .real _ => True
  | _ => False

/-- Numbers that are at least zero, which a NaN is not. -/
inductive AtLeastZero : Value → Prop where
  | bool (b : Bool) : AtLeastZero (.bool b)
  | int {i : Int} : 0 ≤ i → AtLeastZero (.int i)
  | real {x : Float} : 0 ≤ x → AtLeastZero (.real x)

def Permitted : Setting → Value → Prop
  | .scoreDirection, v => v = .text "minimize" ∨ v = .text "maximize"
  | .zeroTolerance, v => AtLeastZero v
  | .trace, _ | .version, _ => True

def Sound (s : Settings) : Prop :=
  ∀ f, Permitted f (s.get f)

theorem same_text {v : Value} {w : String} : v.same (.text w) = true ↔ v = .text w := by
  cases v with
  | text s => exact beq_iff_eq.trans ⟨congrArg Value.text, Value.text.inj⟩
  | _ => exact ⟨nofun, nofun⟩

theorem isDirection_iff {v : Value} : isDirection v = true ↔ Permitted .scoreDirection v := by
  show (v.same (.text "minimize") || (v.same (.text "maximize") || false)) = true ↔ _
  rw [Bool.or_false, Bool.or_eq_true, same_text, same_text]
  rfl

theorem isAtLeastZero?_iff {v : Value} : isAtLeastZero? v = some true ↔ AtLeastZero v := by
  constructor
  · intro h
    cases v with
    | bool b => exact .bool b
    | int i => exact .int (of_decide_eq_true (Option.some.inj h))
    | real x => exact .real (zero_le_of_isAtLeastZero h)
    | _ => cases h
  · intro h
    cases h with
    | bool b => rfl
    | int h => exact congrArg some (decide_eq_true h)
    | real h => exact isAtLeastZero_of_zero_le h

theorem isAtLeastZero?_eq_none {v : Value} : isAtLeastZero? v = none ↔ ¬IsNumber v := by
  cases v <;> simp [isAtLeastZero?, IsNumber]

theorem check_of_permitted {f : Setting} {v : Value} (h : Permitted f v) : check f v = pure () := by
  cases f with
  | scoreDirection => exact if_pos (isDirection_iff.2 h)
  | zeroTolerance => rw [check_zeroTolerance, isAtLeastZero?_iff.2 h]
  | trace => rfl
  | version => rfl

/-! ## One change -/

/-- A name and the value that it is given. -/
abbrev Change := String × Value

/-- The settings as a change leaves them, whether or not its value is taken. -/
def after (s : Settings) (c : Change) : Settings :=
  match (s.set c.1 c.2).result with
  | .ok t => t
  | .error _ => s

/-- What a change of settings answers, and the settings that it leaves. -/
inductive Step (s : Settings) : Change → Logged SettingsError Settings → Settings → Prop where
  | stored {f : Setting} {v : Value} {t : Settings} : Permitted f v → t.get f = v →
      (∀ g, g ≠ f → t.get g = s.get g) → Step s (f.name, v) ⟨[], .ok t⟩ t
  | badDirection {v : Value} : ¬Permitted .scoreDirection v →
      Step s (Setting.scoreDirection.name, v)
        (.refuse (SettingsError.directionMessage v) (.badDirection v)) s
  | badTolerance {v : Value} : IsNumber v → ¬AtLeastZero v →
      Step s (Setting.zeroTolerance.name, v) (.fail (.badTolerance v)) s
  | incomparable {v : Value} : ¬IsNumber v →
      Step s (Setting.zeroTolerance.name, v) (.fail .incomparable) s
  | unknown {name : String} {v : Value} : (∀ f : Setting, f.name ≠ name) →
      Step s (name, v) (.fail (.unknown name)) s

theorem name_of_ofName? {name : String} {f : Setting} (h : Setting.ofName? name = some f) :
    f.name = name := by
  have hname := List.find?_some h
  exact eq_of_beq hname

theorem ofName?_eq_none {name : String} (h : Setting.ofName? name = none) (f : Setting) :
    f.name ≠ name := by
  rintro rfl
  rw [Setting.ofName?_name] at h
  cases h

theorem set_name (s : Settings) (f : Setting) (v : Value) :
    s.set f.name v = (check f v).bind fun _ => .pure (s.put f v) := by
  unfold set
  rw [Setting.ofName?_name]
  rfl

theorem set_of_permitted (s : Settings) {f : Setting} {v : Value} (h : Permitted f v) :
    s.set f.name v = ⟨[], .ok (s.put f v)⟩ := by
  rw [set_name, check_of_permitted h]
  rfl

theorem step_set (s : Settings) (f : Setting) (v : Value) :
    Step s (f.name, v) (s.set f.name v) (s.after (f.name, v)) := by
  unfold after
  by_cases h : Permitted f v
  · rw [set_of_permitted s h]
    apply Step.stored h
    · rw [get_put, if_pos rfl]
    · intro g hg
      rw [get_put, if_neg (Ne.symm hg)]
  -- only two of the settings are checked
  rw [set_name]
  cases f with
  | scoreDirection =>
      have hcheck : check .scoreDirection v =
          .refuse (SettingsError.directionMessage v) (.badDirection v) :=
        if_neg fun hdirection => h (isDirection_iff.1 hdirection)
      rw [hcheck]
      exact .badDirection h
  | zeroTolerance =>
      rw [check_zeroTolerance]
      cases hzero : isAtLeastZero? v with
      | none => exact .incomparable (isAtLeastZero?_eq_none.1 hzero)
      | some b =>
          have hnumber : IsNumber v := by
            by_contra hno
            rw [isAtLeastZero?_eq_none.2 hno] at hzero
            cases hzero
          cases b with
          | true => exact absurd (isAtLeastZero?_iff.1 hzero) h
          | false => exact .badTolerance hnumber h
  | trace => exact absurd trivial h
  | version => exact absurd trivial h

theorem step_after (s : Settings) (c : Change) : Step s c (s.set c.1 c.2) (s.after c) := by
  obtain ⟨name, v⟩ := c
  cases h : Setting.ofName? name with
  | some f =>
      obtain rfl := name_of_ofName? h
      exact step_set s f v
  | none =>
      have hset : s.set name v = .fail (.unknown name) := by
        unfold set
        rw [h]
      unfold after
      rw [hset]
      exact .unknown (ofName?_eq_none h)

/-- Each setting holds what was permitted for it. -/
theorem Step.sound {s t : Settings} {c : Change} {answer : Logged SettingsError Settings}
    (h : Step s c answer t) (hs : s.Sound) : t.Sound := by
  cases h with
  | @stored f v t hv hf hg =>
      intro g
      by_cases hgf : g = f
      · rw [hgf, hf]
        exact hv
      · rw [hg g hgf]
        exact hs g
  | badDirection _ => exact hs
  | badTolerance _ _ => exact hs
  | incomparable _ => exact hs
  | unknown _ => exact hs

/-! ## Many changes -/

def afterAll (s : Settings) (changes : List Change) : Settings :=
  changes.foldl after s

theorem Sound.afterAll {s : Settings} (h : s.Sound) (changes : List Change) :
    (s.afterAll changes).Sound := by
  induction changes generalizing s with
  | nil => exact h
  | cons c changes ih => exact ih ((step_after s c).sound h)

theorem sound_of_create {given : List (String × Value)} {s : Settings}
    (h : (create given).result = .ok s) : s.Sound := by
  have hvalid := (Checked.created h).valid
  intro f
  cases f with
  | scoreDirection => exact isDirection_iff.1 hvalid.direction
  | zeroTolerance => exact isAtLeastZero?_iff.1 hvalid.tolerance
  | trace => trivial
  | version => trivial

/-- However settings are made, and whatever is given to them afterwards, each further change meets
settings that are sound and leaves sound ones: it stores a permitted value under its name and keeps
the others, or it is refused for what is wrong with it and keeps all of them. -/
theorem every_change_is_checked {given : List (String × Value)} {s : Settings}
    (h : (create given).result = .ok s) (before : List Change) (c : Change) :
    (s.afterAll before).Sound ∧
      Step (s.afterAll before) c ((s.afterAll before).set c.1 c.2) (s.afterAll (before ++ [c])) ∧
      (s.afterAll (before ++ [c])).Sound := by
  have hbefore := (sound_of_create h).afterAll before
  have hafter : s.afterAll (before ++ [c]) = (s.afterAll before).after c := by
    unfold Settings.afterAll
    rw [List.foldl_append]
    rfl
  rw [hafter]
  have hstep := step_after (s.afterAll before) c
  exact ⟨hbefore, hstep, hstep.sound hbefore⟩

/-- A truth value as the tolerance, a list as the direction, an unknown name, and a NaN. -/
def mixedChanges : List Change :=
  [("zero_tolerance", .bool true), ("score_direction", .list [.text "minimize"]), ("unit", .null)]

/-- After changes of which one is taken, the tolerance is a truth value and keeps being one. -/
theorem mixed_changes_are_checked :
    (create []).result = .ok standard ∧
      (standard.afterAll (mixedChanges ++ [("zero_tolerance", .real Binary.notANumber)])).Sound ∧
      standard.afterAll (mixedChanges ++ [("zero_tolerance", .real Binary.notANumber)]) =
        { standard with zeroTolerance := .bool true } := by
  have hcreate : (create []).result = .ok standard := rfl
  exact ⟨hcreate, (every_change_is_checked hcreate mixedChanges
    ("zero_tolerance", .real Binary.notANumber)).2.2, rfl⟩

end OptimalAssignment.Settings
