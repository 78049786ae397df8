import OptimalAssignment.Proofs.Settings
import OptimalAssignment.Settings.Document

/-!
# Types of settings that are read

A document gives each setting a value that is converted to its type, or a reference whose value is
converted once it is known.  So the settings that are read have the types they are declared with,
and the checks make a word of the direction and a number that is not negative of the tolerance.
-/

namespace OptimalAssignment.Settings

open Reference

/-- The values of the type that a setting is declared with. -/
inductive HasType : Setting → Value → Prop where
  | direction (w : String) : HasType .scoreDirection (.text w)
  | tolerance (x : Float) : HasType .zeroTolerance (.real x)
  | trace (b : Bool) : HasType .trace (.bool b)
  | version (w : String) : HasType .version (.text w)

theorem toText_ok {v w : Value} (h : toText v = .ok w) : ∃ s, w = .text s := by
  unfold toText at h
  split at h
  · cases h
  · cases h
  · cases h
  · split at h
    · cases h
    · cases h
      exact ⟨_, rfl⟩
  · cases h
    exact ⟨_, rfl⟩

theorem toNumber_ok {v w : Value} (h : toNumber v = .ok w) : ∃ x, w = .real x := by
  unfold toNumber at h
  split at h
  · split at h <;> cases h
    exact ⟨_, rfl⟩
  · cases h
    exact ⟨_, rfl⟩
  · split at h <;> cases h
    exact ⟨_, rfl⟩
  · cases h

theorem toTruth_ok {v w : Value} (h : toTruth v = .ok w) : ∃ b, w = .bool b := by
  unfold toTruth at h
  split at h
  · cases h
    exact ⟨_, rfl⟩
  · cases h
    exact ⟨_, rfl⟩
  · split at h
    · cases h
      exact ⟨_, rfl⟩
    · split at h <;> cases h
      exact ⟨_, rfl⟩
  · cases h

theorem hasType_of_convert {f : Setting} {v w : Value} (h : convert f v = .ok w) :
    HasType f w := by
  cases f with
  | scoreDirection =>
      obtain ⟨s, rfl⟩ := toText_ok h
      exact .direction s
  | zeroTolerance =>
      obtain ⟨x, rfl⟩ := toNumber_ok h
      exact .tolerance x
  | trace =>
      obtain ⟨b, rfl⟩ := toTruth_ok h
      exact .trace b
  | version =>
      obtain ⟨s, rfl⟩ := toText_ok h
      exact .version s

/-! ## Merged settings -/

def IsReference (v : Value) : Prop :=
  ∃ s, v = .text s ∧ hasReference s.toList = true

/-- Each value has the type of its setting, or it is a reference that has not been followed yet. -/
def Merged (s : Settings) : Prop :=
  ∀ f, HasType f (s.get f) ∨ IsReference (s.get f)

theorem Merged.put {s : Settings} (h : s.Merged) {f : Setting} {v : Value}
    (hv : HasType f v ∨ IsReference v) : (s.put f v).Merged := by
  intro g
  rw [get_put]
  split
  · rename_i hfg
    exact hfg ▸ hv
  · exact h g

/-- What is left for later is a reference, for a mark of what is missing is dropped before. -/
theorem isReference_of_isDeferred {v : Value} (hmissing : ¬Content.isMissing (.leaf v) = true)
    (h : isDeferred v = true) : IsReference v := by
  cases v with
  | text s =>
      rcases Bool.or_eq_true_iff.1 h with hmark | href
      · exact absurd hmark hmissing
      · exact ⟨s, rfl, href⟩
  | _ => cases h

theorem Merged.merge {s t : Settings} (h : s.Merged) {entry : Yaml.Data × Yaml.Data}
    (hmerge : s.merge entry = .ok t) : t.Merged := by
  unfold Settings.merge at hmerge
  split at hmerge
  · cases hmerge
  · split at hmerge
    · cases hmerge
      exact h
    · rename_i hmissing
      split at hmerge
      · rename_i hdeferred
        cases hmerge
        exact h.put (.inr (isReference_of_isDeferred hmissing hdeferred))
      · obtain ⟨w, hw, rfl⟩ := map_ok hmerge
        exact h.put (.inl (hasType_of_convert hw))
  · cases hmerge

theorem Merged.mergeAll {entries : List (Yaml.Data × Yaml.Data)} {s t : Settings} (h : s.Merged)
    (hmerge : entries.foldlM Settings.merge s = .ok t) : t.Merged := by
  induction entries generalizing s with
  | nil =>
      cases hmerge
      exact h
  | cons entry entries ih =>
      rw [List.foldlM_cons] at hmerge
      obtain ⟨u, hu, hmerge⟩ := bind_ok hmerge
      exact ih (h.merge hu) hmerge

/-! ## References that are followed -/

/-- At the top of a document a text without a reference is what it is, and what a reference gives is
converted. -/
theorem follow_leaf {scope : Scope} {fuel : Nat} {p : Scope.Place} (hp : p.keys = []) {key : String}
    {v : Value} {r : Scope.Found} (h : scope.follow fuel p key (.leaf v) = .ok r) :
    r.value = .leaf v ∧ ¬IsReference v ∨ ∃ d, scope.convert key d = .ok r.value := by
  cases fuel with
  | zero => cases h
  | succ fuel =>
      unfold Scope.follow at h
      split at h
      · rename_i s hs
        obtain rfl := Yaml.Data.leaf.inj hs
        split at h
        · split at h
          · cases h
          · obtain ⟨found, -, h⟩ := bind_ok h
            rw [hp, List.isEmpty_nil, if_pos rfl] at h
            obtain ⟨d, hd, h⟩ := bind_ok h
            cases h
            exact .inr ⟨found.value, hd⟩
        · rename_i hno
          cases h
          refine .inl ⟨rfl, ?_⟩
          rintro ⟨t, ht, href⟩
          cases ht
          exact hno href
      · rename_i hno
        cases h
        refine .inl ⟨rfl, ?_⟩
        rintro ⟨t, rfl, -⟩
        exact hno t rfl

theorem convertFound_ok {f : Setting} {d e : Yaml.Data} (h : convertFound f.name d = .ok e) :
    ∃ v, e = .leaf v ∧ HasType f v := by
  unfold convertFound at h
  rw [Setting.ofName?_name] at h
  simp only [] at h
  split at h
  · rename_i v hv
    cases h
    unfold convertData at hv
    split at hv
    · exact ⟨v, rfl, hasType_of_convert hv⟩
    · cases hv
  · cases h
  · cases h

variable {environment : String → Option String}

/-- Following gives a value of the type of its setting, whatever the variables are. -/
theorem Merged.follow {s : Settings} (h : s.Merged) {f : Setting} {v : Value}
    (hfollow : s.follow environment f = .ok v) : HasType f v := by
  obtain ⟨d, hd, hv⟩ := bind_ok hfollow
  obtain ⟨r, hr, rfl⟩ := map_ok hd
  have hleaf : ∃ w, r.value = .leaf w ∧ HasType f w := by
    rcases follow_leaf rfl hr with ⟨hvalue, hno⟩ | ⟨e, he⟩
    · exact ⟨s.get f, hvalue, (h f).resolve_right hno⟩
    · exact convertFound_ok he
  obtain ⟨w, hw, htype⟩ := hleaf
  rw [hw] at hv
  -- only texts are rewritten, and by texts
  cases htype with
  | direction w =>
      cases hv
      exact .direction _
  | tolerance x =>
      cases hv
      exact .tolerance x
  | trace b =>
      cases hv
      exact .trace b
  | version w =>
      cases hv
      exact .version _

/-- The values of all settings, each under its name. -/
def named (value : Setting → Value) : List (String × Value) :=
  Setting.all.map fun f => (f.name, value f)

end OptimalAssignment.Settings
