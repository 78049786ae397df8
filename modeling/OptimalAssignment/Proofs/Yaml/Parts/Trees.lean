import OptimalAssignment.Yaml.Tree

/-!
# Trees of parts of a document

What a reader of trees takes from the tokens depends on these and on the kind of the next one, and
more steps than it needs change nothing.  The entries of a mapping are therefore read in front of
other entries as they are read in front of its end.
-/

namespace OptimalAssignment.Yaml.Tree

variable {α β : Type}

/-! ## Readers -/

/-- Tokens of which no reader can tell from the first one that they are others; where `ends` is set,
a key may stand for the end of a collection. -/
inductive Alike (ends : Bool) : List Token → List Token → Prop where
  | same {ts ts' : List Token} : ts.head? = ts'.head? → Alike ends ts ts'
  | key {ts ts' : List Token} : ends = true → Alike ends (.blockEnd :: ts) (.key :: ts')

theorem Alike.append {ends : Bool} {rest rest' : List Token} (h : Alike ends rest rest')
    (ts : List Token) : Alike ends (ts ++ rest) (ts ++ rest') := by
  cases ts with
  | nil => exact h
  | cons t ts => exact .same rfl

theorem Alike.mono {ends : Bool} {ts ts' : List Token} (h : Alike ends ts ts') :
    Alike true ts ts' := by
  cases h with
  | same h => exact .same h
  | key => exact .key rfl

/-- A test that the first token decides, the same for a key as for the end of a collection where one
may stand for the other. -/
def Tells (ends : Bool) (p : List Token → Bool) : Prop :=
  ∀ ts ts', Alike ends ts ts' → p ts = p ts'

section

variable {ends : Bool} {p q : List Token → Bool}

theorem tells_of_first (hp : ∀ t ts ts', p (t :: ts) = p (t :: ts'))
    (hkey : ends = true → ∀ ts ts', p (.blockEnd :: ts) = p (.key :: ts')) : Tells ends p := by
  rintro ts ts' (h | hends)
  · cases ts with
    | nil => rw [List.head?_eq_none_iff.1 h.symm]
    | cons t ts =>
        obtain ⟨ts', rfl⟩ := List.head?_eq_some_iff.1 h.symm
        exact hp t ts ts'
  · exact hkey hends _ _

theorem Tells.or (hp : Tells ends p) (hq : Tells ends q) : Tells ends fun ts => p ts || q ts :=
  fun ts ts' h => by
    show (p ts || q ts) = (p ts' || q ts')
    rw [hp ts ts' h, hq ts ts' h]

theorem tells_endsItem : Tells false endsItem :=
  tells_of_first (fun t _ _ => by cases t <;> rfl) nofun

theorem tells_endsValue (ends : Bool) : Tells ends endsValue :=
  tells_of_first (fun t _ _ => by cases t <;> rfl) fun _ _ _ => rfl

theorem tells_endsUnopened (ends : Bool) : Tells ends fun ts => endsItem ts || endsValue ts :=
  tells_of_first (fun t _ _ => by cases t <;> rfl) fun _ _ _ => rfl

theorem tells_startsValue (ends : Bool) : Tells ends startsValue :=
  tells_of_first (fun t _ _ => by cases t <;> rfl) fun _ _ _ => rfl

theorem tells_endsFlowItem (ends : Bool) : Tells ends endsFlowItem :=
  tells_of_first (fun t _ _ => by cases t <;> rfl) fun _ _ _ => rfl

theorem tells_endsFlowEntry (ends : Bool) : Tells ends endsFlowEntry :=
  tells_of_first (fun t _ _ => by cases t <;> rfl) fun _ _ _ => rfl

end

/-- A reader takes at least so many tokens, and another one takes the same from them whatever like
the rest comes after them. -/
def ReadsAt (least : Nat) (ends : Bool) (read read' : List Token → Option (α × List Token))
    (ts : List Token) : Prop :=
  ∀ a rest, read ts = some (a, rest) → ∃ used, least ≤ used.length ∧ ts = used ++ rest ∧
    ∀ rest', Alike ends rest rest' → read' (used ++ rest') = some (a, rest')

def Reads (least : Nat) (ends : Bool) (read read' : List Token → Option (α × List Token)) : Prop :=
  ∀ ts, ReadsAt least ends read read' ts

variable {m n : Nat} {ends : Bool} {read read' : List Token → Option (α × List Token)}
  {ts : List Token}

namespace ReadsAt

variable {next next' : List Token → Option (α × List Token)}

theorem fail (h : read ts = none) : ReadsAt n ends read read' ts := by
  intro a rest hread
  rw [h] at hread
  cases hread

theorem cons {t : Token} (h : ReadsAt n ends next next' ts) (hread : read (t :: ts) = next ts)
    (hread' : ∀ ts, read' (t :: ts) = next' ts) :
    ReadsAt (n + 1) ends read read' (t :: ts) := by
  intro a rest hrest
  obtain ⟨used, hused, rfl, hnext⟩ := h a rest (hread ▸ hrest)
  exact ⟨t :: used, Nat.succ_le_succ hused, rfl, fun rest' h => (hread' _).trans (hnext rest' h)⟩

/-- Readers that are told from others by what comes first. -/
theorem congr (h : ReadsAt n ends next next' ts) (hread : read ts = next ts)
    (hread' : ∀ ts', Alike ends ts ts' → read' ts' = next' ts') :
    ReadsAt n ends read read' ts := by
  intro a rest hrest
  obtain ⟨used, hused, rfl, hnext⟩ := h a rest (hread ▸ hrest)
  exact ⟨used, hused, rfl, fun rest' h => (hread' _ (h.append used)).trans (hnext rest' h)⟩

theorem congr_nil (h : ReadsAt n ends next next' []) (hread : read [] = next [])
    (hread' : read' [] = next' []) : ReadsAt n ends read read' [] := by
  refine h.congr hread fun ts' h => ?_
  cases h with
  | same h =>
      obtain rfl := List.head?_eq_none_iff.1 h.symm
      exact hread'

/-- The first token tells whether these readers are others; a key is told as the end of a collection
is. -/
theorem congr_first {t : Token} (h : ReadsAt n ends next next' (t :: ts))
    (hread : read (t :: ts) = next (t :: ts))
    (hread' : ∀ ts, read' (t :: ts) = next' (t :: ts))
    (hkey : t = .blockEnd → ∀ ts, read' (.key :: ts) = next' (.key :: ts)) :
    ReadsAt n ends read read' (t :: ts) := by
  refine h.congr hread fun ts' h => ?_
  rcases h with hfirst | -
  · obtain ⟨ts', rfl⟩ := List.head?_eq_some_iff.1 hfirst.symm
    exact hread' ts'
  · exact hkey rfl _

/-- Readers that take a token need not be told from others by what comes behind it. -/
theorem congr_cons {t : Token} (h : ReadsAt (n + 1) ends next next' (t :: ts))
    (hread : read (t :: ts) = next (t :: ts))
    (hread' : ∀ ts, read' (t :: ts) = next' (t :: ts)) :
    ReadsAt (n + 1) ends read read' (t :: ts) := by
  intro a rest hrest
  obtain ⟨used, hused, heq, hnext⟩ := h a rest (hread ▸ hrest)
  refine ⟨used, hused, heq, fun rest' h => ?_⟩
  obtain ⟨u, used, rfl⟩ := List.exists_cons_of_length_pos (Nat.zero_lt_of_lt hused)
  obtain ⟨rfl, -⟩ := List.cons.inj heq
  exact (hread' _).trans (hnext rest' h)

theorem least (h : ReadsAt m ends read read' ts) (hmn : n ≤ m) : ReadsAt n ends read read' ts := by
  intro a rest hrest
  obtain ⟨used, hused, heq, hnext⟩ := h a rest hrest
  exact ⟨used, Nat.le_trans hmn hused, heq, hnext⟩

end ReadsAt

namespace Reads

theorem fail (h : ∀ ts, read ts = none) : Reads n ends read read' :=
  fun ts => .fail (h ts)

theorem pure (a : α) : Reads 0 ends (fun ts => some (a, ts)) fun ts => some (a, ts) := by
  intro ts b rest h
  cases h
  exact ⟨[], Nat.le_refl 0, rfl, fun _ _ => rfl⟩

theorem mono (h : Reads n true read read') : Reads n ends read read' := by
  intro ts a rest hrest
  obtain ⟨used, hused, heq, hnext⟩ := h ts a rest hrest
  exact ⟨used, hused, heq, fun rest' h => hnext rest' h.mono⟩

variable {next next' : α → List Token → Option (β × List Token)}

/-- Where the second reader takes a token, the first one is followed by the same token. -/
theorem bind_of_pos {ends' : Bool} (h : Reads m ends' read read')
    (hnext : ∀ a, Reads n ends (next a) (next' a)) (hends : ends' = ends ∨ 0 < n) :
    Reads (m + n) ends (fun ts => (read ts).bind fun p => next p.1 p.2)
      fun ts => (read' ts).bind fun p => next' p.1 p.2 := by
  intro ts b rest hread
  obtain ⟨⟨a, rest₁⟩, ha, hb⟩ := Option.bind_eq_some_iff.1 hread
  obtain ⟨used₁, hm, rfl, ha'⟩ := h ts a rest₁ ha
  obtain ⟨used₂, hn, rfl, hb'⟩ := hnext a rest₁ b rest hb
  refine ⟨used₁ ++ used₂, ?_, (List.append_assoc ..).symm, fun rest' hrest => ?_⟩
  · rw [List.length_append]
    exact Nat.add_le_add hm hn
  · have hfirst : Alike ends' (used₂ ++ rest) (used₂ ++ rest') := by
      rcases hends with rfl | hpos
      · exact hrest.append used₂
      · obtain ⟨t, used₂, rfl⟩ := List.exists_cons_of_length_pos (Nat.lt_of_lt_of_le hpos hn)
        exact .same rfl
    simp only [List.append_assoc, ha' _ hfirst, Option.bind_some, hb' _ hrest]

theorem bind (h : Reads m ends read read') (hnext : ∀ a, Reads n ends (next a) (next' a)) :
    Reads (m + n) ends (fun ts => (read ts).bind fun p => next p.1 p.2)
      fun ts => (read' ts).bind fun p => next' p.1 p.2 :=
  h.bind_of_pos hnext (.inl rfl)

theorem map (h : Reads m ends read read') (f : α → β) :
    Reads m ends (fun ts => (read ts).map fun p => (f p.1, p.2))
      fun ts => (read' ts).map fun p => (f p.1, p.2) := by
  simp only [Option.map_eq_bind]
  exact h.bind fun a => .pure (f a)

theorem ite {p : List Token → Bool} (hp : Tells ends p)
    {left left' : List Token → Option (α × List Token)} (hleft : Reads n ends left left')
    (h : Reads n ends read read') :
    Reads n ends (fun ts => if p ts then left ts else read ts)
      fun ts => if p ts then left' ts else read' ts := by
  intro ts
  cases hts : p ts with
  | true =>
      refine (hleft ts).congr (if_pos hts) fun ts' h => ?_
      exact if_pos ((hp ts ts' h).symm.trans hts)
  | false =>
      have hnot : ¬p ts = true := by rw [hts]; exact Bool.false_ne_true
      exact (h ts).congr (if_neg hnot) fun ts' h => if_neg (hp ts ts' h ▸ hnot)

theorem ofOption (x : Option α) (f : α → β) :
    Reads 0 ends (fun ts => x.map fun a => (f a, ts)) fun ts => x.map fun a => (f a, ts) := by
  cases x with
  | none => exact .fail fun _ => rfl
  | some a => exact .pure (f a)

end Reads

/-! ## Nodes -/

variable {handles : Handles} {fuel fuel' : Nat} {inBlock unopened : Bool}

theorem reads_properties (handles : Handles) :
    Reads 0 true (properties handles) (properties handles) := by
  intro ts
  cases ts with
  | nil => exact .congr_nil (Reads.pure _ _) rfl rfl
  | cons t ts =>
      cases t with
      | anchor name =>
          have hbehind : ReadsAt 0 true (fun ts => properties handles (.anchor name :: ts))
              (fun ts => properties handles (.anchor name :: ts)) ts := by
            cases ts with
            | nil => exact .congr_nil (Reads.pure _ _) rfl rfl
            | cons u ts =>
                cases u with
                | tag handle suffix =>
                    exact .least (.cons (Reads.ofOption (expand handles handle suffix) _ ts) rfl
                      fun _ => rfl) (Nat.zero_le 1)
                | _ => exact .congr_first (Reads.pure _ _) rfl (fun _ => rfl) fun _ _ => rfl
          exact .least (.cons hbehind rfl fun _ => rfl) (Nat.zero_le 1)
      | tag handle suffix =>
          have hbehind : ReadsAt 0 true (fun ts => properties handles (.tag handle suffix :: ts))
              (fun ts => properties handles (.tag handle suffix :: ts)) ts := by
            cases ts with
            | nil => exact .congr_nil (Reads.ofOption (expand handles handle suffix) _ _) rfl rfl
            | cons u ts =>
                cases u with
                | anchor name =>
                    exact .least (.cons (Reads.ofOption (expand handles handle suffix) _ ts) rfl
                      fun _ => rfl) (Nat.zero_le 1)
                | _ =>
                    exact .congr_first (Reads.ofOption (expand handles handle suffix) _ _) rfl
                      (fun _ => rfl) fun _ _ => rfl
          exact .least (.cons hbehind rfl fun _ => rfl) (Nat.zero_le 1)
      | _ => exact .congr_first (Reads.pure _ _) rfl (fun _ => rfl) fun _ _ => rfl

theorem reads_value {read read' : List Token → Option (Tree × List Token)}
    (h : Reads 0 ends read read') : Reads 0 ends (value read) (value read') := by
  intro ts
  cases ts with
  | nil => exact .congr_nil (Reads.pure _ _) rfl rfl
  | cons t ts =>
      cases t with
      | value => exact .least (.cons (h ts) rfl fun _ => rfl) (Nat.zero_le 1)
      | _ => exact .congr_first (Reads.pure _ _) rfl (fun _ => rfl) fun _ _ => rfl

/-- Readers that take more steps than others read what these read. -/
structure Keeps (handles : Handles) (fuel fuel' : Nat) : Prop where
  node (inBlock unopened : Bool) :
    Reads 0 true (node handles inBlock unopened fuel) (node handles inBlock unopened fuel')
  nodeBehind (inBlock unopened : Bool) (p : Properties) : Reads 0 true
    (nodeBehind handles inBlock unopened p fuel) (nodeBehind handles inBlock unopened p fuel')
  nodeUnless (inBlock unopened : Bool) {isEnd : List Token → Bool} {ends : Bool} :
    Tells ends isEnd → Reads 0 ends (nodeUnless handles inBlock unopened isEnd fuel)
      (nodeUnless handles inBlock unopened isEnd fuel')
  items : Reads 1 true (items handles fuel) (items handles fuel')
  unopenedItems : Reads 0 true (unopenedItems handles fuel) (unopenedItems handles fuel')
  entries : Reads 1 true (entries handles fuel) (entries handles fuel')
  flowItems (first : Bool) :
    Reads 1 true (flowItems handles fuel first) (flowItems handles fuel' first)
  flowPair : Reads 0 true (flowPair handles fuel) (flowPair handles fuel')
  flowEntries (first : Bool) :
    Reads 1 true (flowEntries handles fuel first) (flowEntries handles fuel' first)

namespace Keeps

variable (h : Keeps handles fuel fuel')
include h

theorem node_succ (inBlock unopened : Bool) : Reads 0 true
    (Tree.node handles inBlock unopened (fuel + 1))
    (Tree.node handles inBlock unopened (fuel' + 1)) := by
  have hbehind := (reads_properties handles).bind (h.nodeBehind inBlock unopened)
  intro ts
  cases ts with
  | nil => exact .congr_nil (hbehind []) rfl rfl
  | cons t ts =>
      cases t with
      | «alias» name => exact .least (.cons (Reads.pure _ ts) rfl fun _ => rfl) (Nat.zero_le 1)
      | _ => exact .congr_first (hbehind _) rfl (fun _ => rfl) fun _ _ => rfl

theorem nodeBehind_succ (inBlock unopened : Bool) (p : Properties) : Reads 0 true
    (Tree.nodeBehind handles inBlock unopened p (fuel + 1))
    (Tree.nodeBehind handles inBlock unopened p (fuel' + 1)) := by
  have hempty : Reads 0 true (fun ts => p.empty.map fun tree => (tree, ts)) _ :=
    .ofOption p.empty id
  intro ts
  cases ts with
  | nil => exact .congr_nil (hempty []) rfl rfl
  | cons t ts =>
      cases t with
      | scalar plain text => exact .least (.cons (Reads.pure _ ts) rfl fun _ => rfl) (Nat.zero_le 1)
      | flowSequence =>
          exact .least (.cons ((h.flowItems true).map _ ts) rfl fun _ => rfl) (Nat.zero_le 2)
      | flowMapping =>
          exact .least (.cons ((h.flowEntries true).map _ ts) rfl fun _ => rfl) (Nat.zero_le 2)
      | blockSequence =>
          cases inBlock with
          | true => exact .least (.cons (h.items.map _ ts) rfl fun _ => rfl) (Nat.zero_le 2)
          | false => exact .congr_first (hempty _) rfl (fun _ => rfl) fun _ _ => rfl
      | blockMapping =>
          cases inBlock with
          | true => exact .least (.cons (h.entries.map _ ts) rfl fun _ => rfl) (Nat.zero_le 2)
          | false => exact .congr_first (hempty _) rfl (fun _ => rfl) fun _ _ => rfl
      | item =>
          cases unopened with
          | true =>
              exact .congr_first (h.unopenedItems.map (.sequence p.anchor p.tag ·) _) rfl
                (fun _ => rfl) nofun
          | false => exact .congr_first (hempty _) rfl (fun _ => rfl) fun _ _ => rfl
      | _ => exact .congr_first (hempty _) rfl (fun _ => rfl) fun _ _ => rfl

theorem nodeUnless_succ (inBlock unopened : Bool) {isEnd : List Token → Bool} {ends : Bool}
    (hend : Tells ends isEnd) : Reads 0 ends
      (Tree.nodeUnless handles inBlock unopened isEnd (fuel + 1))
      (Tree.nodeUnless handles inBlock unopened isEnd (fuel' + 1)) :=
  .ite hend (.pure Tree.empty) (h.node inBlock unopened).mono

theorem items_succ : Reads 1 true (Tree.items handles (fuel + 1))
    (Tree.items handles (fuel' + 1)) := by
  intro ts
  cases ts with
  | nil => exact .fail rfl
  | cons t ts =>
      cases t with
      | item =>
          have hfirst := h.nodeUnless true false tells_endsItem
          have hitems := hfirst.bind_of_pos
            (fun first => h.items.bind fun rest => .pure (first :: rest)) (.inr Nat.one_pos)
          exact .least (.cons (hitems ts) rfl fun _ => rfl) (by decide)
      | blockEnd => exact .cons (Reads.pure _ ts) rfl fun _ => rfl
      | _ => exact .fail rfl

theorem unopenedItems_succ : Reads 0 true (Tree.unopenedItems handles (fuel + 1))
    (Tree.unopenedItems handles (fuel' + 1)) := by
  have hend : Reads 0 true (fun ts => some (([] : List Tree), ts)) _ := .pure []
  intro ts
  cases ts with
  | nil => exact .congr_nil (hend []) rfl rfl
  | cons t ts =>
      cases t with
      | item =>
          have hfirst := h.nodeUnless true false (tells_endsUnopened true)
          have hitems := hfirst.bind fun first =>
            h.unopenedItems.bind fun rest => .pure (first :: rest)
          exact .least (.cons (hitems ts) rfl fun _ => rfl) (Nat.zero_le 1)
      | _ => exact .congr_first (hend _) rfl (fun _ => rfl) fun _ _ => rfl

theorem entries_succ : Reads 1 true (Tree.entries handles (fuel + 1))
    (Tree.entries handles (fuel' + 1)) := by
  intro ts
  cases ts with
  | nil => exact .fail rfl
  | cons t ts =>
      cases t with
      | key =>
          have hnode := h.nodeUnless true true (tells_endsValue true)
          have hentries := hnode.bind fun key => (reads_value hnode).bind fun value =>
            h.entries.bind fun rest => .pure ((key, value) :: rest)
          exact .least (.cons (hentries ts) rfl fun _ => rfl) (by decide)
      | blockEnd => exact .cons (Reads.pure _ ts) rfl fun _ => rfl
      | _ => exact .fail rfl

omit h in
theorem flowItems_separator (fuel : Nat) (ts : List Token) :
    Tree.flowItems handles (fuel + 1) false (.separator :: ts) =
      Tree.flowItems handles (fuel + 1) true ts := by
  cases ts with
  | nil => rfl
  | cons t ts => cases t <;> rfl

omit h in
theorem flowEntries_separator (fuel : Nat) (ts : List Token) :
    Tree.flowEntries handles (fuel + 1) false (.separator :: ts) =
      Tree.flowEntries handles (fuel + 1) true ts := by
  cases ts with
  | nil => rfl
  | cons t ts => cases t <;> rfl

theorem flowItems_succ (first : Bool) : Reads 1 true (Tree.flowItems handles (fuel + 1) first)
    (Tree.flowItems handles (fuel' + 1) first) := by
  have hpair := h.flowPair.bind fun item =>
    (h.flowItems false).bind fun rest => .pure (item :: rest)
  have hnode := (h.node false false).bind fun item =>
    (h.flowItems false).bind fun rest => .pure (item :: rest)
  have hfirst : Reads 1 true (Tree.flowItems handles (fuel + 1) true)
      (Tree.flowItems handles (fuel' + 1) true) := by
    intro ts
    cases ts with
    | nil => exact .congr_nil (hnode []) rfl rfl
    | cons t ts =>
        cases t with
        | flowSequenceEnd => exact .cons (Reads.pure _ ts) rfl fun _ => rfl
        | key => exact .least (.cons (hpair ts) rfl fun _ => rfl) (by decide)
        | _ => exact .congr_cons (hnode _) rfl fun _ => rfl
  cases first with
  | true => exact hfirst
  | false =>
      intro ts
      cases ts with
      | nil => exact .fail rfl
      | cons t ts =>
          cases t with
          | flowSequenceEnd => exact .cons (Reads.pure _ ts) rfl fun _ => rfl
          | separator =>
              exact .least (.cons (hfirst ts) (flowItems_separator ..)
                fun _ => flowItems_separator ..) (by decide)
          | _ => exact .fail rfl

theorem flowEntries_succ (first : Bool) : Reads 1 true (Tree.flowEntries handles (fuel + 1) first)
    (Tree.flowEntries handles (fuel' + 1) first) := by
  have hkey := h.nodeUnless false false ((tells_startsValue true).or (tells_endsFlowEntry true))
  have hvalue := h.nodeUnless false false (tells_endsFlowEntry true)
  have hpair := hkey.bind fun key => (reads_value hvalue).bind fun value =>
    (h.flowEntries false).bind fun rest => .pure ((key, value) :: rest)
  have hnode := (h.node false false).bind fun key =>
    (h.flowEntries false).bind fun rest => .pure ((key, Tree.empty) :: rest)
  have hfirst : Reads 1 true (Tree.flowEntries handles (fuel + 1) true)
      (Tree.flowEntries handles (fuel' + 1) true) := by
    intro ts
    cases ts with
    | nil => exact .congr_nil (hnode []) rfl rfl
    | cons t ts =>
        cases t with
        | flowMappingEnd => exact .cons (Reads.pure _ ts) rfl fun _ => rfl
        | key => exact .least (.cons (hpair ts) rfl fun _ => rfl) (by decide)
        | _ => exact .congr_cons (hnode _) rfl fun _ => rfl
  cases first with
  | true => exact hfirst
  | false =>
      intro ts
      cases ts with
      | nil => exact .fail rfl
      | cons t ts =>
          cases t with
          | flowMappingEnd => exact .cons (Reads.pure _ ts) rfl fun _ => rfl
          | separator =>
              exact .least (.cons (hfirst ts) (flowEntries_separator ..)
                fun _ => flowEntries_separator ..) (by decide)
          | _ => exact .fail rfl

theorem flowPair_succ : Reads 0 true (Tree.flowPair handles (fuel + 1))
    (Tree.flowPair handles (fuel' + 1)) := by
  have hvalue := h.nodeUnless false false (tells_endsFlowItem true)
  have hdrop : Reads 0 true (fun ts => some (Tree.empty, ts.drop 1))
      fun ts => some (Tree.empty, ts.drop 1) := by
    intro ts
    cases ts with
    | nil => exact .congr_nil (Reads.pure _ _) rfl rfl
    | cons t ts => exact .least (.cons (Reads.pure _ ts) rfl fun _ => rfl) (Nat.zero_le 1)
  have hkey := Reads.ite ((tells_startsValue true).or (tells_endsFlowItem true)) hdrop
    (h.node false false)
  have hpair := hkey.bind fun key => (reads_value hvalue).bind fun value =>
    .pure (Tree.mapping none none [(key, value)])
  have heq : ∀ fuel ts, Tree.flowPair handles (fuel + 1) ts =
      (if startsValue ts || endsFlowItem ts then some (Tree.empty, ts.drop 1)
        else Tree.node handles false false fuel ts).bind fun p =>
          (value (Tree.nodeUnless handles false false endsFlowItem fuel) p.2).bind fun q =>
            some (Tree.mapping none none [(p.1, q.1)], q.2) := by
    intro fuel ts
    rw [Tree.flowPair]
    split <;> rfl
  exact fun ts => (hpair ts).congr (heq fuel ts) fun ts' _ => heq fuel' ts'

theorem succ : Keeps handles (fuel + 1) (fuel' + 1) where
  node := h.node_succ
  nodeBehind := h.nodeBehind_succ
  nodeUnless := h.nodeUnless_succ
  items := h.items_succ
  unopenedItems := h.unopenedItems_succ
  entries := h.entries_succ
  flowItems := h.flowItems_succ
  flowPair := h.flowPair_succ
  flowEntries := h.flowEntries_succ

end Keeps

end OptimalAssignment.Yaml.Tree
