import Mathlib.Data.List.Nodup
import Mathlib.Data.Nat.Init
import OptimalAssignment.Proofs.Results
import OptimalAssignment.Proofs.Yaml.Tokens
import OptimalAssignment.Yaml.Reader

/-!
# Entries of a block mapping

The tokens of entries give a mapping of their keys and values, and an entry that is put among those
of a mapping is found there and leaves the others as they were.
-/

namespace OptimalAssignment.Yaml

open Lexer

/-! ## Trees -/

namespace Entry

def tree (e : Entry) : Tree × Tree :=
  (.scalar none none true (String.ofList e.key),
    .scalar none none e.word.plain (String.ofList e.word.text))

end Entry

namespace Tree

variable (handles : Handles)

end Tree

/-! ## Values of nodes -/

namespace Node

theorem both_ok {α β : Type} {x : Making α} {y : Making β} {a : α} {b : β} :
    both x y = .ok (a, b) ↔ x = .ok a ∧ y = .ok b := by
  cases x <;> cases y <;> simp [both]

variable {depth : Nat}

theorem makeEntries_cons_ok {e : Node × Node} {es : List (Node × Node)} {ds : List (Data × Data)} :
    makeEntries depth (e :: es) = .ok ds ↔ ∃ key value rest, makeKey depth e.1 = .ok key ∧
      make depth e.2 = .ok value ∧ makeEntries depth es = .ok rest ∧ ds = (key, value) :: rest := by
  rw [makeEntries]
  constructor
  · intro h
    obtain ⟨⟨⟨key, value⟩, rest⟩, hboth, rfl⟩ := map_ok h
    obtain ⟨hentry, hrest⟩ := both_ok.1 hboth
    obtain ⟨hkey, hvalue⟩ := both_ok.1 hentry
    exact ⟨key, value, rest, hkey, hvalue, hrest, rfl⟩
  · rintro ⟨key, value, rest, hkey, hvalue, hrest, rfl⟩
    rw [both_ok.2 ⟨both_ok.2 ⟨hkey, hvalue⟩, hrest⟩]
    rfl

theorem makeEntries_append_ok {xs ys : List (Node × Node)} {ds : List (Data × Data)} :
    makeEntries depth (xs ++ ys) = .ok ds ↔ ∃ ds₁ ds₂, makeEntries depth xs = .ok ds₁ ∧
      makeEntries depth ys = .ok ds₂ ∧ ds = ds₁ ++ ds₂ := by
  induction xs generalizing ds with
  | nil =>
      rw [List.nil_append, makeEntries]
      constructor
      · exact fun h => ⟨[], ds, rfl, h, rfl⟩
      · rintro ⟨_, ds₂, ⟨⟩, h, rfl⟩
        exact h
  | cons x xs ih =>
      rw [List.cons_append, makeEntries_cons_ok]
      constructor
      · rintro ⟨key, value, rest, hkey, hvalue, hrest, rfl⟩
        obtain ⟨ds₁, ds₂, h₁, h₂, rfl⟩ := ih.1 hrest
        exact ⟨_, ds₂, makeEntries_cons_ok.2 ⟨key, value, ds₁, hkey, hvalue, h₁, rfl⟩, h₂, rfl⟩
      · rintro ⟨_, ds₂, h, h₂, rfl⟩
        obtain ⟨key, value, ds₁, hkey, hvalue, h₁, rfl⟩ := makeEntries_cons_ok.1 h
        exact ⟨key, value, _, hkey, hvalue, ih.2 ⟨ds₁, ds₂, h₁, h₂, rfl⟩, rfl⟩

theorem mem_of_makeEntries {es : List (Node × Node)} {ds : List (Data × Data)}
    (h : makeEntries depth es = .ok ds) {e : Node × Node} (he : e ∈ es) :
    ∃ d ∈ ds, makeKey depth e.1 = .ok d.1 := by
  obtain ⟨xs, ys, rfl⟩ := List.append_of_mem he
  obtain ⟨ds₁, _, -, hcons, rfl⟩ := makeEntries_append_ok.1 h
  obtain ⟨key, value, ds₂, hkey, -, -, rfl⟩ := makeEntries_cons_ok.1 hcons
  exact ⟨(key, value), by simp, hkey⟩

theorem ofPairs_append (anchors : Anchors) (xs ys : List (Tree × Tree)) :
    ofPairs anchors (xs ++ ys) = (ofPairs anchors xs).bind fun (ns, anchors) =>
      (ofPairs anchors ys).map fun (ms, anchors) => (ns ++ ms, anchors) := by
  induction xs generalizing anchors with
  | nil =>
      rw [List.nil_append, ofPairs]
      simp
  | cons x xs ih =>
      obtain ⟨key, value⟩ := x
      rw [List.cons_append, ofPairs, ofPairs]
      cases ofTree anchors key with
      | none => rfl
      | some p =>
          simp only [Option.bind_eq_bind, Option.bind_some]
          cases ofTree p.2 value with
          | none => rfl
          | some q =>
              simp only [Option.bind_some, ih]
              cases ofPairs q.2 xs with
              | none => rfl
              | some r =>
                  show ((ofPairs r.2 ys).map _).bind _ = (ofPairs r.2 ys).map _
                  cases ofPairs r.2 ys <;> rfl

theorem length_eraseDups_le {α : Type} [BEq α] (xs : List α) : xs.eraseDups.length ≤ xs.length := by
  induction h : xs.length using Nat.strong_induction_on generalizing xs with
  | h n ih =>
    cases xs with
    | nil => simp
    | cons x xs =>
      have hle := List.length_filter_le (fun y => !y == x) xs
      rw [List.length_cons] at h
      rw [List.eraseDups_cons, List.length_cons, ← h]
      exact Nat.succ_le_succ (Nat.le_trans (ih _ (by omega) _ rfl) hle)

theorem hasTwins_eq_false {es : List (Node × Node)} :
    hasTwins es = false ↔ (es.filterMap fun e => keyText? e.1).Nodup := by
  unfold hasTwins
  generalize (es.filterMap fun e => keyText? e.1) = keys
  rw [decide_eq_false_iff_not]
  induction keys with
  | nil => simp
  | cons key keys ih =>
    rw [List.eraseDups_cons, List.nodup_cons, ← ih, List.length_cons, List.length_cons]
    by_cases hmem : key ∈ keys
    · have hlt : (keys.filter fun k => !k == key).length < keys.length :=
        List.length_filter_lt_length_iff_exists.2 ⟨key, hmem, by simp⟩
      have hle := length_eraseDups_le (keys.filter fun k => !k == key)
      simp only [hmem, not_true_eq_false, false_and, iff_false, not_not]
      omega
    · have hsame : (keys.filter fun k => !k == key) = keys :=
        List.filter_eq_self.2 fun k hk => by
          simpa using fun h : k = key => hmem (h ▸ hk)
      rw [hsame]
      simp only [hmem, not_false_eq_true, true_and]
      omega

end Node

/-! ## Keys that are texts -/

namespace Data

theorem same_text {v : Value} {s : String} : v.same (.text s) = true ↔ v = .text s := by
  cases v <;> simp [Value.same, Value.sameNumber, Value.equalsInt]

theorem text_same {v : Value} {s : String} : (Value.text s).same v = true ↔ v = .text s := by
  cases v with
  | text t => simpa [Value.same] using eq_comm
  | _ => simp [Value.same, Value.sameNumber, Value.equalsInt]

theorem sameKey_text {d : Data} {s : String} :
    d.sameKey (.leaf (.text s)) = true ↔ d = .leaf (.text s) := by
  cases d <;> simp [sameKey, same_text]

theorem text_sameKey {d : Data} {s : String} :
    sameKey (.leaf (.text s)) d = true ↔ d = .leaf (.text s) := by
  cases d <;> simp [sameKey, text_same]

/-- Whether an entry has a text as its key. -/
def isNamed (s : String) (e : Data × Data) : Bool :=
  e.1.sameKey (.leaf (.text s))

theorem isNamed_iff {s : String} {e : Data × Data} : isNamed s e = true ↔ e.1 = .leaf (.text s) :=
  sameKey_text

variable {s : String} {es : List (Data × Data)} {key : Data}

/-- Entries keep their keys when their values are replaced. -/
theorem isNamed_replaced (key value : Data) (e : Data × Data) :
    isNamed s (if e.1.sameKey key then (e.1, value) else e) = isNamed s e := by
  split <;> rfl

theorem sameKey_of_isNamed {e : Data × Data} (hkey : key ≠ .leaf (.text s))
    (he : isNamed s e = true) : e.1.sameKey key = false := by
  rw [isNamed_iff.1 he]
  exact Bool.eq_false_iff.2 fun h => hkey (text_sameKey.1 h)

/-- Another key changes nothing about the entries with a name. -/
theorem filter_isNamed_insert (hkey : key ≠ .leaf (.text s)) (value : Data) :
    (insert es key value).filter (isNamed s) = es.filter (isNamed s) := by
  unfold insert
  split
  · simp only [List.filter_map, Function.comp_def, isNamed_replaced]
    refine (List.map_congr_left fun e he => ?_).trans (List.map_id _)
    rw [sameKey_of_isNamed hkey (List.mem_filter.1 he).2]
    rfl
  · have hnot : isNamed s (key, value) = false :=
      Bool.eq_false_iff.2 fun h => hkey (isNamed_iff.1 h)
    simp [hnot]

/-- Another key is put among the other entries. -/
theorem filter_others_insert (hkey : key ≠ .leaf (.text s)) (value : Data) :
    (insert es key value).filter (fun e => !isNamed s e) =
      insert (es.filter fun e => !isNamed s e) key value := by
  have hany : (es.filter fun e => !isNamed s e).any (fun e => e.1.sameKey key) =
      es.any fun e => e.1.sameKey key := by
    rw [List.any_filter]
    congr 1
    funext e
    cases he : isNamed s e with
    | false => rfl
    | true => rw [sameKey_of_isNamed hkey he]; rfl
  unfold insert
  rw [hany]
  split
  · simp only [List.filter_map, Function.comp_def, isNamed_replaced]
  · have hnot : isNamed s (key, value) = false :=
      Bool.eq_false_iff.2 fun h => hkey (isNamed_iff.1 h)
    simp [hnot]

theorem isNamed_self (s : String) (value : Data) : isNamed s (.leaf (.text s), value) = true :=
  isNamed_iff.2 rfl

theorem filter_others_insert_named (value : Data) :
    (insert es (.leaf (.text s)) value).filter (fun e => !isNamed s e) =
      es.filter fun e => !isNamed s e := by
  unfold insert
  split
  · simp only [List.filter_map, Function.comp_def, isNamed_replaced]
    refine (List.map_congr_left fun e he => ?_).trans (List.map_id _)
    exact if_neg fun h => by simpa [isNamed, h] using (List.mem_filter.1 he).2
  · simp [isNamed_self]

theorem filter_isNamed_insert_named (h : es.filter (isNamed s) = []) (value : Data) :
    (insert es (.leaf (.text s)) value).filter (isNamed s) = [(.leaf (.text s), value)] := by
  have hnone : es.any (fun e => e.1.sameKey (.leaf (.text s))) = false := by
    simpa [isNamed, List.filter_eq_nil_iff] using h
  unfold insert
  rw [hnone]
  simp [h, isNamed_self]

/-- Entries that are put into a mapping one after the other. -/
def insertAll (es ds : List (Data × Data)) : List (Data × Data) :=
  ds.foldl (fun es (key, value) => insert es key value) es

theorem filter_insertAll {ds : List (Data × Data)} (h : ∀ d ∈ ds, d.1 ≠ .leaf (.text s))
    (es : List (Data × Data)) :
    (insertAll es ds).filter (isNamed s) = es.filter (isNamed s) ∧
      (insertAll es ds).filter (fun e => !isNamed s e) =
        insertAll (es.filter fun e => !isNamed s e) ds := by
  induction ds generalizing es with
  | nil => exact ⟨rfl, rfl⟩
  | cons d ds ih =>
      have hd := h d List.mem_cons_self
      obtain ⟨hnamed, hothers⟩ :=
        ih (fun e he => h e (List.mem_cons_of_mem _ he)) (insert es d.1 d.2)
      rw [filter_isNamed_insert hd] at hnamed
      rw [filter_others_insert hd] at hothers
      exact ⟨hnamed, hothers⟩

/-- A key that is given once has its value, and the others are what they are without it. -/
theorem filter_insertAll_named {ds₁ ds₂ : List (Data × Data)}
    (h : ∀ d ∈ ds₁ ++ ds₂, d.1 ≠ .leaf (.text s)) (value : Data) :
    (insertAll [] (ds₁ ++ (.leaf (.text s), value) :: ds₂)).filter (isNamed s) =
        [(.leaf (.text s), value)] ∧
      (insertAll [] (ds₁ ++ (.leaf (.text s), value) :: ds₂)).filter (fun e => !isNamed s e) =
        insertAll [] (ds₁ ++ ds₂) := by
  have h₁ : ∀ d ∈ ds₁, d.1 ≠ .leaf (.text s) := fun d hd => h d (List.mem_append_left _ hd)
  have h₂ : ∀ d ∈ ds₂, d.1 ≠ .leaf (.text s) := fun d hd => h d (List.mem_append_right _ hd)
  obtain ⟨hnone, hbefore⟩ := filter_insertAll h₁ []
  obtain ⟨hnamed, hothers⟩ :=
    filter_insertAll h₂ (insert (insertAll [] ds₁) (.leaf (.text s)) value)
  have hall : insertAll [] (ds₁ ++ (.leaf (.text s), value) :: ds₂) =
      insertAll (insert (insertAll [] ds₁) (.leaf (.text s)) value) ds₂ := by
    unfold insertAll
    rw [List.foldl_append, List.foldl_cons]
  have hwithout : insertAll [] (ds₁ ++ ds₂) = insertAll (insertAll [] ds₁) ds₂ :=
    List.foldl_append
  rw [filter_isNamed_insert_named hnone] at hnamed
  rw [filter_others_insert_named, hbefore] at hothers
  rw [hall, hwithout]
  exact ⟨hnamed, hothers⟩

theorem any_isNamed_insert {value : Data}
    (h : key = .leaf (.text s) ∨ es.any (isNamed s) = true) :
    (insert es key value).any (isNamed s) = true := by
  unfold insert
  split
  · rename_i hany
    have hes : es.any (isNamed s) = true := by
      rcases h with rfl | h
      · exact hany
      · exact h
    simpa [List.any_map, Function.comp_def, isNamed_replaced] using hes
  · rcases h with rfl | h
    · simp [isNamed_self]
    · rw [List.any_append, h, Bool.true_or]

theorem any_isNamed_insertAll {ds : List (Data × Data)} (h : es.any (isNamed s) = true) :
    (insertAll es ds).any (isNamed s) = true := by
  induction ds generalizing es with
  | nil => exact h
  | cons d ds ih => exact ih (any_isNamed_insert (.inr h))

/-- No name that is given is lost. -/
theorem ne_of_insertAll {ds : List (Data × Data)}
    (h : ∀ e ∈ insertAll es ds, e.1 ≠ .leaf (.text s)) : ∀ d ∈ ds, d.1 ≠ .leaf (.text s) := by
  induction ds generalizing es with
  | nil => exact fun d hd => absurd hd List.not_mem_nil
  | cons d ds ih =>
      intro c hc hname
      rcases List.mem_cons.1 hc with rfl | hc
      · have hany : (insertAll (insert es c.1 c.2) ds).any (isNamed s) = true :=
          any_isNamed_insertAll (any_isNamed_insert (.inl hname))
        obtain ⟨e, he, hnamed⟩ := List.any_eq_true.1 hany
        exact h e he (isNamed_iff.1 hnamed)
      · exact ih h c hc hname

end Data

/-! ## Entries as nodes and as data -/

def Word.tag (w : Word) : Tag :=
  if w.plain then .ofText (String.ofList w.text) else .text

namespace Entry

def name (e : Entry) : String :=
  String.ofList e.key

/-- The key is a text, and the word is read as the value. -/
structure Readable (e : Entry) : Prop extends e.Legible where
  name : Tag.ofText e.name = .text
  value : makeScalar e.word.tag (String.ofList e.word.text) = .ok (.leaf e.value)

def node (e : Entry) : Node × Node :=
  (.scalar .text e.name, .scalar e.word.tag (String.ofList e.word.text))

def data (e : Entry) : Data × Data :=
  (.leaf (.text e.name), .leaf e.value)

end Entry

namespace Node

variable {es : List Entry}

theorem ofTree_scalar (anchors : Anchors) (plain : Bool) (text : String) :
    ofTree anchors (.scalar none none plain text) =
      some (.scalar (if plain then Tag.ofText text else .text) text, anchors) := by
  rw [ofTree]
  rfl

theorem makeKey_text (depth : Nat) (s : String) :
    makeKey depth (.scalar .text s) = .ok (.leaf (.text s)) := by
  rw [makeKey]
  rfl

/-- The nodes of a mapping that are no merges. -/
def own (ns : List (Node × Node)) : List (Node × Node) :=
  ns.filter fun n => !isMerge n

def mergedInto? (ns : List (Node × Node)) : Option (List (List (Node × Node))) :=
  (ns.filter isMerge).mapM fun n => n.2.merged?

theorem ofEntries_eq (tag : Tag) (ns : List (Node × Node)) : ofEntries tag ns =
    match mergedInto? ns with
    | some merged => .mapping tag (!hasTwins (own ns)) (merged.flatten ++ own ns)
    | none => .mapping tag false (own ns) :=
  rfl

theorem ofEntries_of_merged {ns : List (Node × Node)} {merged : List (List (Node × Node))}
    (hmerged : mergedInto? ns = some merged) (htwins : hasTwins (own ns) = false) (tag : Tag) :
    ofEntries tag ns = .mapping tag true (merged.flatten ++ own ns) := by
  rw [ofEntries_eq, hmerged]
  simp only [htwins]
  rfl

theorem ofTree_mapping {anchors anchors' : Anchors} {ts : List (Tree × Tree)}
    {ns : List (Node × Node)} (h : ofPairs anchors ts = some (ns, anchors')) :
    ofTree anchors (.mapping none none ts) = some (ofEntries .mapping ns, anchors') := by
  rw [ofTree]
  show Option.bind (ofPairs anchors _) _ = _
  rw [h]
  rfl

theorem make_unsound (ns : List (Node × Node)) (d : Data) :
    make depth (.mapping .mapping false ns) ≠ .ok d := by
  intro h
  rw [make] at h
  · cases h
  all_goals
    intros
    contradiction

/-- What a mapping without tags holds. -/
def Holds (ts : List (Tree × Tree)) (ds : List (Data × Data)) : Prop :=
  ∃ node anchors, ofTree [] (.mapping none none ts) = some (node, anchors) ∧
    node.make 0 = .ok (.mapping ds)

theorem holds_iff {ts : List (Tree × Tree)} {ds : List (Data × Data)} : Holds ts ds ↔
    ∃ ns anchors merged given, ofPairs [] ts = some (ns, anchors) ∧
      mergedInto? ns = some merged ∧ hasTwins (own ns) = false ∧
      makeEntries 1 (merged.flatten ++ own ns) = .ok given ∧ ds = Data.insertAll [] given := by
  constructor
  · rintro ⟨node, anchors, htree, hmake⟩
    cases hpairs : ofPairs [] ts with
    | none =>
        rw [ofTree] at htree
        change Option.bind (ofPairs [] ts) _ = _ at htree
        rw [hpairs] at htree
        cases htree
    | some p =>
        obtain ⟨ns, anchors'⟩ := p
        rw [ofTree_mapping hpairs] at htree
        cases htree
        cases hmerged : mergedInto? ns with
        | none =>
            rw [ofEntries_eq, hmerged] at hmake
            exact absurd hmake (make_unsound _ _)
        | some merged =>
            cases htwins : hasTwins (own ns) with
            | true =>
                rw [ofEntries_eq, hmerged] at hmake
                simp only [htwins] at hmake
                exact absurd hmake (make_unsound _ _)
            | false =>
                rw [ofEntries_of_merged hmerged htwins, make] at hmake
                obtain ⟨given, hgiven, hds⟩ := map_ok hmake
                exact ⟨ns, _, merged, given, rfl, hmerged, htwins, hgiven, Data.mapping.inj hds⟩
  · rintro ⟨ns, anchors, merged, given, hpairs, hmerged, htwins, hmake, rfl⟩
    refine ⟨_, anchors, ofTree_mapping hpairs, ?_⟩
    rw [ofEntries_of_merged hmerged htwins, make, hmake]
    rfl

theorem eq_of_keyText? {n : Node} {s : String} (h : keyText? n = some s) : n = .scalar .text s := by
  unfold keyText? at h
  split at h
  · cases h
    rfl
  · cases h

section Insert

variable {name : String} {node : Node} {ns₁ ns₂ : List (Node × Node)}

theorem ofPairs_insert {ts₁ ts₂ : List (Tree × Tree)} {ns : List (Node × Node)} {anchors : Anchors}
    (h : ofPairs [] (ts₁ ++ ts₂) = some (ns, anchors)) (hname : Tag.ofText name = .text)
    {tree : Tree} (htree : ∀ anchors, ofTree anchors tree = some (node, anchors)) :
    ∃ ns₁ ns₂, ns = ns₁ ++ ns₂ ∧
      ofPairs [] (ts₁ ++ (.scalar none none true name, tree) :: ts₂) =
        some (ns₁ ++ (.scalar .text name, node) :: ns₂, anchors) := by
  rw [ofPairs_append] at h
  obtain ⟨⟨ns₁, anchors₁⟩, hpairs₁, h⟩ := Option.bind_eq_some_iff.1 h
  obtain ⟨⟨ns₂, anchors₂⟩, hpairs₂, h⟩ := Option.map_eq_some_iff.1 h
  obtain ⟨rfl, rfl⟩ := Prod.mk.inj h
  refine ⟨ns₁, ns₂, rfl, ?_⟩
  rw [ofPairs_append, hpairs₁]
  show Option.map _ (ofPairs anchors₁ (_ :: ts₂)) = _
  rw [ofPairs, ofTree_scalar, if_pos rfl, hname]
  simp only [Option.bind_eq_bind, Option.bind_some, htree, hpairs₂]
  rfl

theorem mergedInto?_insert : mergedInto? (ns₁ ++ (.scalar .text name, node) :: ns₂) =
    mergedInto? (ns₁ ++ ns₂) := by
  unfold mergedInto?
  rw [List.filter_append, List.filter_append, List.filter_cons_of_neg Bool.false_ne_true]

theorem own_append : own (ns₁ ++ ns₂) = own ns₁ ++ own ns₂ :=
  List.filter_append ..

theorem own_insert : own (ns₁ ++ (.scalar .text name, node) :: ns₂) =
    own ns₁ ++ (.scalar .text name, node) :: own ns₂ := by
  rw [own_append]
  unfold own
  rw [List.filter_cons_of_pos rfl]

theorem hasTwins_insert (h : hasTwins (ns₁ ++ ns₂) = false)
    (hfree : name ∉ (ns₁ ++ ns₂).filterMap fun n => keyText? n.1) :
    hasTwins (ns₁ ++ (.scalar .text name, node) :: ns₂) = false := by
  rw [hasTwins_eq_false, List.filterMap_append] at h
  rw [List.filterMap_append] at hfree
  rw [hasTwins_eq_false, List.filterMap_append, List.filterMap_cons]
  exact List.nodup_middle.2 (List.nodup_cons.2 ⟨hfree, h⟩)

/-- A key that none of the entries has is not the key of a node that they are made from. -/
theorem notMem_keyTexts {ns : List (Node × Node)} {ds : List (Data × Data)}
    (h : makeEntries depth ns = .ok ds) (hne : ∀ d ∈ ds, d.1 ≠ .leaf (.text name)) :
    name ∉ ns.filterMap fun n => keyText? n.1 := by
  intro hmem
  obtain ⟨n, hn, hkey⟩ := List.mem_filterMap.1 hmem
  obtain ⟨d, hd, hmakeKey⟩ := mem_of_makeEntries h hn
  rw [eq_of_keyText? hkey, makeKey_text] at hmakeKey
  exact hne d hd (Except.ok.inj hmakeKey).symm

/-- An entry of its own name among those of a mapping. -/
theorem Holds.insert {ts₁ ts₂ : List (Tree × Tree)} {others : List (Data × Data)}
    (h : Holds (ts₁ ++ ts₂) others) (hname : Tag.ofText name = .text)
    (hothers : ∀ e ∈ others, e.1 ≠ .leaf (.text name)) {tree : Tree} {value : Data}
    (htree : ∀ anchors, ofTree anchors tree = some (node, anchors))
    (hnode : node.make 1 = .ok value) :
    ∃ ds, Holds (ts₁ ++ (.scalar none none true name, tree) :: ts₂) ds ∧
      ds.filter (Data.isNamed name) = [(.leaf (.text name), value)] ∧
      ds.filter (fun e => !Data.isNamed name e) = others := by
  obtain ⟨ns, anchors, merged, given, hpairs, hmerged, htwins, hmake, rfl⟩ := holds_iff.1 h
  have hgiven := Data.ne_of_insertAll hothers
  -- the new entry has no anchors, it is no merge, and it is named like none of the others
  obtain ⟨ns₁, ns₂, rfl, hpairs'⟩ := ofPairs_insert hpairs hname htree
  have hmerged' : mergedInto? (ns₁ ++ (.scalar .text name, node) :: ns₂) = some merged :=
    mergedInto?_insert.trans hmerged
  have hfree := notMem_keyTexts hmake hgiven
  rw [List.filterMap_append, List.mem_append, not_or, own_append] at hfree
  rw [own_append] at htwins hmake
  have htwins' : hasTwins (own (ns₁ ++ (.scalar .text name, node) :: ns₂)) = false := by
    rw [own_insert]
    exact hasTwins_insert htwins hfree.2
  rw [← List.append_assoc] at hmake
  obtain ⟨ds₁, ds₂, hmake₁, hmake₂, rfl⟩ := makeEntries_append_ok.1 hmake
  obtain ⟨hnamed, hrest⟩ := Data.filter_insertAll_named hgiven value
  refine ⟨_, holds_iff.2 ⟨_, _, merged, _, hpairs', hmerged', htwins', ?_, rfl⟩, hnamed, hrest⟩
  rw [own_insert, ← List.append_assoc]
  exact makeEntries_append_ok.2 ⟨_, _, hmake₁,
    makeEntries_cons_ok.2 ⟨_, _, _, makeKey_text _ _, hnode, hmake₂, rfl⟩, rfl⟩

end Insert

end Node

end OptimalAssignment.Yaml
