import OptimalAssignment.Settings.Content

/-!
# Following references

A reference is looked up from the top of a document, or from a collection around it if it starts
with points.  What it leads to may be a reference again, and so may every collection on the way.  A
chain of references that takes too many steps is a circle.
-/

namespace OptimalAssignment

open Yaml Reference

/-- A document in which references are followed. -/
structure Scope where
  root : Data
  /-- The values of the variables that are set. -/
  environment : String → Option String
  /-- The value of a key at the top, as one of its type, that a reference has given. -/
  convert : String → Data → Except DocumentError Data

namespace Scope

/-! ## Places -/

/-- A collection in a document: the keys that lead to it, the last one first, and it with the
collections around it. -/
structure Place where
  keys : List String
  collection : Data
  outer : List (List String × Data)

namespace Place

def inside (p : Place) (key : String) (d : Data) : Place :=
  ⟨key :: p.keys, d, (p.keys, p.collection) :: p.outer⟩

def around? (p : Place) : Option Place :=
  match p.outer with
  | (keys, d) :: rest => some ⟨keys, d, rest⟩
  | [] => none

def top (p : Place) : Place :=
  match p.outer.getLast? with
  | some (keys, d) => ⟨keys, d, []⟩
  | none => p

/-- What a key of the collection leads to; the keys of a sequence are numbers. -/
def child? (p : Place) (key : String) : Except DocumentError (Option Data) :=
  match p.collection with
  | .mapping entries =>
      .ok ((entries.find? fun e => e.1.sameKey (.leaf (.text key))).map Prod.snd)
  | .sequence items =>
      match Decimal.looseInt? key with
      | some i => .ok (if i < 0 then none else items[i.toNat]?)
      | none => .error .unresolvable
  | _ => .error .notCollection

/-- Where a path starts: at the top, or at as many collections further out as there are points
after the first. -/
def start? (p : Place) : List Char → Option (Place × List Char)
  | '.' :: '.' :: cs =>
      match p.around? with
      | some q => start? q ('.' :: cs)
      | none => none
  | '.' :: cs => some (p, cs)
  | cs => some (p.top, cs)
termination_by cs => cs.length

end Place

/-- What a reference leads to; a collection with its own place, anything else with that of the
collection around it. -/
structure Found where
  value : Data
  place : Place

def isCollection : Data → Bool
  | .sequence _ | .mapping _ => true
  | _ => false

/-! ## Keys of a path -/

def isPathKeyChar (c : Char) : Bool :=
  c != '.' && c != '['

/-- The keys behind the first one. -/
def laterKeys : Nat → List Char → List String
  | 0, _ | _, [] => []
  | fuel + 1, '.' :: cs =>
      let key := cs.takeWhile isPathKeyChar
      String.ofList key :: laterKeys fuel (cs.drop key.length)
  | fuel + 1, '[' :: cs =>
      let key := cs.takeWhile (· != ']')
      if key.length < cs.length then
        String.ofList key :: laterKeys fuel (cs.drop (key.length + 1))
      else laterKeys fuel cs
  | fuel + 1, _ :: cs => laterKeys fuel cs

/-- No key is in front of a bracket that a path starts with. -/
def keysOf (cs : List Char) : List String :=
  let first := cs.takeWhile isPathKeyChar
  let rest := cs.drop first.length
  let later := laterKeys rest.length rest
  if cs.isEmpty || (first.isEmpty && rest.head? == some '[') then later
  else String.ofList first :: later

/-! ## Failures -/

/-- Inside a reference all failures but these count as one. -/
def isResolution : DocumentError → Bool
  | .unknownReference | .missingReference | .unresolvable | .incompatibleReference
  | .unknownCall => true
  | _ => false

def asResolution (e : DocumentError) : DocumentError :=
  if isResolution e then e else .unresolvable

def text (s : String) (p : Place) : Found :=
  ⟨.leaf (.text s), p⟩

def textOf : Data → Except DocumentError String
  | .leaf (.text s) => .ok s
  | _ => .error .unresolvable

/-! ## Functions -/

/-- The value of a variable, or else its default, which is a text or null. -/
def valueOf (environment : String → Option String) : List Data → Except DocumentError Data
  | [.leaf (.text name)] =>
      match environment name with
      | some s => .ok (.leaf (.text s))
      | none => .error .unresolvable
  | [.leaf (.text name), .leaf (.text default)] =>
      .ok (.leaf (.text ((environment name).getD default)))
  | [.leaf (.text name), .leaf .null] =>
      .ok (.leaf (((environment name).map Value.text).getD .null))
  | _ => .error .unresolvable

/-- A collection as a part of the document. -/
def createOf : List Data → Except DocumentError Data
  | [d] => do
      let made ← match d with
        | .leaf .null => .ok (.leaf .null)
        | .leaf (.text s) => Content.ofText s
        | .sequence items => .ok (.sequence items)
        | .mapping entries => .ok (.mapping entries)
        | _ => .error .unresolvable
      Content.check made
      return made
  | _ => .error .unresolvable

def keysOfMapping (entries : List (Data × Data)) : Data :=
  .sequence (entries.map Prod.fst)

/-- The values of a mapping, each as a reference. -/
def valuesOfMapping (path : String) (entries : List (Data × Data)) : Data :=
  .sequence (entries.map fun (key, _) =>
    .leaf (.text (s!"$\x7b{path}.{Content.spoken key}\x7d")))

/-! ## Evaluation -/

mutual

/-- The value of a key, with the reference followed that it may be. -/
def follow (scope : Scope) : Nat → Place → String → Data → Except DocumentError Found
  | 0, _, _, _ => .error .unresolvable
  | fuel + 1, p, key, d =>
      match d with
      | .leaf (.text s) =>
          if hasReference s.toList then
            match parts? s with
            | none => .error .badReference
            | some ps => do
                let r ← (evalParts scope fuel p ps).mapError asResolution
                if p.keys.isEmpty then return { r with value := ← scope.convert key r.value }
                else return r
          else .ok ⟨d, p⟩
      | _ => .ok ⟨d, if isCollection d then p.inside key d else p⟩

/-- What keys lead to from a collection; `strict` says that a value that is still to be given is an
error. -/
def select (scope : Scope) (strict : Bool) :
    Nat → Place → List String → Except DocumentError (Option Found)
  | 0, _, _ => .error .unresolvable
  | _ + 1, p, [] => .ok (some ⟨p.collection, p⟩)
  | fuel + 1, p, key :: rest => do
      match ← p.child? key with
      | none => return none
      | some d =>
          if Content.isMissing d then
            if strict then .error .missingReference
            else if rest.isEmpty then return some ⟨d, p⟩
            else .error .notCollection
          else
            let r ← follow scope fuel p key d
            if rest.isEmpty then return some r
            else if isCollection r.value then select scope strict fuel r.place rest
            else .error .notCollection

/-- What a path leads to; it leads to no collection around it. -/
def lookUp (scope : Scope) : Nat → Place → String → Except DocumentError Found
  | 0, _, _ => .error .unresolvable
  | fuel + 1, p, path =>
      match p.start? path.toList with
      | none => .error .unknownReference
      | some (start, cs) => do
          match ← select scope true fuel start (keysOf cs) with
          | none => .error .unknownReference
          | some r =>
              if isCollection r.value && r.place.keys.isSuffixOf p.keys then .error .unresolvable
              else return r

/-- What a path given as an argument leads to, if it leads anywhere. -/
def lookUp? (scope : Scope) : Nat → Place → String → Except DocumentError (Option Found)
  | 0, _, _ => .error .unresolvable
  | fuel + 1, p, path =>
      match p.start? path.toList with
      | none => .error .unresolvable
      | some (start, cs) =>
          match select scope false fuel start (keysOf cs) with
          | .error .notCollection => .ok none
          | r => r

def evalPart (scope : Scope) : Nat → Place → Part → Except DocumentError Found
  | 0, _, _ => .error .unresolvable
  | _ + 1, p, .literal cs => .ok (text (String.ofList cs) p)
  | fuel + 1, p, .path pieces => do
      lookUp scope fuel p (← evalName scope fuel p pieces)
  | fuel + 1, p, .call name arguments => do
      let name ← evalName scope fuel p name
      call scope fuel p name (← evalElements scope fuel p arguments)

/-- A path or a name; references in it give texts. -/
def evalName (scope : Scope) : Nat → Place → List Part → Except DocumentError String
  | 0, _, _ => .error .unresolvable
  | _ + 1, _, [] => .ok ""
  | fuel + 1, p, part :: rest => do
      let s ← textOf (← evalPart scope fuel p part).value
      return s ++ (← evalName scope fuel p rest)

/-- The text of parts. -/
def evalText (scope : Scope) : Nat → Place → List Part → Except DocumentError String
  | 0, _, _ => .error .unresolvable
  | _ + 1, _, [] => .ok ""
  | fuel + 1, p, part :: rest => do
      let s := Content.spoken (← evalPart scope fuel p part).value
      return s ++ (← evalText scope fuel p rest)

def evalParts (scope : Scope) : Nat → Place → List Part → Except DocumentError Found
  | 0, _, _ => .error .unresolvable
  | fuel + 1, p, [part] => evalPart scope fuel p part
  | fuel + 1, p, ps => (evalText scope fuel p ps).map (text · p)

def evalElement (scope : Scope) : Nat → Place → Element → Except DocumentError Data
  | 0, _, _ => .error .unresolvable
  | _ + 1, _, .value v => .ok (.leaf v)
  | fuel + 1, p, .joined ps => (evalParts scope fuel p ps).map (·.value)
  | fuel + 1, p, .quoted ps => (evalText scope fuel p ps).map fun s => .leaf (.text s)
  | fuel + 1, p, .list items => (evalElements scope fuel p items).map .sequence
  | fuel + 1, p, .record entries => do
      let values ← evalElements scope fuel p (entries.map Prod.snd)
      return .ofEntries ((entries.map fun e => Data.leaf e.1).zip values)

def evalElements (scope : Scope) : Nat → Place → List Element → Except DocumentError (List Data)
  | 0, _, _ => .error .unresolvable
  | _ + 1, _, [] => .ok []
  | fuel + 1, p, e :: rest => do
      let v ← evalElement scope fuel p e
      return v :: (← evalElements scope fuel p rest)

/-- The value of a function. -/
def call (scope : Scope) : Nat → Place → String → List Data → Except DocumentError Found
  | 0, _, _, _ => .error .unresolvable
  | fuel + 1, p, name, arguments => do
      let made (d : Data) : Found := ⟨d, if isCollection d then p.inside "" d else p⟩
      match name, arguments with
      | "oc.select", [key] => selectOr scope fuel p key (made (.leaf .null))
      | "oc.select", [key, d] => selectOr scope fuel p key (made d)
      | "oc.deprecated", key :: message => do
          let path ← textOf key
          let isText := match message with
            | [] | [.leaf (.text _)] => true
            | _ => false
          match isText, ← lookUp? scope fuel p path with
          | true, some r => return r
          | _, _ => .error .unresolvable
      | "oc.env", _ => (valueOf scope.environment arguments).map made
      | "oc.create", _ => (createOf arguments).map made
      | "oc.decode", [.leaf .null] => return made (.leaf .null)
      | "oc.decode", [d] => do
          match element? (← textOf d) with
          | some e => (evalElement scope fuel p e).map made
          | none => .error .unresolvable
      | "oc.dict.keys", [key] => do
          return made (keysOfMapping (← entriesAt scope fuel p (← textOf key)))
      | "oc.dict.values", [key] => do
          let path ← textOf key
          return made (valuesOfMapping path (← entriesAt scope fuel p path))
      | _, _ => .error (if known.contains name then .unresolvable else .unknownCall)
where
  known : List String :=
    ["oc.select", "oc.deprecated", "oc.decode", "oc.dict.keys", "oc.dict.values"]

/-- What a path leads to, or else something in its place. -/
def selectOr (scope : Scope) : Nat → Place → Data → Found → Except DocumentError Found
  | 0, _, _, _ => .error .unresolvable
  | fuel + 1, p, key, default => do
      match ← lookUp? scope fuel p (← textOf key) with
      | some r => return if Content.isMissing r.value then default else r
      | none => return default

/-- The entries of a mapping. -/
def entriesAt (scope : Scope) : Nat → Place → String → Except DocumentError (List (Data × Data))
  | 0, _, _ => .error .unresolvable
  | fuel + 1, p, path => do
      match ← lookUp? scope fuel p path with
      | some ⟨.mapping entries, _⟩ => return entries
      | _ => .error .unresolvable

end

/-- More steps than chains of references take that are no circles. -/
def maxSteps : Nat := 400

def rootPlace (scope : Scope) : Place :=
  ⟨[], scope.root, []⟩

/-- The value of a key or of an item at the top. -/
def resolve (scope : Scope) (key : String) (d : Data) : Except DocumentError Data :=
  (scope.follow maxSteps scope.rootPlace key d).map (·.value)

end Scope
end OptimalAssignment
