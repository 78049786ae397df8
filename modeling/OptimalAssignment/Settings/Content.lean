import OptimalAssignment.Settings
import OptimalAssignment.Settings.Reference.Reader
import OptimalAssignment.Yaml.Reader

/-!
# The content of documents

What a document holds before it is taken for settings: its values must be of types that settings
know, its keys must be given, and the references in its texts must be well formed.
-/

namespace OptimalAssignment

open Yaml

/-- Why a document gives no settings. -/
inductive DocumentError where
  | faulty (why : Yaml.Fault)
  /-- A number or a truth value in the place of a document. -/
  | scalarDocument
  /-- A text that in its turn holds a number or a truth value. -/
  | scalarText
  | badKey
  | badReference
  /-- A collection that is a part of itself. -/
  | endless
  | notMapping
  | sectionOfList
  | sectionScalar
  | missingItem
  | unknownKey
  | incompatible
  | outOfRange
  /-- A whole number with more digits than are written. -/
  | tooLong
  /-- A value that no document holds. -/
  | unsupported
  | unknownReference
  /-- A reference to a value that is still to be given. -/
  | missingReference
  /-- A key below something that has no keys. -/
  | notCollection
  | unresolvable
  | incompatibleReference
  | unknownCall
  | settings (why : SettingsError)

namespace Content

/-! ## Values as content -/

/-- The mark of a value that is still to be given. -/
def missingMark : String := "???"

/-- A text that stands for the mark itself. -/
def escapedMark : String := "\\???"

def isMissing : Data → Bool
  | .leaf (.text s) => s == missingMark
  | _ => false

mutual

def ofValue : Value → Data
  | .list vs => .sequence (ofValues vs)
  | .record fields => .mapping (ofFields fields)
  | v => .leaf v

def ofValues : List Value → List Data
  | [] => []
  | v :: vs => ofValue v :: ofValues vs

def ofFields : List (String × Value) → List (Data × Data)
  | [] => []
  | (key, v) :: rest => (.leaf (.text key), ofValue v) :: ofFields rest

end

/-! ## Admission -/

def isKey : Data → Bool
  | .leaf .null => false
  | .leaf _ | .bytes => true
  | _ => false

mutual

/-- Whether documents hold such content throughout. -/
def check : Data → Except DocumentError Unit
  | .leaf (.text s) => if Reference.isKept s then .ok () else .error .badReference
  | .leaf (.complex _ _) | .moment | .set => .error .unsupported
  | .leaf _ | .bytes => .ok ()
  | .loop => .error .endless
  | .sequence items => checkItems items
  | .mapping entries => checkEntries entries

def checkItems : List Data → Except DocumentError Unit
  | [] => .ok ()
  | item :: rest => do
      check item
      checkItems rest

def checkEntries : List (Data × Data) → Except DocumentError Unit
  | [] => .ok ()
  | (key, value) :: rest => do
      if !isKey key then .error .badKey
      check value
      checkEntries rest

end

/-! ## Documents -/

def read (text : String) : Except DocumentError Data :=
  (Yaml.read text).mapError .faulty

/-- The document inside a text: nothing is an empty mapping, a word is its only key. -/
def ofText (s : String) : Except DocumentError Data := do
  match ← read s with
  | .leaf .null => .ok (.mapping [])
  | .leaf (.text key) => .ok (.mapping [(.leaf (.text key), .leaf .null)])
  | .sequence items => .ok (.sequence items)
  | .mapping entries => .ok (.mapping entries)
  | _ => .error .scalarText

/-- The document of a file. -/
def ofFile (text : String) : Except DocumentError Data := do
  match ← read text with
  | .leaf .null => .ok (.mapping [])
  | .leaf (.text s) => ofText s
  | .sequence items => .ok (.sequence items)
  | .mapping entries => .ok (.mapping entries)
  | _ => .error .scalarDocument

/-! ## Content as text -/

mutual

def display : Data → String
  | .leaf v => v.display
  | .bytes => "b\x27\x27"
  | .sequence items => "[" ++ ", ".intercalate (displayItems items) ++ "]"
  | .mapping entries => "\x7b" ++ ", ".intercalate (displayEntries entries) ++ "\x7d"
  | .moment | .set | .loop => "..."

def displayItems : List Data → List String
  | [] => []
  | item :: rest => display item :: displayItems rest

def displayEntries : List (Data × Data) → List String
  | [] => []
  | (key, value) :: rest => (display key ++ ": " ++ display value) :: displayEntries rest

end

def spoken : Data → String
  | .leaf v => v.spoken
  | d => display d

end Content
end OptimalAssignment
