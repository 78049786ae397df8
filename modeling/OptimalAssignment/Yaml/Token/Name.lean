import OptimalAssignment.Text.Digit
import OptimalAssignment.Text.Utf8
import OptimalAssignment.Yaml.Source
import OptimalAssignment.Yaml.Token

/-!
# Names in a document

Anchors, tags and directives.  Each reader gives the token and the source behind it, and nothing if
the name is malformed.
-/

namespace OptimalAssignment.Yaml

open Text

/-! ## Anchors -/

/-- The marks that may follow an anchor at once. -/
def anchorEnds : List Char :=
  ['?', ':', ',', ']', '\x7d', '%', '@', '\x60']

/-- A name from behind its mark. -/
def anchorName (s : Source) : Option (String × Source) :=
  let (name, t) := s.span isNameChar
  if !name.isEmpty && t.chars.head?.all fun c => isGap c || anchorEnds.contains c then
    some (String.ofList name, t)
  else none

/-! ## Tags -/

def tagMarks : List Char :=
  [';', '/', '?', ':', '@', '&', '=', '+', '$', '.', '%', '!', '~', '*', '\'', '(', ')']

def isTagChar (verbatim : Bool) (c : Char) : Bool :=
  isNameChar c || tagMarks.contains c || (verbatim && [',', '[', ']'].contains c)

/-- A run of bytes, each of them written as `%` and two digits. -/
def escapedBytes : List Char → List UInt8
  | '%' :: a :: b :: cs =>
      match hex? 2 [a, b] with
      | some n => UInt8.ofNat n :: escapedBytes cs
      | none => []
  | _ => []

/-- The text of a tag; escaped bytes make up characters. -/
def tagText : Nat → List Char → Option (List Char)
  | 0, _ => none
  | _, [] => some []
  | fuel + 1, c :: cs =>
      if c == '%' then do
        let bytes := escapedBytes (c :: cs)
        let text ← (Utf8.decode bytes).toOption
        if bytes.isEmpty then none
        else (tagText fuel ((c :: cs).drop (3 * bytes.length))).map (text ++ ·)
      else (tagText fuel cs).map (c :: ·)

/-- The part of a tag that starts here. -/
def tagPart (verbatim : Bool) (s : Source) : Option (List Char × Source) :=
  let (written, t) := s.span (isTagChar verbatim)
  (tagText (written.length + 1) written).map (·, t)

/-- A name between marks, as far as it goes: `!`, `!name` or `!name!`. -/
def handlePart (s : Source) : List Char × Source :=
  let (name, t) := (s.drop 1).span isNameChar
  if t.chars.head? == some '!' then ('!' :: name ++ ['!'], t.drop 1) else ('!' :: name, t)

/-- The handle and the rest of a tag; a tag without a handle has an empty one. -/
def tagName (s : Source) : Option (String × String × Source) :=
  match s.chars with
  | '!' :: '<' :: _ => do
      let (text, t) ← tagPart true (s.drop 2)
      if text.isEmpty || t.chars.head? != some '>' then none
      else some ("", String.ofList text, t.drop 1)
  | _ =>
      let (handle, t) := handlePart s
      if 2 ≤ handle.length && handle.getLast? == some '!' then do
        let (suffix, u) ← tagPart false t
        if suffix.isEmpty then none else some (String.ofList handle, String.ofList suffix, u)
      else do
        let (more, u) ← tagPart false t
        let suffix := handle.drop 1 ++ more
        if suffix.isEmpty then some ("", "!", u) else some ("!", String.ofList suffix, u)

/-- A tag and the gap that must follow it. -/
def tag (flow : Bool) (s : Source) : Option (Token × Source) := do
  let (handle, suffix, t) ← tagName s
  if standsAlone t.chars || (flow && t.chars.head? == some ',') then
    some (.tag handle suffix, t)
  else none

/-! ## Directives -/

/-- A number of at most nine digits. -/
def versionNumber (s : Source) : Option (Nat × Source) :=
  let (digits, t) := s.span Char.isDigit
  if 0 < digits.length && digits.length < 10 then some (ofDigits digits, t) else none

def version (s : Source) : Option (Token × Source) := do
  let (major, t) ← versionNumber (s.span isBlank).2
  if t.chars.head? != some '.' then none
  else
    let (minor, u) ← versionNumber (t.drop 1)
    some (.version major minor, u)

/-- A handle and what it stands for. -/
def handle (s : Source) : Option (Token × Source) := do
  let start := (s.span isBlank).2
  if start.chars.head? != some '!' then none
  else
    let (name, t) := handlePart start
    if name != ['!'] && name.getLast? != some '!' then none
    else if !t.chars.head?.any isBlank then none
    else
      let (expansion, u) ← tagPart true (t.span isBlank).2
      if expansion.isEmpty || !standsAlone u.chars then none
      else some (.handle (String.ofList name) (String.ofList expansion), u)

/-- A directive from behind its mark, to the end of its line. -/
def directive (s : Source) : Option (Token × Source) := do
  let (name, t) := s.span isNameChar
  let (token, u) ←
    if !standsAlone t.chars then none
    else if name == "YAML".toList then version t
    else if name == "TAG".toList then handle t
    else none
  return (token, ← u.emptyLine?)

end OptimalAssignment.Yaml
