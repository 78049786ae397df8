import OptimalAssignment.Value.Display

/-!
# References in texts

A text may refer to other values between `$` and braces: by a path of keys, or by the call of a
function.  A text that is one reference stands for the value it refers to; inside other text that
value is written out.  Paths, names of functions and arguments may hold references in their turn.
-/

namespace OptimalAssignment.Reference

mutual

inductive Part where
  | literal (cs : List Char)
  /-- Keys with the points and brackets around them. -/
  | path (pieces : List Part)
  | call (name : List Part) (arguments : List Element)

/-- An argument of a call. -/
inductive Element where
  | value (v : Value)
  | joined (parts : List Part)
  | quoted (parts : List Part)
  | list (items : List Element)
  | record (entries : List (Value × Element))

end

instance : Inhabited Part := ⟨.literal []⟩

/-- Texts without an opening mark have no references. -/
def hasReference : List Char → Bool
  | '$' :: '\x7b' :: _ => true
  | _ :: cs => hasReference cs
  | [] => false

/-- Puts characters in front of parts. -/
def prepend (cs : List Char) : List Part → List Part
  | .literal ds :: rest => .literal (cs ++ ds) :: rest
  | rest => if cs.isEmpty then rest else .literal cs :: rest

/-! ## The usual forms -/

def isWordChar (c : Char) : Bool :=
  c.isAlphanum || c == '_'

def isPathChar (c : Char) : Bool :=
  isWordChar c || c == '$'

def isSpacing (c : Char) : Bool :=
  c == ' ' || (9 ≤ c.toNat && c.toNat ≤ 13)

def trimSpacing (cs : List Char) : List Char :=
  ((cs.dropWhile isSpacing).reverse.dropWhile isSpacing).reverse

/-- The marks of a path: what is not a mark is a key. -/
def isUsualTail : Bool → List Char → Bool
  | false, '.' :: c :: cs => isPathChar c && isUsualTail false (cs.dropWhile isPathChar)
  | false, '[' :: cs =>
      let rest := cs.dropWhile isPathChar
      cs.head?.any isPathChar && isUsualTail true rest
  | true, ']' :: cs => isUsualTail false cs
  | false, [] => true
  | _, _ => false
termination_by _ cs => cs.length
decreasing_by
  all_goals simp_wf
  all_goals
    have := (List.dropWhile_suffix isPathChar (l := cs)).length_le
    omega

def isUsualPath (cs : List Char) : Bool :=
  match cs.dropWhile (· == '.') with
  | '[' :: rest => isUsualTail false ('[' :: rest)
  | c :: rest => isPathChar c && isUsualTail false (rest.dropWhile isPathChar)
  | [] => false

def isLetter (c : Char) : Bool :=
  c.isAlpha || c == '_'

/-- A name of a function; it may be left out. -/
def isUsualName (cs : List Char) : Bool :=
  cs.isEmpty || (cs.splitOn '.').all fun part =>
    part.head?.any isLetter && part.all fun c => isWordChar c || c == '-'

def argumentMarks : List Char :=
  ['/', '-', '\\', '+', '.', '$', '%', '*', '@', '?', '|']

def isUsualArgument (cs : List Char) : Bool :=
  !cs.isEmpty && cs.all fun c => c != '\\' && (isWordChar c || argumentMarks.contains c)

/-- What stands between the braces of a reference of the usual kind. -/
def isUsualBody (cs : List Char) : Bool :=
  let name := cs.takeWhile (· != ':')
  match cs.drop name.length with
  | [] => isUsualPath (trimSpacing cs)
  | _ :: arguments =>
      isUsualName (trimSpacing name) &&
        (arguments.splitOn ',').all fun part => isUsualArgument (trimSpacing part)

/-- Whether all references of a text are of the usual kind. -/
def isUsual : List Char → Bool
  | '$' :: '\x7b' :: cs =>
      let body := cs.takeWhile (· != '\x7d')
      body.length < cs.length && isUsualBody body && isUsual (cs.drop (body.length + 1))
  | _ :: cs => isUsual cs
  | [] => true
termination_by cs => cs.length
decreasing_by
  all_goals simp_wf
  omega

end OptimalAssignment.Reference
