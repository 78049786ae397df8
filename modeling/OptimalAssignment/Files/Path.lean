/-!
# Paths

A path is read from a text with names between slashes.  Empty names and single points mean nothing
and are dropped; two points, which lead out of a folder, are kept.
-/

namespace OptimalAssignment.Files

structure Path where
  /-- The slashes in front: exactly two of them are not the same as one. -/
  root : String
  parts : List String
  deriving DecidableEq, Repr

namespace Path

def up : String := ".."

def isName (part : String) : Bool :=
  part != "" && part != "."

def rootOf : List Char → String
  | '/' :: '/' :: '/' :: _ => "/"
  | '/' :: '/' :: _ => "//"
  | '/' :: _ => "/"
  | _ => ""

def ofString (s : String) : Path where
  root := rootOf s.toList
  parts := ((s.toList.splitOn '/').map String.ofList).filter isName

/-- The folder at hand is a single point. -/
def text (p : Path) : String :=
  if p.root = "" ∧ p.parts = [] then "."
  else p.root ++ "/".intercalate p.parts

def name (p : Path) : String :=
  p.parts.getLast?.getD ""

/-- The end of a name from its last point on, with something before and after the point. -/
def suffixOf (name : List Char) : List Char :=
  let tail := (name.reverse.takeWhile (· != '.')).reverse
  if tail.isEmpty || name.length ≤ tail.length + 1 then [] else '.' :: tail

def suffix (p : Path) : String :=
  String.ofList (suffixOf p.name.toList)

/-! ## Limits -/

/-- No name has more bytes. -/
def maxNameBytes : Nat := 255

/-- No path has more bytes. -/
def maxBytes : Nat := 4095

def isLongName (name : String) : Bool :=
  maxNameBytes < name.utf8ByteSize

def isLong (p : Path) : Bool :=
  maxBytes < p.text.utf8ByteSize

/-- Names hold any character but `U+0000`. -/
def isNameable (p : Path) : Bool :=
  p.parts.all fun part => !part.toList.contains '\x00'

/-! ## Detours -/

/-- Cancels a name against the two points after it; `done` holds what is kept, last name first. -/
def fold (rooted : Bool) (done : List String) : List String → List String
  | [] => done.reverse
  | part :: rest =>
      if part = up then
        match done with
        | [] => fold rooted (if rooted then [] else [up]) rest
        | last :: before =>
            if last = up then fold rooted (up :: done) rest else fold rooted before rest
      else fold rooted (part :: done) rest

/-- The path without detours, whether or not there are folders on its way. -/
def direct (p : Path) : Path :=
  { p with parts := fold (p.root != "") [] p.parts }

end Path
end OptimalAssignment.Files
