import OptimalAssignment.Files.Entry

/-!
# Folders

A folder as the files in it, each under the names that lead to it.  Of what lies outside of the
folder nothing is known but that the folders above it are there.
-/

namespace OptimalAssignment.Files

/-- Each file by the names of its path and its bytes. -/
abbrev Folder := List (List String × List UInt8)

/-- A place inside of a folder, or outside of it at the end of some names. -/
inductive Place where
  | inside (names : List String)
  | outside (names : List String)
  deriving DecidableEq, Repr

namespace Place

def start (p : Path) : Place :=
  if p.root = "" then .inside [] else .outside []

def parent : Place → Place
  | .inside names => if names.isEmpty then .outside [] else .inside names.dropLast
  | .outside names => .outside names.dropLast

def child (name : String) : Place → Place
  | .inside names => .inside (names ++ [name])
  | .outside names => .outside (names ++ [name])

end Place

namespace Folder

def file? (f : Folder) (names : List String) : Option (List UInt8) :=
  f.lookup names

/-- Whether the names are those of a folder: the one at hand, or one with a file somewhere in it. -/
def isFolder (f : Folder) (names : List String) : Bool :=
  names.isEmpty || f.any fun file => names.isPrefixOf file.1 && names != file.1

/-- Whether a file stands on the way to the names. -/
def hasFileAbove (f : Folder) (names : List String) : Bool :=
  f.any fun file => file.1.isPrefixOf names && names != file.1

def entryAt (f : Folder) : Place → Entry
  | .inside names =>
      match f.file? names with
      | some bytes => .file bytes
      | none =>
          if f.isFolder names then .folder
          else if f.hasFileAbove names then .belowFile
          else if f.isFolder names.dropLast then .vacant
          else .detached
  | .outside [] => .folder
  | .outside [_] => .vacant
  | .outside _ => .detached

/-- Follows names from a place on; only a folder can be left by a name. -/
def walk (f : Folder) (place : Place) : List String → Except Entry Place
  | [] => .ok place
  | name :: rest =>
      match f.entryAt place with
      | .folder =>
          if Path.isLongName name then .error .overlong
          else walk f (if name = Path.up then place.parent else place.child name) rest
      | .file _ | .belowFile => .error .belowFile
      | _ => .error .detached

def place (f : Folder) (p : Path) : Except Entry Place :=
  f.walk (.start p) p.parts

def entry (f : Folder) (p : Path) : Entry :=
  if !p.isNameable then .unnameable
  else if p.isLong then .overlong
  else
    match f.place p with
    | .ok place => f.entryAt place
    | .error e => e

end Folder
end OptimalAssignment.Files
