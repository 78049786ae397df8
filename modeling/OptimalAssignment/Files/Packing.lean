import OptimalAssignment.Files.Path

/-!
# Packed files

The end of a file's name tells how the file is packed.  What gets the contents out of its bytes is
found around a program, and how it does so is of no concern here.
-/

namespace OptimalAssignment.Files

inductive Packing where
  | gzip
  | bzip2
  | xz
  | lzma
  deriving DecidableEq, Repr

/-- Why the contents of a packed file cannot be had. -/
inductive Damage where
  /-- The file ends before its contents do. -/
  | cutOff
  | malformed (why : String)
  deriving DecidableEq, Repr

/-- From the bytes of a packed file to its contents. -/
abbrev Unpacker := List UInt8 → Except Damage (List UInt8)

/-- The end of a name from its last point on; points that the name starts with do not count. -/
def Path.extensionOf (name : List Char) : List Char :=
  let named := name.dropWhile (· == '.')
  let tail := (named.reverse.takeWhile (· != '.')).reverse
  if tail.length = named.length then [] else '.' :: tail

def Path.extension (p : Path) : String :=
  String.ofList (extensionOf p.name.toList)

/-- How the file at a path is packed, if it is. -/
def Packing.of? (p : Path) : Option Packing :=
  match p.extension with
  | ".gz" => some .gzip
  | ".bz2" => some .bzip2
  | ".xz" => some .xz
  | ".lzma" => some .lzma
  | _ => none

example : Packing.of? (.ofString "scores/m.csv.gz") = some .gzip ∧
    Packing.of? (.ofString "..gz") = none := by
  decide +kernel

end OptimalAssignment.Files
