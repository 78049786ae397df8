import OptimalAssignment.Files.Path

/-!
# Entries

What stands at a path, and what keeps it from being read or written.
-/

namespace OptimalAssignment.Files

inductive Entry where
  | file (bytes : List UInt8)
  | folder
  /-- Nothing, in a folder. -/
  | vacant
  /-- Nothing, in a folder that does not exist. -/
  | detached
  /-- A file stands where a folder would have to be. -/
  | belowFile
  /-- A name on the way, or the path as a whole, is longer than names can be. -/
  | overlong
  /-- No file has such a name. -/
  | unnameable
  deriving Inhabited

inductive AccessError where
  | notFound
  | isFolder
  | notFolder
  | tooLong
  | badName
  deriving DecidableEq, Repr

namespace Entry

def read : Entry → Except AccessError (List UInt8)
  | .file bytes => .ok bytes
  | .folder => .error .isFolder
  | .vacant | .detached => .error .notFound
  | .belowFile => .error .notFolder
  | .overlong => .error .tooLong
  | .unnameable => .error .badName

/-- A file is replaced, and a new one needs a folder to be in. -/
def checkWritable : Entry → Except AccessError Unit
  | .file _ | .vacant => .ok ()
  | .folder => .error .isFolder
  | .detached => .error .notFound
  | .belowFile => .error .notFolder
  | .overlong => .error .tooLong
  | .unnameable => .error .badName

end Entry
end OptimalAssignment.Files
