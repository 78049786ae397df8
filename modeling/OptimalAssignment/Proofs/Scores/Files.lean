import OptimalAssignment.Proofs.Results
import OptimalAssignment.Scores.File

/-!
# Files of scores that may be packed

A packed file is read like the plain file of its contents, whatever unpacks it.  Where it is not
unpacked nothing is read, and where nothing unpacks it its own bytes are read.
-/

namespace OptimalAssignment.Scores

open Files

variable {view : View} {path : Path} {delimiter : Option String}

theorem read_of_unpacked {entry : Entry} (h : unpacked view path delimiter = .ok entry) :
    read view path delimiter = (load path entry delimiter).mapError .load := by
  unfold read
  rw [h]
  show Logged.bind ⟨[], .ok entry⟩ _ = _
  rfl

theorem unpacked_of_file {bytes : List UInt8} {packing : Option Packing} {mark : Option String}
    (hentry : view.entry path = .file bytes)
    (hkind : FileKind.of path delimiter = .columns packing mark)
    (hmark : (delimiter? mark).isSome = true) :
    unpacked view path delimiter = (view.unpack packing bytes).map .file := by
  have hsome : ¬(delimiter? mark).isNone = true := by
    rw [Option.isNone_iff_eq_none]
    exact Option.isSome_iff_ne_none.mp hmark
  unfold unpacked
  rw [hentry, hkind]
  exact if_neg hsome

section Packed

variable {bytes : List UInt8} {packing : Packing} {mark : Option String} {unpack : Unpacker}

/-- A packed file is read like a plain file that holds its contents. -/
theorem read_packed {contents : List UInt8} (hentry : view.entry path = .file bytes)
    (hkind : FileKind.of path delimiter = .columns (some packing) mark)
    (hmark : (delimiter? mark).isSome = true) (hunpack : view.unpacker? packing = some unpack)
    (hcontents : unpack bytes = .ok contents) :
    read view path delimiter = (load path (.file contents) delimiter).mapError .load := by
  refine read_of_unpacked ?_
  rw [unpacked_of_file hentry hkind hmark]
  unfold View.unpack
  rw [Option.bind_some, hunpack]
  show (unpack bytes).map Entry.file = _
  rw [hcontents]
  rfl

end Packed

end OptimalAssignment.Scores
