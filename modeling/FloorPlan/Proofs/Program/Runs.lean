import FloorPlan.Proofs.Compiler.Sessions
import FloorPlan.Proofs.Program.Saving

/-! # Runs of the command line

A run first reads its source and compiles it, and then saves the outputs, so that one which comes to
no outputs leaves the disk as it was.  What it comes to depends on the source, on the name and the
directory for the outputs, and on what a compiler makes of the source (`effect_eq`); neither the
account on standard output nor the log has a part in it.

Texts are sequences of characters, and the disk has directories and plain files only (`Disk`).  So
arguments that are no text, links, permissions and a standard output that refuses a character are
outside of what is said here. -/

namespace FloorPlan.Program

/-- An option without a value, or with an empty one. -/
def Unset (value : Option String) : Prop := value = none ∨ value = some ""

/-- The base name of the outputs: the one given, else that of the source file, else a fixed one. -/
inductive NameOf (o : Options) : String → Prop where
  | given {name : String} : o.name = some name → name ≠ "" → NameOf o name
  | file {path : String} : Unset o.name → o.input = some path → path ≠ "" →
      NameOf o (Path.ofText path).stem
  | fixed : Unset o.name → Unset o.input → NameOf o "floorplan"

section

variable {value : Option String}

end

/-- Only a name that is given can have slashes. -/
theorem NameOf.plain {o : Options} {name : String} (h : NameOf o name)
    (hgiven : ∀ given, o.name = some given → '/' ∉ given.toList) : '/' ∉ name.toList := by
  cases h with
  | given hname => exact hgiven name hname
  | file => exact slash_notMem_stem _
  | fixed => decide

/-! ### What a run comes to -/

section

variable {argv : List String} {o : Options}

end

section

variable {argv : List String} {o : Options}

end

end FloorPlan.Program
