import NotebookTree.Fault
import NotebookTree.Proofs.Sequence

/-!
# Misuse

What is taken for a record, a sequence or a node and is none ends work in a fault that tells so. The
command does not report such faults, it passes them on.

## Main definitions

* `Fault.IsMisuse`: the faults of values that are not what they are taken for.
-/

namespace NotebookTree

open Except (FaultsIn)

/-- A fault of a value that lacks something, or does not take what is done with it. -/
def Fault.IsMisuse : Fault → Prop
  | noAttribute _ _ | wrongType | noKey | noIndex => True
  | _ => False

/-- The command passes misuse on. -/
theorem Fault.IsMisuse.isReported_eq {f : Fault} (h : f.IsMisuse) : f.isReported = false := by
  cases f with
  | noAttribute | wrongType | noKey | noIndex => rfl
  | _ => cases h

namespace Value

variable (v : Value) (name : String)

theorem misuse_lacks : (v.lacks name).IsMisuse := trivial

/-- Reading a field fails for want of the attribute alone. -/
theorem misuse_field : FaultsIn Fault.IsMisuse (v.field name) := by
  rw [field]
  split
  · exact Except.faultsIn_ok _
  · exact Except.faultsIn_error (misuse_lacks v name)

/-- Going through a value fails for what is no list alone. -/
theorem misuse_items : FaultsIn Fault.IsMisuse v.items := by
  rw [items]
  split
  · exact Except.faultsIn_ok _
  · exact Except.faultsIn_error trivial

end Value

end NotebookTree
