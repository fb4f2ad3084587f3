import Mathlib.Algebra.Order.BigOperators.Group.List
import Mathlib.Algebra.Order.Group.Nat
import Mathlib.Algebra.Order.Ring.Int

namespace McManager.Framework

/-- A text longer than all of these. -/
def newText (ids : List String) : String :=
  String.ofList (List.replicate ((ids.map String.length).sum + 1) 'x')

theorem length_newText (ids : List String) :
    (newText ids).length = (ids.map String.length).sum + 1 := by
  rw [newText, String.length_ofList, List.length_replicate]

theorem newText_notMem (ids : List String) : newText ids ∉ ids := by
  intro mem
  have short := List.single_le_sum (fun n _ => Nat.zero_le n) _
    (List.mem_map_of_mem (f := String.length) mem)
  rw [length_newText] at short
  omega

end McManager.Framework
