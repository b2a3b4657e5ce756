import DemandPaging.PagingError
import Std.Data.TreeMap

/-!
# Pages of processes

A page of a process, named by the process and the page number, ordered by process first.
-/

namespace DemandPaging

/-- A page of a process. -/
structure PageId where
  pid : Pid
  page : Nat
deriving DecidableEq

namespace PageId

instance : Ord PageId where
  compare := compareLex (compareOn PageId.pid) (compareOn PageId.page)

instance : Std.TransOrd PageId :=
  inferInstanceAs (Std.TransCmp (compareLex (compareOn PageId.pid) (compareOn PageId.page)))

instance : Std.LawfulEqOrd PageId where
  eq_of_compare {a b} h := by
    have h' : (compare a.pid b.pid).then (compare a.page b.page) = .eq := h
    rw [Ordering.then_eq_eq] at h'
    cases a
    cases b
    simp only [Std.LawfulEqOrd.compare_eq_iff_eq] at h'
    simp [h'.1, h'.2]

end PageId

end DemandPaging
