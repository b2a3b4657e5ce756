import DemandPaging.Proofs.Kernel.Courses
import DemandPaging.Proofs.Kernel.Runs

/-!
# The counters account for the swap space

What has been counted since the start says how many swap slots are in use: as many as pages went
out, less those that came back and those that went with their processes
(`Kernel.Course.slots_accounted`). This holds at every point of every course, while threads are
asleep in the middle of a fault as well.
-/

namespace DemandPaging.Kernel

variable {σ : Type} [Extent σ] {k₀ k : Kernel σ} {history : List (Moment σ)}

/-- Nothing has been counted when a kernel is booted, nobody owes anything, and all slots are
free. -/
theorem boot_accounts {c : Config} {extent : σ} (hboot : boot c extent = .ok (.ok k₀)) :
    k₀.region = {} ∧ k₀.owing = 0 ∧ k₀.paging.counters = {} ∧
      k₀.paging.swap.slots.size = 0 ∧
        k₀.paging.swap.free.length = k₀.paging.swap.numSlots := by
  obtain ⟨-, paging, hfresh, rfl⟩ := exists_of_boot hboot
  obtain ⟨frameTable, swap, -, hswap, rfl⟩ := exists_of_freshPaging hfresh
  obtain rfl := SwapArea.eq_of_create hswap
  exact ⟨rfl, rfl, rfl, rfl, List.length_range⟩

/-- There are no more faults than misses, no more evictions than faults, and no more pages that went
to swap than were evicted. The slots in use are those of the pages that went to swap, less those
that came back and those that were released as their processes ended. -/
theorem Course.slots_accounted {c : Config} {extent : σ} (hboot : boot c extent = .ok (.ok k₀))
    (h : Course k₀ history k) :
    k.paging.counters.faults ≤ k.paging.counters.misses ∧
      k.paging.counters.evictions ≤ k.paging.counters.faults ∧
      k.paging.counters.swapOuts ≤ k.paging.counters.evictions ∧
      k.paging.counters.swapIns ≤ k.paging.counters.swapOuts ∧
      k.paging.swap.free.length ≤ k.paging.swap.numSlots ∧
      (k.paging.swap.numSlots : Int) - k.paging.swap.free.length =
        k.paging.counters.swapOuts - k.paging.counters.swapIns - released history := by
  obtain ⟨hfree, howing, hcounters, hsize, hall⟩ := boot_accounts hboot
  obtain ⟨hmisses, hfaults, hevictions, hused, hslots, hnum⟩ := h.posted hfree
  rw [hcounters] at hmisses hfaults hevictions hused
  simp only at hmisses hfaults hevictions hused
  rw [← hnum] at hall
  exact ⟨by omega, by omega, by omega, by omega, by omega, by omega⟩

/-- A thread stores into its stack, loads from the image and from the stack again, and stores into
the other page of the stack. The one frame is taken from page to page, so the first page of the
stack goes to swap, comes back and goes there again. Then the process ends. -/
def stackEvents : List Event :=
  smallEvents ++ [.ask 0 (.write 2 9)] ++ List.replicate 4 (.advance 0) ++
    [.ask 0 .exit, .advance 0]

/-- After a process has ended that had a page in swap: two pages went out, one came back, and one
went with the process. -/
theorem slots_accounted_small : ∃ (k₀ k : Kernel MemoryExtent)
    (history : List (Moment MemoryExtent)),
    boot smallConfig (⟨.zeros 1⟩ : MemoryExtent) = .ok (.ok k₀) ∧ Course k₀ history k ∧
      released history = 1 ∧ k.paging.counters = ⟨4, 4, 3, 2, 1⟩ ∧
      (k.paging.swap.numSlots : Int) - k.paging.swap.free.length =
        k.paging.counters.swapOuts - k.paging.counters.swapIns - released history := by
  have hholds : holdsOfCourse smallConfig stackEvents (fun history k =>
      released history = 1 && k.paging.counters = ⟨4, 4, 3, 2, 1⟩) = true := by decide +kernel
  obtain ⟨k₀, k, history, hboot, hcourse, hP⟩ := exists_of_holdsOfCourse hholds
  rw [Bool.and_eq_true, decide_eq_true_iff, decide_eq_true_iff] at hP
  exact ⟨k₀, k, history, hboot, hcourse, hP.1, hP.2,
    (Course.slots_accounted hboot hcourse).2.2.2.2.2⟩

end DemandPaging.Kernel
