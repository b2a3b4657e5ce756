import DemandPaging.Proofs.Kernel.Callers
import DemandPaging.Proofs.Kernel.EventKinds

/-!
# Pins of callers

The console and the threads of processes may pin frames and take the pins off again, at any time and
one over the other. While a pin is outstanding the page in the frame stays where it is, unless its
process ends, and the pin can always be taken off (`CallerRun.frame_kept`): evictions pass over a
pinned frame, copies count their pins on top, and a process that ends leaves the frame reserved.

There is one frame for which this fails. A thread that waits for a swap slot keeps its victim, and
once it is woken it pushes the page out whatever has been pinned in the meantime. The next page then
moves in, and all pins of the frame are dropped (`pin_dropped`). So frames are pinned here only
while no thread waits with them.
-/

namespace DemandPaging

variable {σ : Type}

namespace Kernel

/-- The process with this number has ended. -/
def HasEnded (k : Kernel σ) (pid : Pid) : Prop :=
  ∃ i p, k.process i = some p ∧ p.pid = pid ∧ p.exited = true

variable [Extent σ] [Extent.Reliable σ] {k k' k₀ k₁ k₂ : Kernel σ} {caller : Caller} {f : Nat}
  {done trace later : List (Event × Option (Response σ))} {P : Multiset Nat → Prop}
  {callers callers' callers₀ : Multiset Nat}

/-- While a caller has a frame pinned, the page in it stays there, unless its process ends. -/
theorem EventKind.owner_kept {e : Event} (h : k.EventKind callers e k') (hf : f ∈ callers)
    {id : PageId} (howner : k.paging.frameTable.owner f = some id) :
    k'.paging.frameTable.owner f = some id ∨ k'.HasEnded id.pid := by
  cases h with
  | quiet _ _ _ hframes => exact .inl (hframes ▸ howner)
  | moves _ _ hspares =>
      exact .inl ((hspares.owner_eq f (Multiset.mem_add.2 (.inr hf))).trans howner)
  | @ends n place p call cause paging hends =>
      by_cases hpid : id.pid = p.pid
      · exact .inr ⟨place, _, hends.process_eq, hpid.symm, rfl⟩
      · exact .inl ((hends.reclaimed.owner_iff f id).2 ⟨hpid, howner⟩)

theorem EventKind.hasEnded {e : Event} {pid : Pid} (h : k.EventKind callers e k')
    (hended : k.HasEnded pid) : k'.HasEnded pid := by
  obtain ⟨i, p, hp, hpid, hexited⟩ := hended
  exact ⟨i, p, h.exited hp hexited, hpid, hexited⟩

/-- As long as a pin is outstanding the frame has the page that it had, unless the page's process
has ended. -/
theorem CallerRun.owner_kept (h : CallerRun (f ∈ ·) k₀ callers₀ trace callers k)
    (hsound : ∃ m, k₀.Sound m callers₀) (hf : f ∈ callers₀) {id : PageId}
    (howner : k₀.paging.frameTable.owner f = some id) :
    f ∈ callers ∧ (k.paging.frameTable.owner f = some id ∨ k.HasEnded id.pid) := by
  induction h with
  | nil => exact ⟨hf, .inl howner⟩
  | step h he hrun ih =>
      obtain ⟨m, hm⟩ := h.sound hsound
      have hkind := hm.perform_event he hrun
      refine ⟨ih.1, ?_⟩
      rcases ih.2 with howner | hended
      · exact hkind.owner_kept ih.1 howner
      · exact .inr (hkind.hasEnded hended)
  | call h hcall hcheck ih =>
      obtain ⟨m, hm⟩ := h.sound hsound
      obtain ⟨t, rfl, -, howners⟩ := hm.callerStep_run hcall
      exact ⟨hcheck, ih.2.imp_left (howners f).trans⟩

/-- A page in a frame that a caller pins, while no thread waits with the frame, stays in it as long
as the pin is outstanding and its process has not ended. The pin can be taken off at any time. -/
theorem CallerRun.frame_kept {c : Config} {extent : σ} (hintact : Extent.Reliable.Intact extent)
    (hboot : boot c extent = .ok (.ok k₀)) (hrun : CallerRun (fun _ => True) k₀ 0 done callers k)
    {id : PageId} (howner : k.paging.frameTable.owner f = some id)
    (hwaits : ∀ n, ¬ k.WaitsWith n f) (hcall : k.performAll (caller.pin f) = some (trace, k₁))
    (hlater : CallerRun (f ∈ ·) k₁ (f ::ₘ callers) later callers' k₂) :
    (k₂.paging.frameTable.owner f = some id ∨ k₂.HasEnded id.pid) ∧
      ∀ caller' : Caller, caller'.Ready k₂ →
        ∃ trace' k₃, k₂.performAll (caller'.unpin f) = some (trace', k₃) := by
  obtain ⟨m, hm⟩ := hrun.sound ⟨_, boot_sound hintact hboot⟩
  obtain ⟨t, rfl, hm₁, howners⟩ := hm.pin_run hwaits hcall
  obtain ⟨hmem, hkept⟩ := hlater.owner_kept ⟨m, hm₁⟩ (Multiset.mem_cons_self f callers)
    ((howners f).trans howner)
  obtain ⟨m₂, hm₂⟩ := hlater.sound ⟨m, hm₁⟩
  exact ⟨hkept, fun caller' hready => hm₂.exists_unpin_run hmem hready⟩

/-! ## A machine with two frames -/

def pairConfig : Config :=
  { frames := 2, cacheSize := 1, pageSize := 1, swapSlots := 1, stackPages := 3 }

/-- A thread stores a byte, so that its page is in the first frame. -/
def storeEvents : List Event :=
  [.spawn smallImage, .start 0, .advance 0, .advance 0] ++ turn 0 (.write 1 5) 4

/-- The thread loads from two more pages. The second one pushes the first one out. -/
def passEvents : List Event := turn 0 (.read 0) 4 ++ turn 0 (.read 2) 4

/-- Whether the page in the first frame can be pinned, and the thread can go on then. -/
def pinsNext (k : Kernel MemoryExtent) : Bool :=
  decide (k.paging.frameTable.owner 0 = some ⟨1, 1⟩ ∧ 0 ∉ k.victims) &&
    match k.performAll (Caller.console.pin 0) with
    | some (_, k₁) => (k₁.performAll passEvents).any fun result =>
        (result.2.session 0).map Session.phase = some .ready
    | none => false

/-- The console pins the page that the thread has stored into, and the thread takes the pin off
after the other frame had to do for the next two pages. -/
theorem frame_kept_small : ∃ (k₀ k k₁ k₂ k₃ : Kernel MemoryExtent)
    (done trace later last : List (Event × Option (Response MemoryExtent))),
    boot pairConfig (⟨.zeros 1⟩ : MemoryExtent) = .ok (.ok k₀) ∧
      k₀.performAll storeEvents = some (done, k) ∧
      k.performAll (Caller.console.pin 0) = some (trace, k₁) ∧
      k₁.performAll passEvents = some (later, k₂) ∧
      (k₂.paging.frameTable.owner 0 = some ⟨1, 1⟩ ∨ k₂.HasEnded 1) ∧
      k₂.performAll ((Caller.thread 0).unpin 0) = some (last, k₃) := by
  have hnext : holdsAfter pairConfig storeEvents pinsNext = true := by decide +kernel
  obtain ⟨k₀, k, done, hboot, hall, hrun, hpins⟩ := run_of_holdsAfter (by decide) hnext
  rw [pinsNext, Bool.and_eq_true, decide_eq_true_iff] at hpins
  obtain ⟨⟨howner, hfree⟩, hpins⟩ := hpins
  split at hpins
  · rename_i trace k₁ hcall
    obtain ⟨⟨later, k₂⟩, hpass, hready⟩ := Option.any_eq_true _ _ |>.1 hpins
    have hphase := of_decide_eq_true hready
    have hlater : Run k₁ later k₂ := .of_performAll (by decide) hpass
    obtain ⟨hkept, hunpin⟩ := hrun.uncalled.frame_kept (MemoryExtent.intact_zeros (by decide))
      hboot howner (fun n hn => hfree (mem_victims_iff.2 ⟨n, hn⟩)) hcall hlater.uncalled
    obtain ⟨last, k₃, hlast⟩ := hunpin (.thread 0) hphase
    exact ⟨k₀, k, k₁, k₂, k₃, done, trace, later, last, hboot, hall, hcall, hpass, hkept, hlast⟩
  · cases hpins

/-! ### A pin on a victim -/

/-- A thread fills both frames and the slot, and sleeps with the second frame as its victim. -/
def fullEvents : List Event :=
  [.spawn smallImage, .start 0, .start 0, .advance 0, .advance 1, .advance 0] ++
    turn 0 (.write 1 5) 4 ++ turn 0 (.write 2 5) 4 ++ turn 0 (.read 0) 4 ++ turn 0 (.read 3) 8

/-- A second thread loads the page in the slot, for which it pushes a clean page out of the first
frame. So the first thread is woken, and gets its page. -/
def retryEvents : List Event :=
  List.replicate 2 (.advance 1) ++ turn 1 (.read 1) 8 ++ turn 1 .leave 3 ++
    List.replicate 8 (.advance 0)

/-- Whether the page in the second frame is the victim of the first thread, can be pinned, and is
pushed out all the same, with all pins. -/
def dropsNext (k : Kernel MemoryExtent) : Bool :=
  decide ((k.session 0).map (fun s => s.phase.victim?) = some (some 1) ∧
    k.paging.frameTable.owner 1 = some ⟨1, 2⟩) &&
    match k.performAll (Caller.console.pin 1) with
    | some (_, k₁) =>
        match k₁.performAll retryEvents with
        | some (_, k₂) =>
            decide ((k₂.process 0).map (fun p => (p.pid, p.exited)) = some (1, false) ∧
              k₂.paging.frameTable.owner 1 = some ⟨1, 3⟩) &&
            match k₂.perform (.unpin 1) with
            | some (.error (.notPinned 1)) => true
            | _ => false
        | none => false
    | none => false

/-- A frame that is pinned while a thread waits with it loses its page and the pin. -/
theorem pin_dropped : ∃ (k₀ k k₁ k₂ : Kernel MemoryExtent)
    (done trace later : List (Event × Option (Response MemoryExtent))),
    boot pairConfig (⟨.zeros 1⟩ : MemoryExtent) = .ok (.ok k₀) ∧
      k₀.performAll fullEvents = some (done, k) ∧ k.WaitsWith 0 1 ∧
      k.paging.frameTable.owner 1 = some ⟨1, 2⟩ ∧
      k.performAll (Caller.console.pin 1) = some (trace, k₁) ∧
      k₁.performAll retryEvents = some (later, k₂) ∧
      (k₂.process 0).map (fun p => (p.pid, p.exited)) = some (1, false) ∧
      k₂.paging.frameTable.owner 1 = some ⟨1, 3⟩ ∧
      k₂.perform (.unpin 1) = some (.error (.notPinned 1)) := by
  have hnext : holdsAfter pairConfig fullEvents dropsNext = true := by decide +kernel
  obtain ⟨k₀, k, done, hboot, hall, -, hdrops⟩ := run_of_holdsAfter (by decide) hnext
  rw [dropsNext, Bool.and_eq_true, decide_eq_true_iff] at hdrops
  obtain ⟨⟨hvictim, howner⟩, hdrops⟩ := hdrops
  obtain ⟨s, hs, hvictim⟩ := Option.map_eq_some_iff.1 hvictim
  split at hdrops
  · rename_i trace k₁ hcall
    split at hdrops
    · rename_i later k₂ hretry
      rw [Bool.and_eq_true, decide_eq_true_iff] at hdrops
      obtain ⟨⟨hlive, howner'⟩, hdrops⟩ := hdrops
      split at hdrops
      · rename_i hunpin
        exact ⟨k₀, k, k₁, k₂, done, trace, later, hboot, hall, ⟨s, hs, hvictim⟩, howner, hcall,
          hretry, hlive, howner', hunpin⟩
      · cases hdrops
    · cases hdrops
  · cases hdrops

end Kernel

end DemandPaging
