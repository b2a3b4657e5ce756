import DemandPaging.Proofs.Kernel.Simulation
import DemandPaging.Proofs.Kernel.Turns

/-!
# Nothing stops the machine but the lack of a victim

A halt is a broken assumption, and the invariants keep almost all of them: a thread gives back only
locks that it holds, queues only once, enters a region that nobody is inside of, and uses frames and
tables as they are meant to be used. An error of the memory manager ends the process that met it, or
stops the machine. On a reliable extent there is one error left that can stop it, the lack of a
victim, and this one only comes up while every frame is kept by a thread that waits for a swap slot
or pinned by a caller (`Sound.halt_run`). Besides, callers can pin a frame as often as pins can be
counted, and process numbers run out in the end.
-/

namespace DemandPaging

/-- A result that is no halt. -/
def Survives {α : Type} (x : Except Halt α) : Prop := ∃ a, x = .ok a

namespace Survives

variable {α β : Type} {x : Except Halt α}

theorem ok (a : α) : Survives (.ok a) := ⟨a, rfl⟩

theorem bind {f : α → Except Halt β} (hx : Survives x) (hf : ∀ a, x = .ok a → Survives (f a)) :
    Survives (x >>= f) := by
  obtain ⟨a, rfl⟩ := hx
  exact hf a rfl

theorem map {f : α → β} (hx : Survives x) : Survives (x.map f) := by
  obtain ⟨a, rfl⟩ := hx
  exact .ok (f a)

end Survives

/-! ## Locks -/

/-- A thread that does not stand in the queue can queue. -/
theorem TicketQueue.push_survives {q : TicketQueue} {t : ThreadId}
    (h : ∀ w ∈ q.waiters, w.thread ≠ t) : Survives (q.push t) := by
  have hcontains : q.contains t = false := by
    rw [contains, List.any_eq_false]
    exact fun w hw => by simp [h w hw]
  rw [push, hcontains]
  exact .ok _

namespace SleepLock.Serves

variable {l : SleepLock} {use : ThreadId → LockUse} {t : ThreadId}

theorem isHeldBy_eq (h : l.Serves use) (hu : use t = .holding) : l.isHeldBy t = true :=
  decide_eq_true (h.holder_eq t hu)

/-- No thread asks for the lock while it holds it, and who is woken holds it. -/
theorem acquire_survives (h : l.Serves use) {phase : Acquiring} (hu : use t = .of (some phase))
    {x : Except Halt (Option Acquiring × SleepLock)} (hrun : l.acquire t phase = some x) :
    Survives x := by
  cases phase with
  | asking =>
      obtain rfl := Option.some.inj hrun
      have hheld : l.isHeldBy t = false := decide_eq_false fun hholder => h.used t hholder hu
      rw [ask, hheld, if_neg Bool.false_ne_true]
      split
      · exact .ok _
      · refine .bind (TicketQueue.push_survives (h.not_waiter ?_)) fun _ _ => .ok _
        rw [hu]
        intro ticket hticket
        cases hticket
  | queued ticket =>
      rw [SleepLock.acquire] at hrun
      split at hrun
      · rename_i hwoken
        obtain rfl := Option.some.inj hrun
        rw [resume_of_held (h.holder_of_woken hu hwoken)]
        exact .ok _
      · cases hrun

/-- Only the holder gives the lock back. -/
theorem release_survives (h : l.Serves use) (hu : use t = .holding) : Survives (l.release t) := by
  rw [SleepLock.release, if_pos (h.isHeldBy_eq hu)]
  exact .ok _

theorem whileHolding_survives {α : Type} (h : l.Serves use) (hu : use t = .holding)
    {act : Except Halt α} (hact : Survives act) : Survives (Condition.whileHolding l t act) := by
  rw [Condition.whileHolding, if_pos (h.isHeldBy_eq hu)]
  exact hact

/-- A thread sleeps with the lock of its condition, and without a ticket. -/
theorem sleep_survives {c : Condition} {held : ThreadId → Option Ticket} (h : l.Serves use)
    (hqueue : c.queue.Serves held) {phase : Sleeping}
    (hu : use t = (Waiting.sleeping phase).swapUse)
    (hheld : held t = (Waiting.sleeping phase).ticket?)
    {x : Except Halt (Option Sleeping × Condition × SleepLock)}
    (hrun : c.sleep l t phase = some x) : Survives x := by
  cases phase with
  | entering =>
      obtain rfl := Option.some.inj hrun
      exact h.whileHolding_survives hu
        (.bind (TicketQueue.push_survives (hqueue.not_waiter hheld)) fun _ _ => .ok _)
  | leaving ticket =>
      obtain rfl := Option.some.inj hrun
      exact .bind (h.release_survives hu) fun _ _ => .ok _
  | asleep ticket =>
      rw [Condition.sleep] at hrun
      split at hrun
      · obtain rfl := Option.some.inj hrun
        exact .ok _
      · cases hrun
  | returning phase =>
      obtain ⟨y, hy, rfl⟩ := Option.map_eq_some_iff.1 hrun
      exact .map (h.acquire_survives hu hy)

end SleepLock.Serves

/-- A process without a page table can get one that is not too large. -/
theorem PageTables.add_survives {t : PageTables} {pid : Pid} (hfresh : t[pid]? = none)
    {numPages : Nat} (hlarge : numPages ≤ Address.maxPageNumber + 1) :
    Survives (t.add pid numPages) := by
  have hnot : t.contains pid = false := by
    rw [← Std.TreeMap.isSome_getElem?_eq_contains, hfresh]
    rfl
  rw [add, refuseBlock_eq_ok hlarge, hnot]
  exact .ok _

namespace Kernel

variable {σ α : Type} {k : Kernel σ} {n : Nat} {s : Session} {use : ThreadId → LockUse}
  {t : ThreadId}

theorem takeCpu_survives (h : k.cpu.Serves use) {phase : Acquiring}
    (hu : use t = .of (some phase)) {during : Acquiring → α} {whenTaken : α}
    {x : Except Halt (α × Kernel σ)} (hrun : k.takeCpu t phase during whenTaken = some x) :
    Survives x := by
  obtain ⟨y, hy, rfl⟩ := Option.map_eq_some_iff.1 hrun
  exact .map (h.acquire_survives hu hy)

theorem takeSwapLock_survives (h : k.swapLock.Serves use) {phase : Acquiring}
    (hu : use t = .of (some phase)) {during : Acquiring → α} {whenTaken : α}
    {x : Except Halt (α × Kernel σ)} (hrun : k.takeSwapLock t phase during whenTaken = some x) :
    Survives x := by
  obtain ⟨y, hy, rfl⟩ := Option.map_eq_some_iff.1 hrun
  exact .map (h.acquire_survives hu hy)

theorem leaveCpu_survives (h : k.cpu.Serves use) (hu : use t = .holding) :
    Survives (k.leaveCpu t) := .map (h.release_survives hu)

theorem leaveSwapLock_survives (h : k.swapLock.Serves use) (hu : use t = .holding) :
    Survives (k.leaveSwapLock t) := .map (h.release_survives hu)

namespace SlotWaits

/-- A thread that waits for a slot uses the locks as it should. -/
theorem waitStep_survives (h : k.SlotWaits) (hcpu : k.cpu.Serves k.cpuUse)
    (hs : k.sessions[n]? = some s) {victim : Nat} {phase : Waiting}
    (hold : s.phase.slotPart = .waiting victim phase) {x : Except Halt (Option Waiting × Kernel σ)}
    (hrun : k.waitStep (threadOf n) phase = some x) : Survives x := by
  have huse := (cpuUse_eq hs).trans (Phase.cpuUse_of_waiting hold)
  have hswap := swapUse_eq hs hold
  cases phase with
  | counting | uncounting | flushing =>
      obtain rfl := Option.some.inj hrun
      exact .ok _
  | locking phase => exact takeSwapLock_survives h.swap hswap hrun
  | leaving =>
      obtain rfl := Option.some.inj hrun
      exact .map (leaveCpu_survives hcpu huse)
  | sleeping phase =>
      obtain ⟨y, hy, rfl⟩ := Option.map_eq_some_iff.1 hrun
      exact .map (h.swap.sleep_survives h.queue hswap (tickets_eq hs hold) hy)
  | unlocking =>
      obtain rfl := Option.some.inj hrun
      exact .map (leaveSwapLock_survives h.swap hswap)
  | returning phase => exact takeCpu_survives hcpu huse hrun

/-- A thread that wakes others uses the swap lock as it should. -/
theorem notifyStep_survives (h : k.SlotWaits) (hs : k.sessions[n]? = some s) {left : Option Nat}
    {phase : Notifying} (hold : s.phase.slotPart = .waking left phase) {everyone : Bool}
    {x : Except Halt (Option Notifying × Kernel σ)}
    (hrun : k.notifyStep (threadOf n) everyone phase = some x) : Survives x := by
  have hswap := swapUse_eq hs hold
  cases phase with
  | checking =>
      obtain rfl := Option.some.inj hrun
      exact .ok _
  | locking phase => exact takeSwapLock_survives h.swap hswap hrun
  | waking =>
      obtain rfl := Option.some.inj hrun
      refine .map ?_
      rw [wakeSleepers]
      split <;> exact .map (h.swap.whileHolding_survives hswap (.ok _))
  | unlocking =>
      obtain rfl := Option.some.inj hrun
      exact .map (leaveSwapLock_survives h.swap hswap)

end SlotWaits

/-! ## Locked tables -/

theorem locked_survives (hfree : k.region = {}) {act : PagingM σ α}
    {x : Except Halt (Except PagingError α × Kernel σ)} (h : k.locked t act = some x)
    (hact : Survives (act k.paging)) : Survives x := by
  rw [locked_eq hfree] at h
  obtain rfl := Option.some.inj h
  exact .map hact

/-- An action that succeeds is followed by what comes next. -/
theorem lockedOrHalt_survives (hfree : k.region = {}) {act : PagingM σ Unit}
    {next : Kernel σ → Except Halt (After σ)} {x : Except Halt (After σ)}
    (h : k.lockedOrHalt t act next = some x) {s : Paging σ}
    (hact : act k.paging = .ok (.ok (), s)) (hnext : Survives (next { k with paging := s })) :
    Survives x := by
  rw [lockedOrHalt, locked_eq hfree, hact] at h
  obtain rfl := Option.some.inj h
  exact hnext

theorem afterEnd_survives (k : Kernel σ) (call : Call) (cause : Option PagingError) :
    Survives (k.afterEnd call cause) := by
  cases cause <;> exact .ok _

theorem afterMiss_survives (k : Kernel σ) (call : Call) : Survives (k.afterMiss call) := by
  rw [afterMiss]
  split <;> exact .ok _

/-- An error that ends the process is no halt. -/
theorem fail_survives (k : Kernel σ) (call : Call) {cause : PagingError}
    (h : cause.reach = .endsProcess) : Survives (k.fail call cause) := by
  rw [fail, if_pos h]
  exact .ok _

variable [Extent σ] [Extent.Reliable σ] {m : FlatMachine} {callers : Multiset Nat}

/-- A process can be added as long as there are numbers left. -/
theorem Sound.spawn_survives (h : k.Sound m callers) (image : Image) :
    Survives (k.spawn image).1 ∨
      (k.spawn image).1 = .error .pidsExhausted ∧ k.processes.length + 1 = 2 ^ 16 := by
  rw [spawn]
  split
  · exact .inl (.ok _)
  · rename_i hfault
    by_cases hnext : k.pids.next = 0
    · refine .inr ⟨by simp only [PidCounter.allocate, if_pos hnext], ?_⟩
      -- the numbers have come round to zero
      have hzero := congrArg UInt16.toNat (h.next_eq.symm.trans hnext)
      rw [UInt16.toNat_ofNat'] at hzero
      have hlt := h.length_lt
      have hzero : (k.processes.length + 1) % 2 ^ 16 = 0 := hzero
      omega
    · obtain ⟨-, hfresh⟩ := h.next_fresh hnext
      obtain ⟨-, hlarge⟩ := imageFault_eq_none hfault
      obtain ⟨running, -, hpaging⟩ := h.paging
      obtain ⟨tables, hadd⟩ :=
        PageTables.add_survives (hpaging.inverse.table_eq_none hfresh) hlarge
      simp only [PidCounter.allocate, if_neg hnext, hadd]
      exact .inl (.ok _)

/-! ## Steps of threads -/

/-- What can stop the machine at a step of a thread, while these pins are on the frames: there is no
victim, for every frame is pinned; or the frame that the thread copies from or to is pinned as often
as can be counted. -/
inductive Stops (k : Kernel σ) (pins : Multiset Nat) : Halt → Prop where
  | noVictim (hkept : ∀ f < k.paging.frameTable.size, f ∈ pins) : Stops k pins (.fatal .noVictim)
  | tooManyPins {f : Nat} (hfull : FrameTable.maxPins ≤ pins.count f) :
      Stops k pins (.tooManyPins f)

/-- The errors with which a fault can end a process. -/
inductive EndsFault (p : UserProcess) : PagingError → Prop where
  | outside (address : Nat) : EndsFault p (.segmentationFault address)
  | gone : EndsFault p (.noSuchProcess p.pid)

theorem EndsFault.reach_eq {p : UserProcess} {cause : PagingError} (h : EndsFault p cause) :
    cause.reach = .endsProcess := by
  cases h <;> rfl

namespace Calling

variable {place : Nat} {p : UserProcess} {request : Request} {moved : List UInt8}
  {x : Except Halt (After σ)}

/-- The end of a process is no halt. -/
theorem end_survives {call : Call} (h : k.Calling m n place p call callers)
    (huses : call.stage.usesCache = true) (hvictims : call.stage.victims = 0)
    (hcopied : call.stage.copied = 0) {cause : Option PagingError}
    (hrun : k.endProcess t place p call cause = some x) : Survives x := by
  rw [endProcess] at hrun
  split at hrun
  · obtain rfl := Option.some.inj hrun
    exact k.afterEnd_survives call cause
  · rename_i halive
    have hlive : k.live p.pid = some p := by rw [h.live_eq, if_neg halive]
    obtain ⟨s', hreclaim, -⟩ := (h.paging_bare huses hvictims hcopied).reclaim_run hlive
    exact lockedOrHalt_survives h.sound.region_eq hrun hreclaim (.ok _)

theorem begin_survives (h : k.Calling m n place p ⟨request, .begun, moved⟩ callers)
    (hrun : k.beginCall t place p ⟨request, .begun, moved⟩ = some x) : Survives x := by
  have hordinary : request.isOrdinary = true := h.fits.ordinary
  cases request with
  | read a | write a v | copyOut a count | copyIn a data =>
      obtain rfl := Option.some.inj hrun
      split <;> exact .ok _
  | yield =>
      obtain ⟨s', hsave, -⟩ := (h.paging rfl).saveCache_run
      exact lockedOrHalt_survives h.sound.region_eq hrun hsave (.ok _)
  | exit => exact h.end_survives rfl rfl rfl hrun
  | leave =>
      obtain rfl := Option.some.inj hrun
      exact .ok _
  | _ => cases hordinary

theorem access_survives (h : k.Calling m n place p ⟨request, .accessing, moved⟩ callers) :
    Survives (k.access ⟨request, .accessing, moved⟩) := by
  have hpaging := h.paging_bare rfl rfl rfl
  cases request with
  | read a =>
      obtain ⟨r, proc, hload, -, -, hcase⟩ := hpaging.loadByte_run a
      refine .bind (hload ▸ .ok _) fun y hy => ?_
      obtain rfl := Except.ok.inj (hload.symm.trans hy)
      rcases hcase with ⟨rfl, -⟩ | ⟨byte, u, rfl, -⟩ <;> exact .ok _
  | write a v =>
      obtain ⟨r, proc, hstore, -, hcase⟩ := hpaging.storeByte_run a v
      refine .bind (hstore ▸ .ok _) fun y hy => ?_
      obtain rfl := Except.ok.inj (hstore.symm.trans hy)
      rcases hcase with ⟨rfl, -⟩ | ⟨u, -, -, ⟨rfl, -⟩ | ⟨rfl, -⟩⟩
      · exact .ok _
      · exact fail_survives _ _ rfl
      · exact .ok _
  | _ => exact .ok _

/-- The frame of a page that is copied can be pinned, unless callers have it pinned as often as can
be counted. -/
theorem pin_survives (h : k.Calling m n place p ⟨request, .pinning, moved⟩ callers)
    (hrun : k.pinNext t p ⟨request, .pinning, moved⟩ = some x) :
    Survives x ∨ ∃ halt, x = .error halt ∧ k.Stops (k.othersVictims n + callers) halt := by
  rw [pinNext] at hrun
  split at hrun
  · obtain rfl := Option.some.inj hrun
    exact .inl (.ok _)
  · rename_i hmore
    rw [not_or, Nat.not_le, Nat.not_le] at hmore
    obtain ⟨y, hlocked, rfl⟩ := Option.map_eq_some_iff.1 hrun
    rcases (h.paging_bare rfl rfl rfl).pinForCopy_run h.live_or hmore.2 request.isWriting with
      ⟨r, s', hpin, -⟩ | ⟨f, hpin, hfull⟩
    · refine .inl (.bind (locked_survives h.sound.region_eq hlocked (hpin ▸ .ok _)) fun r _ => ?_)
      obtain ⟨cause | r, k'⟩ := r
      · exact .ok _
      · cases r <;> exact .ok _
    · rw [locked_eq h.sound.region_eq, hpin] at hlocked
      obtain rfl := Option.some.inj hlocked
      exact .inr ⟨_, rfl, .tooManyPins hfull⟩

theorem move_survives {frame : Nat}
    (h : k.Calling m n place p ⟨request, .moving frame, moved⟩ callers) :
    Survives (k.moveBytes ⟨request, .moving frame, moved⟩ frame) := by
  obtain ⟨-, -, -, -, hframe, hbytes⟩ := h.moving_page rfl rfl
  refine .bind (hbytes ▸ .ok _) fun bytes _ => ?_
  split
  · exact .bind ((h.paging rfl).setFrame_eq hframe _ ▸ .ok _) fun _ _ => .ok _
  · exact .ok _

/-- What a fault comes to while the tables are locked. It is an error only when the page is none of
the process, when the process is gone, or when there is no victim, for all frames are those of
threads that wait or pinned by callers. -/
theorem locked_fault {phase : Faulting}
    (h : k.Calling m n place p ⟨request, .faulting phase, moved⟩ callers)
    (hphase : (∃ a, phase = .missing a) ∨ ∃ page victim, phase = .resuming page victim) :
    ∃ r k', k.faultStep t p phase = some (.ok (r, k')) ∧ ∀ cause, r = .error cause →
      EndsFault p cause ∨
        cause = .noVictim ∧ ∀ f < k.paging.frameTable.size, f ∈ k.othersVictims n + callers := by
  have hmap : ∀ {r : Except PagingError Paging.MissResult} {page : Nat} {cause : PagingError},
      r.map (Faulting.after page) = .error cause → r = .error cause := by
    intro r page cause hr
    cases r with
    | error _ => exact congrArg _ (Except.error.inj hr)
    | ok _ => cases hr
  rcases hphase with ⟨a, rfl⟩ | ⟨page, victim, rfl⟩
  · obtain ⟨r, s', hmiss, hcase⟩ :=
      (h.paging_bare rfl rfl rfl).handleMiss_run h.live_or a (h.holds rfl)
    refine ⟨_, { k with paging := s' },
      by rw [faultStep, locked_eq h.sound.region_eq, hmiss]; rfl, fun cause hr => ?_⟩
    obtain rfl := hmap hr
    rcases hcase with ⟨heq, hkept⟩ | ⟨-, -, ⟨hhandled, -⟩ | ⟨heq, -⟩⟩
    · obtain rfl := Except.error.inj heq
      exact .inr ⟨rfl, hkept⟩
    · obtain ⟨rfl, -⟩ := hhandled
      exact .inl .gone
    · obtain rfl := Except.error.inj heq
      exact .inl (.outside a)
  · obtain ⟨r, s', hresume, hhandled, -⟩ :=
      (h.paging_apart rfl rfl).resumeFault_run (h.victim_notMem rfl) h.live_or h.fits.stage.2
    refine ⟨_, { k with paging := s' },
      by rw [faultStep, locked_eq h.sound.region_eq, hresume]; rfl, fun cause hr => ?_⟩
    obtain rfl := hmap hr
    obtain ⟨rfl, -⟩ := hhandled
    exact .inl .gone

/-- A step of a fault does not halt, and what error it may end with. -/
theorem fault_survives {phase : Faulting}
    (h : k.Calling m n place p ⟨request, .faulting phase, moved⟩ callers) (hwaits : k.SlotWaits)
    {y : Except Halt (Except PagingError (Option Faulting) × Kernel σ)}
    (hrun : k.faultStep (threadOf n) p phase = some y) :
    ∃ r k', y = .ok (r, k') ∧ ∀ cause, r = .error cause → EndsFault p cause ∨
      cause = .noVictim ∧ ∀ f < k.paging.frameTable.size, f ∈ k.othersVictims n + callers := by
  have hlocked : ((∃ a, phase = .missing a) ∨ ∃ page victim, phase = .resuming page victim) →
      ∃ r k', y = .ok (r, k') ∧ ∀ cause, r = .error cause → EndsFault p cause ∨
        cause = .noVictim ∧ ∀ f < k.paging.frameTable.size, f ∈ k.othersVictims n + callers := by
    intro hphase
    obtain ⟨r, k', heq, hr⟩ := h.locked_fault hphase
    exact ⟨r, k', Option.some.inj (hrun.symm.trans heq), hr⟩
  cases phase with
  | missing a => exact hlocked (.inl ⟨a, rfl⟩)
  | resuming page victim => exact hlocked (.inr ⟨page, victim, rfl⟩)
  | waiting page victim phase =>
      obtain ⟨z, hwait, rfl⟩ := Option.map_eq_some_iff.1 hrun
      obtain ⟨⟨next, k'⟩, rfl⟩ := hwaits.waitStep_survives h.sound.cpu h.session rfl hwait
      exact ⟨_, k', rfl, nofun⟩
  | notifying left phase =>
      obtain ⟨z, hnotify, rfl⟩ := Option.map_eq_some_iff.1 hrun
      obtain ⟨⟨next, k'⟩, rfl⟩ := hwaits.notifyStep_survives h.session rfl hnotify
      exact ⟨_, k', rfl, nofun⟩

/-- What can stop the machine in the middle of a request. -/
theorem step_halts {call : Call} (h : k.Calling m n place p call callers) (hwaits : k.SlotWaits)
    (hrun : k.callStep (threadOf n) place p call = some x) :
    Survives x ∨ ∃ halt, x = .error halt ∧ k.Stops (k.othersVictims n + callers) halt := by
  have hfree := h.sound.region_eq
  have hcpu := cpuUse_eq h.session
  obtain ⟨request, stage, moved⟩ := call
  cases stage with
  | begun => exact .inl (h.begin_survives hrun)
  | accessing =>
      obtain rfl := Option.some.inj hrun
      exact .inl h.access_survives
  | faulting phase =>
      obtain ⟨y, hfault, rfl⟩ := Option.map_eq_some_iff.1 hrun
      obtain ⟨r, k', rfl, hr⟩ := h.fault_survives hwaits hfault
      cases r with
      | error cause =>
          rcases hr cause rfl with hends | ⟨rfl, hkept⟩
          · exact .inl (fail_survives _ _ hends.reach_eq)
          · exact .inr ⟨_, rfl, .noVictim hkept⟩
      | ok next =>
          cases next with
          | none => exact .inl (afterMiss_survives _ _)
          | some phase' => exact .inl (.ok _)
  | pinning => exact h.pin_survives hrun
  | moving frame =>
      obtain rfl := Option.some.inj hrun
      exact .inl h.move_survives
  | unpinning frame =>
      obtain ⟨s', hunpin, -⟩ := (show k.paging.Sound k.live (some p.pid)
        (frame ::ₘ (k.othersVictims n + callers)) m.page from h.paging rfl).unpin_run
      exact .inl (lockedOrHalt_survives hfree hrun hunpin (.ok _))
  | killing cause => exact .inl (h.end_survives rfl rfl rfl hrun)
  | mourning cause phase =>
      obtain ⟨y, hnotify, rfl⟩ := Option.map_eq_some_iff.1 hrun
      refine .inl (.bind (hwaits.notifyStep_survives h.session rfl hnotify) fun r _ => ?_)
      obtain ⟨next | phase', k'⟩ := r
      · exact afterEnd_survives _ _ cause
      · exact .ok _
  | yielding =>
      obtain rfl := Option.some.inj hrun
      exact .inl (.bind (leaveCpu_survives h.sound.cpu hcpu) fun _ _ => .ok _)
  | returning phase =>
      obtain ⟨y, htake, rfl⟩ := Option.map_eq_some_iff.1 hrun
      exact .inl (.bind (takeCpu_survives h.sound.cpu hcpu htake) fun _ _ => .ok _)
  | flushing =>
      obtain rfl := Option.some.inj hrun
      exact .inl (.ok _)
  | parting =>
      change (if p.exited then some (k.proceed _ (.leaving none)) else _) = _ at hrun
      split at hrun
      · obtain rfl := Option.some.inj hrun
        exact .inl (.ok _)
      · obtain ⟨y, hlocked, rfl⟩ := Option.map_eq_some_iff.1 hrun
        obtain ⟨s', hsave, -⟩ := (h.paging_bare rfl rfl rfl).saveCache_run
        refine .inl (.bind (locked_survives hfree hlocked (hsave ▸ .ok _)) fun r _ => ?_)
        obtain ⟨cause | -, k'⟩ := r <;> exact .ok _
  | leaving failure =>
      obtain rfl := Option.some.inj hrun
      obtain ⟨rfl, -⟩ := h.fits.stage
      exact .inl (.bind (leaveCpu_survives h.sound.cpu hcpu) fun _ _ => .ok _)

end Calling

/-- If the machine is stopped, it is by a thread, for the victims of the others and the pins of
callers; or there was no number left for a process. -/
theorem Sound.halt_run (h : k.Sound m callers) (hwaits : k.SlotWaits) {e : Event}
    (he : e.isOrdinary = true) {halt : Halt} (hrun : k.perform e = some (.error halt)) :
    (∃ n, e = .advance n ∧ k.Stops (k.othersVictims n + callers) halt) ∨
      halt = .pidsExhausted ∧ (∃ image, e = .spawn image) ∧ k.processes.length + 1 = 2 ^ 16 := by
  cases e with
  | spawn image =>
      rw [perform] at hrun
      split at hrun
      · cases hrun
      · cases hrun
      · rename_i halt' k' hspawn
        obtain rfl := Except.error.inj (Option.some.inj hrun)
        have hspawn := congrArg Prod.fst hspawn
        rcases h.spawn_survives image with ⟨r, hok⟩ | ⟨hexhausted, hlength⟩
        · cases hspawn.symm.trans hok
        · obtain rfl := Except.error.inj (hspawn.symm.trans hexhausted)
          exact .inr ⟨rfl, ⟨image, rfl⟩, hlength⟩
  | start i =>
      rw [perform] at hrun
      split at hrun
      · cases hrun
      · cases hrun
  | ask n request =>
      rw [perform] at hrun
      split at hrun
      · cases hrun
      · cases hrun
  | advance n =>
      obtain ⟨s, hs, hrun⟩ := Option.bind_eq_some_iff.1 hrun
      obtain ⟨p, hp, hrun⟩ := Option.bind_eq_some_iff.1 hrun
      obtain ⟨place, phase⟩ := s
      cases phase with
      | starting phase =>
          obtain ⟨y, htake, hrun⟩ := Option.map_eq_some_iff.1 hrun
          obtain ⟨r, rfl⟩ := takeCpu_survives h.cpu (cpuUse_eq hs) htake
          cases hrun
      | busy call =>
          obtain ⟨y, hcall, hrun⟩ := Option.map_eq_some_iff.1 hrun
          rcases (h.calling hs hp).step_halts hwaits hcall with ⟨r, rfl⟩ | ⟨halt', rfl, hstops⟩
          · cases hrun
          · obtain rfl := Except.error.inj hrun
            exact .inl ⟨n, rfl, hstops⟩
      | entering | ready | ended => cases hrun
  | pin frame => cases he
  | unpin frame => cases he

/-- The only error that stops the machine is the lack of a victim. -/
theorem Sound.fatal_run (h : k.Sound m callers) (hwaits : k.SlotWaits) {e : Event}
    (he : e.isOrdinary = true) {cause : PagingError}
    (hrun : k.perform e = some (.error (.fatal cause))) :
    cause = .noVictim ∧ ∃ n, e = .advance n ∧
      ∀ f < k.paging.frameTable.size, f ∈ k.othersVictims n + callers := by
  rcases h.halt_run hwaits he hrun with ⟨n, he, hstops⟩ | ⟨heq, -⟩
  · cases hstops with
    | noVictim hkept => exact ⟨rfl, n, he, hkept⟩
  · cases heq

end Kernel

end DemandPaging
