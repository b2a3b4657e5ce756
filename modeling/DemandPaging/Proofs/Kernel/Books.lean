import DemandPaging.Proofs.Kernel.StepKinds
import DemandPaging.Proofs.Paging.Books

/-!
# What a step enters in the books

A step of a thread either leaves the counters and the swap area alone (`Kernel.SameBooks`), or it
runs an action on the tables, which counts what it does. What a thread owes is the eviction of the
victim that it waits with, so what all threads owe changes as the action says (`Kernel.Settles`).
Only the end of a process frees slots that no counter counts.

Nothing is asked of the requests or of the extent: all this holds of any event (`Kernel.Booked`).
-/

namespace DemandPaging

variable {σ : Type}

/-- The evictions that a thread owes: that of the victim that it waits with. -/
def Phase.owing (phase : Phase) : Nat := phase.victim?.toList.length

theorem Phase.owing_eq_zero {phase : Phase} (h : phase.slotPart.victim? = none) :
    phase.owing = 0 := by
  rw [owing, ← Phase.victim?_slotPart, h]
  rfl

theorem Phase.owing_of_apart {phase : Phase} (h : phase.slotPart = .apart) : phase.owing = 0 :=
  owing_eq_zero (by rw [h]; rfl)

/-- What a thread owes after a part of a miss is what the part says. -/
theorem Phase.owing_after {phase : Phase} {r : Except PagingError Paging.MissResult}
    (h : phase.slotPart = .after r) :
    phase.owing = Paging.owingAfter Paging.MissResult.owing r := by
  rw [owing, ← Phase.victim?_slotPart, h]
  cases r with
  | error cause => rfl
  | ok result =>
      cases result with
      | loaded wakeUps => cases wakeUps <;> rfl
      | needsSlot victim => rfl

namespace Kernel

/-- The evictions that all threads owe. -/
def owing (k : Kernel σ) : Nat := (k.sessions.map fun s => s.phase.owing).sum

variable {k k' : Kernel σ} {n place : Nat} {s : Session} {p : UserProcess} {call : Call}
  {request : Request} {moved : List UInt8} {result : After σ} {thread : ThreadId}

/-- When one thread goes on, what the others owe is owed as before. -/
theorem exists_owing_setPhase (hs : k.sessions[n]? = some s) :
    ∃ others, k.owing = s.phase.owing + others ∧
      ∀ (k' : Kernel σ) (phase : Phase), k'.sessions = k.sessions →
        (k'.setPhase n phase).owing = phase.owing + others := by
  refine ⟨((k.sessions.eraseIdx n).map fun t : Session => t.phase.owing).sum,
    sum_map_eq (fun t : Session => t.phase.owing) hs, ?_⟩
  intro k' phase hsessions
  rw [owing, sum_map_eq _ (getElem?_setPhase_self (by rw [hsessions]; exact hs) phase), setPhase,
    eraseIdx_modify, hsessions]

/-! ## Steps that are not entered -/

/-- A step that no process ends by, and that leaves the counters and the swap area alone. -/
structure SameBooks (k k' : Kernel σ) : Prop extends SameThreads k k' where
  counters_eq : k'.paging.counters = k.paging.counters
  swap_eq : k'.paging.swap = k.paging.swap

namespace SameBooks

theorem refl (k : Kernel σ) : k.SameBooks k := ⟨.refl k, rfl, rfl⟩

theorem withProcessor (k : Kernel σ) (processor : Processor) :
    k.SameBooks (k.withProcessor processor) := ⟨.withProcessor k processor, rfl, rfl⟩

theorem flush (k : Kernel σ) : k.SameBooks k.flush := .withProcessor k _

/-- Taking and giving back locks, and counting who waits. -/
theorem relocked (k : Kernel σ) (cpu swapLock : SleepLock) (slotFreed : Condition)
    (waiting : Nat) : k.SameBooks { k with cpu, swapLock, slotFreed, waiting } :=
  ⟨⟨rfl, rfl, rfl, rfl, rfl⟩, rfl, rfl⟩

/-- The tables are locked for a quiet action. -/
theorem of_locked {α : Type} {act : PagingM σ α} (hact : Paging.Quiet act)
    (hfree : k.region = {}) {r : Except PagingError α}
    (h : k.locked thread act = some (.ok (r, k'))) : k.SameBooks k' := by
  obtain ⟨paging, hrun, rfl⟩ := locked_ok hfree h
  obtain ⟨hcounters, hswap⟩ := hact _ _ _ hrun
  exact ⟨.withPaging k paging, hcounters, hswap⟩

theorem of_notifyStep {everyone : Bool} {phase : Notifying} {next : Option Notifying}
    (h : k.notifyStep thread everyone phase = some (.ok (next, k'))) : k.SameBooks k' := by
  obtain ⟨hsame, hpaging, -⟩ := notifyStep_ok h
  exact ⟨hsame, by rw [hpaging], by rw [hpaging]⟩

theorem of_leaveCpu (h : k.leaveCpu thread = .ok k') : k.SameBooks k' := by
  obtain ⟨cpu, -, rfl⟩ := leaveCpu_ok h
  exact .relocked k ..

theorem of_takeCpu {α : Type} {phase : Acquiring} {during : Acquiring → α} {whenTaken x : α}
    (h : k.takeCpu thread phase during whenTaken = some (.ok (x, k'))) : k.SameBooks k' := by
  obtain ⟨next, cpu, -, -, rfl⟩ := takeCpu_ok h
  exact .relocked k ..

theorem of_waitStep {phase : Waiting} {next : Option Waiting}
    (h : k.waitStep thread phase = some (.ok (next, k'))) : k.SameBooks k' := by
  cases phase with
  | counting | uncounting =>
      obtain ⟨-, rfl⟩ := Prod.mk.inj (Except.ok.inj (Option.some.inj h))
      exact .relocked k ..
  | locking phase =>
      obtain ⟨_, swapLock, -, -, rfl⟩ := takeSwapLock_ok h
      exact .relocked k ..
  | leaving =>
      obtain ⟨k₁, hleave, h⟩ := ok_of_map (Option.some.inj h)
      obtain ⟨-, rfl⟩ := Prod.mk.inj h
      exact .of_leaveCpu hleave
  | sleeping phase =>
      obtain ⟨⟨next, slotFreed, swapLock⟩, -, h⟩ := step_of_map h fun halt => ⟨halt, rfl⟩
      obtain ⟨-, rfl⟩ := Prod.mk.inj (Except.ok.inj h)
      exact .relocked k ..
  | unlocking =>
      obtain ⟨k₁, hleave, h⟩ := ok_of_map (Option.some.inj h)
      obtain ⟨-, rfl⟩ := Prod.mk.inj h
      obtain ⟨swapLock, -, rfl⟩ := leaveSwapLock_ok hleave
      exact .relocked k ..
  | returning phase => exact .of_takeCpu h
  | flushing =>
      obtain ⟨-, rfl⟩ := Prod.mk.inj (Except.ok.inj (Option.some.inj h))
      exact .flush k

end SameBooks

/-! ## Steps inside a request -/

/-- What a step inside a request is in the books: the thread settles what it owed, up to what it
owes now, or it ends its process, and the slots of the process are released. -/
inductive Settles (k : Kernel σ) (place : Nat) (p : UserProcess) (call : Call) :
    After σ → Prop where
  | goes {result : After σ} (hsame : k.SameThreads result.2)
      (hposted : Paging.Posted (Phase.busy call).owing result.1.phase.owing 0 k.paging
        result.2.paging) : Settles k place p call result
  | ends {cause : Option PagingError} {paging : Paging σ} (howing : (Phase.busy call).owing = 0)
      (hlive : p.exited = false)
      (hposted : Paging.Posted 0 0 (k.paging.swap.releaseAll p.pid).1 k.paging paging) :
      Settles k place p call (.continues { call with stage := .mourning cause .checking },
        markExited { k with paging } place)

namespace Settles

/-- A step that is not entered, of a thread that owes nothing new. -/
theorem of_same (h : k.SameBooks result.2)
    (howing : result.1.phase.owing ≤ (Phase.busy call).owing) : Settles k place p call result :=
  .goes h.toSameThreads (.of_eq howing h.counters_eq h.swap_eq)

/-- A step that is not entered, of a thread that waits for nothing. -/
theorem of_apart (h : k.SameBooks result.2) (hapart : result.1.phase.slotPart = .apart) :
    Settles k place p call result := by
  refine .of_same h ?_
  rw [Phase.owing_of_apart hapart]
  exact Nat.zero_le _

/-- The tables are locked for a quiet action, and then the thread waits for nothing. -/
theorem of_lockedOrHalt {act : PagingM σ Unit} (hact : Paging.Quiet act) (hfree : k.region = {})
    {next : Kernel σ → Except Halt (After σ)}
    (hnext : ∀ k₁, next k₁ = .ok result → result.2 = k₁ ∧ result.1.phase.slotPart = .apart)
    (h : k.lockedOrHalt thread act next = some (.ok result)) : Settles k place p call result := by
  obtain ⟨paging, hrun, h⟩ := lockedOrHalt_ok hfree h
  obtain ⟨hcounters, hswap⟩ := hact _ _ _ hrun
  obtain ⟨hk, hapart⟩ := hnext _ h
  exact .of_apart (hk ▸ ⟨.withPaging k paging, hcounters, hswap⟩) hapart

end Settles

theorem reply_ok {response : Response σ} (h : k.reply response = .ok result) :
    result.2 = k ∧ result.1.phase.slotPart = .apart := by
  obtain rfl := Except.ok.inj h
  exact ⟨rfl, rfl⟩

theorem proceed_ok {stage : Stage} (hapart : (Phase.busy { call with stage }).slotPart = .apart)
    (h : k.proceed call stage = .ok result) :
    result.2 = k ∧ result.1.phase.slotPart = .apart := by
  obtain rfl := Except.ok.inj h
  exact ⟨rfl, hapart⟩

theorem access_settles (h : k.access call = .ok result) : Settles k place p call result := by
  have htrapped : ∀ {processor : Processor} {trap : Trap},
      (k.withProcessor processor).trapped call trap = .ok result →
        Settles k place p call result := by
    intro processor trap htrap
    obtain ⟨hk, hapart⟩ := trapped_ok htrap
    exact .of_apart (hk ▸ .withProcessor k processor) hapart
  rw [access] at h
  split at h
  · obtain ⟨⟨r, processor⟩, -, h⟩ := ok_of_bind h
    cases r with
    | ok byte =>
        obtain rfl := Except.ok.inj h
        exact .of_apart (.withProcessor k processor) rfl
    | error trap => exact htrapped h
  · obtain ⟨⟨r, processor⟩, -, h⟩ := ok_of_bind h
    cases r with
    | ok _ =>
        obtain rfl := Except.ok.inj h
        exact .of_apart (.withProcessor k processor) rfl
    | error trap => exact htrapped h
  · obtain rfl := Except.ok.inj h
    exact .of_apart (.refl k) rfl

theorem moveBytes_settles {frame : Nat} (h : k.moveBytes call frame = .ok result) :
    Settles k place p call result := by
  obtain ⟨bytes, -, h⟩ := ok_of_bind h
  split at h
  · obtain ⟨processor, -, h⟩ := ok_of_bind h
    obtain rfl := Except.ok.inj h
    exact .of_apart (.withProcessor k processor) rfl
  · obtain rfl := Except.ok.inj h
    exact .of_apart (.refl k) rfl

theorem pinNext_settles (hfree : k.region = {})
    (h : k.pinNext thread p call = some (.ok result)) : Settles k place p call result := by
  rw [pinNext] at h
  split at h
  · obtain rfl := Except.ok.inj (Option.some.inj h)
    exact .of_apart (.refl k) rfl
  · obtain ⟨⟨r, k₁⟩, hlocked, h⟩ := step_of_map h fun halt => ⟨halt, rfl⟩
    have hsame : k.SameBooks k₁ := .of_locked (Paging.pinForCopy_quiet _ _) hfree hlocked
    cases r with
    | error cause =>
        obtain rfl := Except.ok.inj h
        exact .of_apart hsame rfl
    | ok outcome =>
        cases outcome <;> obtain rfl := Except.ok.inj h <;> exact .of_apart hsame rfl

/-- A process ends, unless it has ended before. -/
theorem endProcess_settles (hfree : k.region = {}) (howing : (Phase.busy call).owing = 0)
    {cause : Option PagingError}
    (h : k.endProcess thread place p call cause = some (.ok result)) :
    Settles k place p call result := by
  rw [endProcess] at h
  split at h
  · obtain ⟨hk, hapart⟩ := afterEnd_ok (Option.some.inj h)
    exact .of_apart (hk ▸ .refl k) hapart
  · rename_i hlive
    obtain ⟨paging, hreclaim, h⟩ := lockedOrHalt_ok hfree h
    obtain rfl := Except.ok.inj h
    exact .ends howing (Bool.not_eq_true _ ▸ hlive) (Paging.reclaim_posted hreclaim)

theorem beginCall_settles (hfree : k.region = {})
    (h : k.beginCall thread place p ⟨request, .begun, moved⟩ = some (.ok result)) :
    Settles k place p ⟨request, .begun, moved⟩ result := by
  have hbegin : ∀ {stage : Stage}, (Phase.busy ⟨request, stage, moved⟩).slotPart = .apart →
      (if p.exited then k.reply (.failed (.noSuchProcess p.pid))
        else k.proceed ⟨request, .begun, moved⟩ stage) = .ok result →
          Settles k place p ⟨request, .begun, moved⟩ result := by
    intro stage hapart hrun
    split at hrun
    · obtain rfl := Except.ok.inj hrun
      exact .of_apart (.refl k) rfl
    · obtain rfl := Except.ok.inj hrun
      exact .of_apart (.refl k) hapart
  cases request with
  | read | write =>
      exact hbegin rfl (Option.some.inj h)
  | copyOut | copyIn =>
      exact hbegin rfl (Option.some.inj h)
  | handle trap =>
      obtain ⟨hk, hapart⟩ := trapped_ok (Option.some.inj h)
      exact .of_apart (hk ▸ .refl k) hapart
  | save =>
      exact .of_lockedOrHalt (Paging.saveCache_quiet p.pid) hfree (fun _ => reply_ok) h
  | restore =>
      obtain rfl := Except.ok.inj (Option.some.inj h)
      exact .of_apart (.flush k) rfl
  | yield =>
      exact .of_lockedOrHalt (Paging.saveCache_quiet p.pid) hfree (fun _ => proceed_ok rfl) h
  | pin frame =>
      exact .of_lockedOrHalt (Paging.changeFrames_quiet _) hfree (fun _ => reply_ok) h
  | unpin frame =>
      exact .of_lockedOrHalt (Paging.changeFrames_quiet _) hfree (fun _ => reply_ok) h
  | inspect frame =>
      obtain ⟨bytes, -, h⟩ := ok_of_bind (Option.some.inj h)
      obtain rfl := Except.ok.inj h
      exact .of_apart (.refl k) rfl
  | poke slot page frame flags =>
      obtain ⟨entry, -, h⟩ := ok_of_bind (Option.some.inj h)
      obtain ⟨processor, -, h⟩ := ok_of_bind h
      obtain rfl := Except.ok.inj h
      exact .of_apart (.withProcessor k processor) rfl
  | look =>
      obtain rfl := Except.ok.inj (Option.some.inj h)
      exact .of_apart (.refl k) rfl
  | exit =>
      exact endProcess_settles hfree (Phase.owing_of_apart rfl) h
  | leave =>
      obtain rfl := Except.ok.inj (Option.some.inj h)
      exact .of_apart (.refl k) rfl

/-! ## Misses -/

/-- A part of a miss settles what the thread owed, up to what it owes now. -/
theorem handled_settles {page : Nat} {act : PagingM σ Paging.MissResult}
    (hact : Paging.Posts (Phase.busy call).owing Paging.MissResult.owing act)
    {r : Except PagingError Paging.MissResult} {paging : Paging σ}
    (hrun : act k.paging = .ok (r, paging))
    (h : Calling.afterFault call (r.map (Faulting.after page), { k with paging }) = .ok result) :
    Settles k place p call result := by
  obtain ⟨hk, hafter⟩ := handled_ok h
  refine .goes (hk ▸ .withPaging k paging) ?_
  rw [Phase.owing_after hafter, hk]
  exact hact _ _ _ hrun

section Calls

variable [Extent σ]

theorem fault_settles (hfree : k.region = {}) {phase : Faulting}
    {r : Except PagingError (Option Faulting)}
    (hfault : k.faultStep thread p phase = some (.ok (r, k')))
    (h : Calling.afterFault ⟨request, .faulting phase, moved⟩ (r, k') = .ok result) :
    Settles k place p ⟨request, .faulting phase, moved⟩ result := by
  cases phase with
  | missing address =>
      obtain ⟨outcome, paging, hrun, rfl, rfl⟩ := missing_ok hfree hfault
      exact handled_settles (Paging.handleMiss_posts p address) hrun h
  | resuming page victim =>
      obtain ⟨outcome, paging, hrun, rfl, rfl⟩ := resuming_ok hfree hfault
      exact handled_settles (Paging.resumeFault_posts p page victim) hrun h
  | waiting page victim phase =>
      obtain ⟨next, hwait, rfl⟩ := waiting_ok hfault
      obtain rfl := Except.ok.inj h
      refine .of_same (SameBooks.of_waitStep hwait) ?_
      cases next <;> exact le_rfl
  | notifying left phase =>
      obtain ⟨next, hnotify, rfl⟩ := notifying_ok hfault
      obtain ⟨hk, hpart⟩ := notified_ok h
      refine .of_same (hk ▸ SameBooks.of_notifyStep hnotify) ?_
      rw [Phase.owing_eq_zero]
      · exact Nat.zero_le _
      · rw [hpart]
        cases next with
        | none => exact SlotPart.victim?_afterNotice _
        | some phase => rfl

/-- Every step inside a request is entered in the books. -/
theorem callStep_settles (hfree : k.region = {})
    (h : k.callStep thread place p call = some (.ok result)) : Settles k place p call result := by
  obtain ⟨request, stage, moved⟩ := call
  cases stage with
  | begun =>
      exact beginCall_settles hfree h
  | accessing =>
      exact access_settles (Option.some.inj h)
  | faulting phase =>
      obtain ⟨⟨r, k₁⟩, hfault, h⟩ := step_of_map h fun halt => ⟨halt, rfl⟩
      exact fault_settles hfree hfault h
  | pinning =>
      exact pinNext_settles hfree h
  | moving frame =>
      exact moveBytes_settles (Option.some.inj h)
  | unpinning frame =>
      exact .of_lockedOrHalt (Paging.changeFrames_quiet _) hfree (fun _ => proceed_ok rfl) h
  | killing cause =>
      exact endProcess_settles hfree (Phase.owing_of_apart rfl) h
  | mourning cause phase =>
      obtain ⟨⟨next, k₁⟩, hnotify, h⟩ := step_of_map h fun halt => ⟨halt, rfl⟩
      have hsame := SameBooks.of_notifyStep hnotify
      cases next with
      | none =>
          obtain ⟨hk, hapart⟩ := afterEnd_ok h
          exact .of_apart (hk ▸ hsame) hapart
      | some phase' =>
          obtain rfl := Except.ok.inj h
          exact .of_same hsame (Nat.zero_le _)
  | yielding =>
      obtain ⟨k₁, hleave, h⟩ := ok_of_bind (Option.some.inj h)
      obtain rfl := Except.ok.inj h
      exact .of_apart (.of_leaveCpu hleave) rfl
  | returning phase =>
      obtain ⟨⟨stage, k₁⟩, htake, h⟩ := step_of_map h fun halt => ⟨halt, rfl⟩
      obtain rfl := Except.ok.inj h
      obtain ⟨next, cpu, -, rfl, rfl⟩ := takeCpu_ok htake
      refine .of_apart (.relocked k ..) ?_
      cases next <;> rfl
  | flushing =>
      obtain rfl := Except.ok.inj (Option.some.inj h)
      exact .of_apart (.flush k) rfl
  | parting =>
      change (if p.exited then _ else _) = _ at h
      split at h
      · obtain rfl := Except.ok.inj (Option.some.inj h)
        exact .of_apart (.refl k) rfl
      · obtain ⟨⟨r, k₁⟩, hlocked, h⟩ := step_of_map h fun halt => ⟨halt, rfl⟩
        have hsame : k.SameBooks k₁ := .of_locked (Paging.saveCache_quiet p.pid) hfree hlocked
        cases r <;> obtain rfl := Except.ok.inj h <;> exact .of_apart hsame rfl
  | leaving failure =>
      obtain ⟨k₁, hleave, h⟩ := ok_of_bind (Option.some.inj h)
      cases failure with
      | none =>
          obtain rfl := Except.ok.inj h
          exact .of_apart (.of_leaveCpu hleave) rfl
      | some cause => cases h

end Calls

/-! ## Events -/

/-- What an event is in the books. The threads settle what they owed, up to what they owe now. Or a
process ends, and its slots are released. Or a process was asked for with an image that fits the
machine: then a process number was drawn, and maybe a process added that has it. -/
inductive Booked (k : Kernel σ) (e : Event) (k' : Kernel σ) : Prop where
  | goes (hconfig : k'.config = k.config) (hnext : k'.pids.next = k.pids.next)
      (hprocesses : k'.processes = k.processes) (hregion : k'.region = k.region)
      (hposted : Paging.Posted k.owing k'.owing 0 k.paging k'.paging)
  | ends {place : Nat} {p : UserProcess} (hp : k.process place = some p) (hlive : p.exited = false)
      (hconfig : k'.config = k.config) (hnext : k'.pids.next = k.pids.next)
      (hprocesses : k'.processes = (k.markExited place).processes)
      (hregion : k'.region = k.region)
      (hposted : Paging.Posted k.owing k'.owing (k.paging.swap.releaseAll p.pid).1 k.paging
        k'.paging)
  | draws {image : Image} (hevent : e = .spawn image) (hfits : imageFault k.config image = none)
      (hconfig : k'.config = k.config) (hpids : k'.pids = k.pids.allocate.2)
      (hprocesses : k'.processes = k.processes ∨
        ∃ p : UserProcess, k.pids.allocate.1 = .ok p.pid ∧ p.exited = false ∧
          k'.processes = k.processes ++ [p])
      (hregion : k'.region = k.region)
      (hposted : Paging.Posted k.owing k'.owing 0 k.paging k'.paging)

namespace Booked

variable {e : Event}

theorem region_eq (h : k.Booked e k') : k'.region = k.region := by
  cases h <;> assumption

/-- A step that is not entered. -/
theorem of_same (h : k.SameBooks k') : k.Booked e k' := by
  refine .goes h.config_eq h.next_eq h.processes_eq h.region_eq ?_
  rw [owing, owing, h.sessions_eq]
  exact .of_eq le_rfl h.counters_eq h.swap_eq

/-- A thread that owes nothing goes on without being entered. -/
theorem of_setPhase (h : k.SameBooks k') (hs : k.sessions[n]? = some s) {phase : Phase}
    (howing : phase.owing = s.phase.owing) : k.Booked e (k'.setPhase n phase) := by
  obtain ⟨others, hsum, hset⟩ := exists_owing_setPhase hs
  refine .goes h.config_eq h.next_eq h.processes_eq h.region_eq ?_
  rw [hsum, hset k' phase h.sessions_eq, howing]
  exact .of_eq le_rfl h.counters_eq h.swap_eq

theorem of_settles (hs : k.session n = some ⟨place, .busy call⟩) (hp : k.process place = some p)
    (h : Settles k place p call result) : k.Booked e (result.2.setPhase n result.1.phase) := by
  obtain ⟨others, hsum, hset⟩ := exists_owing_setPhase hs
  cases h with
  | goes hsame hposted =>
      refine .goes hsame.config_eq hsame.next_eq hsame.processes_eq hsame.region_eq ?_
      rw [hsum, hset _ _ hsame.sessions_eq]
      exact hposted.beside others
  | @ends cause paging howing hlive hposted =>
      have howed : k.owing = 0 + others := hsum.trans (congrArg (· + others) howing)
      have hbooked : k.Booked e ((markExited { k with paging } place).setPhase n
          (.busy { call with stage := .mourning cause .checking })) := by
        refine .ends hp hlive rfl rfl rfl rfl ?_
        rw [howed, hset (markExited { k with paging } place) _ rfl]
        exact hposted.beside others
      exact hbooked

end Booked

theorem changeFromConsole_booked {e : Event} (hfree : k.region = {})
    {change : FrameTable → Except Halt FrameTable} {r : Option (Response σ)}
    (h : k.changeFromConsole change = some (.ok (r, k'))) : k.Booked e k' := by
  obtain ⟨⟨outcome, k₁⟩, hlocked, h⟩ := step_of_map h fun halt => ⟨halt, rfl⟩
  have hsame : k.SameBooks k₁ := .of_locked (Paging.changeFrames_quiet change) hfree hlocked
  cases outcome with
  | error cause | ok =>
      obtain ⟨-, rfl⟩ := Prod.mk.inj (Except.ok.inj h)
      exact .of_same hsame

/-- A process number is drawn before anything can go wrong, and it stays drawn. -/
theorem spawn_booked {image : Image} {r : Except Halt (Except PagingError Nat)}
    (h : k.spawn image = (r, k')) : k.Booked (.spawn image) k' := by
  rw [spawn] at h
  split at h
  · obtain ⟨-, rfl⟩ := Prod.mk.inj h
    exact .of_same (.refl k)
  · rename_i hfits
    have hdraws : ∀ k₁ : Kernel σ, k₁.config = k.config → k₁.pids = k.pids.allocate.2 →
        k₁.sessions = k.sessions → k₁.region = k.region →
          k₁.paging.counters = k.paging.counters → k₁.paging.swap = k.paging.swap →
            (k₁.processes = k.processes ∨ ∃ p : UserProcess, k.pids.allocate.1 = .ok p.pid ∧
              p.exited = false ∧ k₁.processes = k.processes ++ [p]) →
                k.Booked (.spawn image) k₁ := by
      intro k₁ hconfig hpids hsessions hregion hcounters hswap hprocesses
      refine .draws rfl hfits hconfig hpids hprocesses hregion ?_
      rw [owing, owing, hsessions]
      exact .of_eq le_rfl hcounters hswap
    simp only at h
    split at h
    · obtain ⟨-, rfl⟩ := Prod.mk.inj h
      exact hdraws _ rfl rfl rfl rfl rfl rfl (.inl rfl)
    · rename_i pid hpid
      split at h
      · obtain ⟨-, rfl⟩ := Prod.mk.inj h
        exact hdraws _ rfl rfl rfl rfl rfl rfl (.inl rfl)
      · obtain ⟨-, rfl⟩ := Prod.mk.inj h
        exact hdraws _ rfl rfl rfl rfl rfl rfl (.inr ⟨⟨pid, image, _, false⟩, hpid, rfl, rfl⟩)

variable [Extent σ]

theorem step_booked (hfree : k.region = {}) {r : Option (Response σ)}
    (h : k.step n = some (.ok (r, k'))) : k.Booked (.advance n) k' := by
  cases advances_of_step h with
  | starts hs hp htake =>
      refine .of_setPhase (SameBooks.of_takeCpu htake) hs ?_
      obtain ⟨next, cpu, -, rfl, -⟩ := takeCpu_ok htake
      cases next <;> rfl
  | enters hs hp => exact .of_setPhase (.flush k) hs rfl
  | calls hs hp hcall => exact .of_settles hs hp (callStep_settles hfree hcall)

/-- Every event is entered in the books. -/
theorem perform_booked (hfree : k.region = {}) {e : Event} {r : Option (Response σ)}
    (h : k.perform e = some (.ok (r, k'))) : k.Booked e k' := by
  cases e with
  | spawn image =>
      rw [perform] at h
      generalize hspawn : k.spawn image = spawned at h
      obtain ⟨outcome, k₁⟩ := spawned
      cases outcome with
      | error halt => cases h
      | ok outcome =>
          cases outcome with
          | error cause | ok place =>
              obtain ⟨-, rfl⟩ := Prod.mk.inj (Except.ok.inj (Option.some.inj h))
              exact spawn_booked hspawn
  | start process =>
      rw [perform] at h
      split at h
      · obtain ⟨-, rfl⟩ := Prod.mk.inj (Except.ok.inj (Option.some.inj h))
        refine .goes rfl rfl rfl rfl ?_
        have hstart : (k.start process).owing = k.owing := by
          simp [owing, start, Phase.owing, Phase.victim?]
        rw [hstart]
        exact .of_eq le_rfl rfl rfl
      · cases h
  | ask session request =>
      rw [perform] at h
      split at h
      · rename_i hready
        obtain ⟨-, rfl⟩ := Prod.mk.inj (Except.ok.inj (Option.some.inj h))
        obtain ⟨s, hs, hphase⟩ := Option.map_eq_some_iff.1 hready
        refine .of_setPhase (.refl k) hs ?_
        rw [hphase]
        rfl
      · cases h
  | advance session => exact step_booked hfree h
  | pin frame => exact changeFromConsole_booked hfree h
  | unpin frame => exact changeFromConsole_booked hfree h

end Kernel

end DemandPaging
