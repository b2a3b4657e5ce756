import DemandPaging.Proofs.Geometry.Actions
import DemandPaging.Proofs.Kernel.Runs

/-!
# Steps of a kernel that fits

A kernel fits the geometry if its processor and tables do, its processes were made from images for
pages of its size, and every thread inside a request knows only addresses that fit a word and frames
that are there (`Kernel.Suits`). A step of such a kernel leaves it fitting, and halts for no reason
of geometry, unless the request itself names a frame, a page or a slot that is not there
(`Kernel.Suits.perform`). A run needs no more than that its requests end inside the range of a word
(`Kernel.Suits.performAll`).
-/

namespace DemandPaging

variable {α β : Type} {g : Geometry}

/-- A step that is taken is safe. -/
def SafeStep (results : α → Prop) (x : Option (Except Halt α)) : Prop :=
  ∀ y, x = some y → Safely results y

namespace SafeStep

variable {results : α → Prop} {final : β → Prop}

theorem of_some {y : Except Halt α} (h : Safely results y) : SafeStep results (some y) := by
  rintro _ ⟨⟩
  exact h

theorem of_none : SafeStep results none := by
  intro y hy
  cases hy

/-- A step that is taken only if something is there. -/
theorem of_bind {x : Option β} {next : β → Option (Except Halt α)}
    (h : ∀ b, x = some b → SafeStep results (next b)) : SafeStep results (x >>= next) := by
  intro y hy
  obtain ⟨b, hb, hy⟩ := Option.bind_eq_some_iff.1 hy
  exact h b hb y hy

theorem map {x : Option (Except Halt α)} {f : Except Halt α → Except Halt β}
    (h : SafeStep results x) (hf : ∀ y, Safely results y → Safely final (f y)) :
    SafeStep final (x.map f) := by
  intro z hz
  obtain ⟨y, hy, rfl⟩ := Option.map_eq_some_iff.1 hz
  exact hf y (h y hy)

end SafeStep

/-! ## Locks -/

theorem CriticalRegion.enter_safely {r : CriticalRegion} {thread : ThreadId}
    {x : Except Halt Unit × CriticalRegion} (h : r.enter thread = some x) :
    Safely (fun _ => True) x.1 := by
  obtain ⟨interrupts, -, rfl⟩ := Option.map_eq_some_iff.1 h
  split
  · trivial
  · rw [Interrupts.enable]
    split
    · rename_i h
      rfl
    · rename_i halt h
      split at h
      · cases h
      · rw [← Except.error.inj h]
        rfl

theorem CriticalRegion.leave_safely (r : CriticalRegion) (thread : ThreadId) :
    Safely (fun _ => True) (r.leave thread).1 := by
  rw [leave, Interrupts.enable]
  split
  · trivial
  · rename_i halt h
    split at h
    · cases h
    · rw [← Except.error.inj h]
      rfl

theorem TicketQueue.push_safely (q : TicketQueue) (thread : ThreadId) :
    Safely (fun _ => True) (q.push thread) := by
  rw [push]
  split
  · rfl
  · trivial

namespace SleepLock

variable (l : SleepLock) (thread : ThreadId)

theorem acquire_safely (phase : Acquiring) :
    SafeStep (fun _ => True) (l.acquire thread phase) := by
  cases phase with
  | asking =>
      apply SafeStep.of_some
      rw [ask]
      split
      · rfl
      · split
        · trivial
        · exact (l.queue.push_safely thread).bind fun _ _ => trivial
  | queued ticket =>
      rw [acquire]
      split
      · apply SafeStep.of_some
        rw [resume]
        split
        · trivial
        · rfl
      · exact .of_none

theorem release_safely : Safely (fun _ => True) (l.release thread) := by
  rw [release]
  split
  · trivial
  · rfl

end SleepLock

namespace Condition

variable (c : Condition) (lock : SleepLock) (thread : ThreadId)

theorem whileHolding_safely {act : Except Halt α} (h : Safely (fun _ => True) act) :
    Safely (fun _ => True) (whileHolding lock thread act) := by
  rw [whileHolding]
  split
  · exact h
  · rfl

theorem wake_safely : Safely (fun _ => True) (c.wake lock thread) := by
  apply whileHolding_safely
  trivial

theorem wakeAll_safely : Safely (fun _ => True) (c.wakeAll lock thread) := by
  apply whileHolding_safely
  trivial

theorem sleep_safely (phase : Sleeping) :
    SafeStep (fun _ => True) (c.sleep lock thread phase) := by
  cases phase with
  | entering =>
      apply SafeStep.of_some
      apply whileHolding_safely
      exact (c.queue.push_safely thread).bind fun _ _ => trivial
  | leaving ticket => exact .of_some ((lock.release_safely thread).bind fun _ _ => trivial)
  | asleep ticket =>
      rw [sleep]
      split
      · exact .of_some trivial
      · exact .of_none
  | returning phase =>
      exact (lock.acquire_safely thread phase).map fun _ hy => hy.map fun _ _ => trivial

end Condition

/-! ## What a thread knows -/

/-- The request ends inside the range of a word. -/
def Request.Addressed (request : Request) : Prop :=
  request.address + request.count < UInt64.size

instance : DecidablePred Request.Addressed :=
  fun request => inferInstanceAs (Decidable (request.address + request.count < UInt64.size))

/-- The frames, pages and slots that a request names itself are there. -/
def Request.Names (frames cacheSize : Nat) : Request → Prop
  | pin frame | unpin frame | inspect frame => frame < frames
  | poke slot page frame _ =>
      slot < cacheSize ∧ page ≤ Address.maxPageNumber ∧ frame ≤ Address.maxPageNumber
  | _ => True

/-- A thread that handles a miss does so for a word, and waits for a victim that is there. -/
def Faulting.Suits (g : Geometry) : Faulting → Prop
  | missing address => address < UInt64.size
  | waiting _ victim _ | resuming _ victim => victim < g.frames
  | notifying .. => True

/-- The frame that a thread has come to is there. -/
def Stage.Suits (g : Geometry) : Stage → Prop
  | faulting phase => phase.Suits g
  | moving frame | unpinning frame => frame < g.frames
  | _ => True

/-- A request that ends inside the range of a word, and has moved no more bytes than it is to. -/
structure Call.Suits (g : Geometry) (call : Call) : Prop where
  addressed : call.request.Addressed
  moved_le : call.moved.length ≤ call.request.count
  stage : call.stage.Suits g

/-- What a thread inside a request knows fits. -/
def Phase.Suits (g : Geometry) : Phase → Prop
  | busy call => call.Suits g
  | _ => True

/-- A request that goes on fits. -/
def CallResult.Suits {σ : Type} (g : Geometry) : CallResult σ → Prop
  | continues call => call.Suits g
  | answered _ | ended _ => True

/-- The process was made from an image for pages of this size, and has no more pages than a mapping
can name. -/
structure UserProcess.Suits (g : Geometry) (p : UserProcess) : Prop where
  pageSize_eq : p.image.pageSize = g.pageSize
  numPages_eq : p.numPages = addressSpace p.image g.stackPages
  numPages_le : p.numPages ≤ Address.maxPageNumber + 1

/-- The configuration asks for the pages and the stacks of the geometry. -/
structure Config.Suits (g : Geometry) (c : Config) : Prop where
  pageSize_eq : c.pageSize = g.pageSize
  stackPages_eq : c.stackPages = g.stackPages

/-- The kernel's configuration, processor, tables, processes and threads fit the geometry. -/
structure Kernel.Suits {σ : Type} (g : Geometry) (k : Kernel σ) : Prop where
  config : k.config.Suits g
  paging : k.paging.Suits g
  processes : ∀ p ∈ k.processes, p.Suits g
  sessions : ∀ s ∈ k.sessions, s.phase.Suits g

namespace Kernel

variable {σ : Type} {k : Kernel σ} {thread : ThreadId} {call : Call}

/-- What a step inside a request leads to fits. -/
def AfterSuits (g : Geometry) (x : After σ) : Prop := x.1.Suits g ∧ x.2.Suits g

namespace Suits

/-! ## Small steps -/

theorem withPaging (h : k.Suits g) {paging : Paging σ} (hpaging : paging.Suits g) :
    Kernel.Suits g { k with paging } := ⟨h.config, hpaging, h.processes, h.sessions⟩

/-- The locks, and what is only counted, have no part in the geometry. -/
theorem relocked (h : k.Suits g) {region : CriticalRegion} {cpu swapLock : SleepLock}
    {slotFreed : Condition} {waiting : Nat} {pids : PidCounter} :
    Kernel.Suits g { k with region, cpu, swapLock, slotFreed, waiting, pids } :=
  ⟨h.config, h.paging, h.processes, h.sessions⟩

theorem withProcessor (h : k.Suits g) {processor : Processor} (hp : processor.Suits g) :
    (k.withProcessor processor).Suits g := h.withPaging (h.paging.withProcessor hp)

theorem flush (h : k.Suits g) : k.flush.Suits g :=
  h.withProcessor (MappingCache.flush_suits h.paging.processor)

theorem proceed (h : k.Suits g) (hcall : call.Suits g) {stage : Stage} (hstage : stage.Suits g) :
    Safely (AfterSuits g) (k.proceed call stage) :=
  ⟨⟨hcall.addressed, hcall.moved_le, hstage⟩, h⟩

theorem reply (h : k.Suits g) (response : Response σ) :
    Safely (AfterSuits g) (k.reply response) := ⟨trivial, h⟩

theorem fail (h : k.Suits g) (hcall : call.Suits g) (cause : PagingError) :
    Safely (AfterSuits g) (k.fail call cause) := by
  rw [Kernel.fail]
  split
  · exact h.proceed hcall trivial
  · rfl

theorem trapped (h : k.Suits g) (hcall : call.Suits g) (trap : Trap) :
    Safely (AfterSuits g) (k.trapped call trap) := by
  cases trap with
  | miss => exact h.proceed hcall h.paging.processor.badAddress_lt
  | readOnly => exact h.fail hcall _
  | badFrame => exact h.fail hcall _

/-- The tables are locked for a safe action. -/
theorem locked_safely (h : k.Suits g) {results : α → Prop} {act : PagingM σ α}
    (hact : Paging.Safe g results act) :
    SafeStep (fun x => x.2.Suits g ∧ ∀ a, x.1 = .ok a → results a) (k.locked thread act) := by
  intro y hy
  obtain ⟨⟨entered, region⟩, henter, rfl⟩ := Option.map_eq_some_iff.1 hy
  apply (CriticalRegion.enter_safely henter).bind
  intro _ _
  apply (hact k.paging h.paging).bind
  rintro ⟨result, paging⟩ ⟨hpaging, hresult⟩
  apply (region.leave_safely thread).bind
  intro _ _
  exact ⟨(h.withPaging hpaging).relocked, hresult⟩

theorem lockedOrHalt_safely (h : k.Suits g) {results : Unit → Prop} {act : PagingM σ Unit}
    (hact : Paging.Safe g results act) {next : Kernel σ → Except Halt (After σ)}
    (hnext : ∀ k' : Kernel σ, k'.Suits g → Safely (AfterSuits g) (next k')) :
    SafeStep (AfterSuits g) (k.lockedOrHalt thread act next) := by
  apply (h.locked_safely hact).map
  intro y hy
  refine hy.bind ?_
  rintro ⟨result, k'⟩ ⟨hk', -⟩
  cases result with
  | error cause => rfl
  | ok _ => exact hnext k' hk'

theorem takeCpu_safely (h : k.Suits g) (results : α → Prop) (phase : Acquiring)
    (during : Acquiring → α) (whenTaken : α) (hduring : ∀ phase, results (during phase))
    (htaken : results whenTaken) :
    SafeStep (fun x => results x.1 ∧ x.2.Suits g) (k.takeCpu thread phase during whenTaken) := by
  apply (k.cpu.acquire_safely thread phase).map
  intro y hy
  refine hy.map ?_
  rintro ⟨phase', cpu⟩ -
  refine ⟨?_, h.relocked⟩
  cases phase' with
  | none => exact htaken
  | some phase' => exact hduring phase'

theorem takeSwapLock_safely (h : k.Suits g) (phase : Acquiring) (during : Acquiring → α)
    (whenTaken : α) :
    SafeStep (fun x => x.2.Suits g) (k.takeSwapLock thread phase during whenTaken) := by
  apply (k.swapLock.acquire_safely thread phase).map
  intro y hy
  exact hy.map fun _ _ => h.relocked

theorem leaveCpu_safely (h : k.Suits g) : Safely (Kernel.Suits g) (k.leaveCpu thread) :=
  (k.cpu.release_safely thread).map fun _ _ => h.relocked

theorem leaveSwapLock_safely (h : k.Suits g) : Safely (Kernel.Suits g) (k.leaveSwapLock thread) :=
  (k.swapLock.release_safely thread).map fun _ _ => h.relocked

theorem waitStep_safely (h : k.Suits g) (phase : Waiting) :
    SafeStep (fun x => x.2.Suits g) (k.waitStep thread phase) := by
  cases phase with
  | counting | uncounting => exact .of_some h.relocked
  | locking phase => exact h.takeSwapLock_safely phase _ _
  | leaving => exact .of_some (h.leaveCpu_safely.map fun _ hk => hk)
  | sleeping phase =>
      apply (k.slotFreed.sleep_safely k.swapLock thread phase).map
      intro y hy
      exact hy.map fun _ _ => h.relocked
  | unlocking => exact .of_some (h.leaveSwapLock_safely.map fun _ hk => hk)
  | returning phase =>
      intro y hy
      have htake := h.takeCpu_safely (fun _ => True) phase _ _ (fun _ => trivial) trivial y hy
      exact htake.mono fun _ hx => hx.2
  | flushing => exact .of_some h.flush

theorem notifyStep_safely (h : k.Suits g) (everyone : Bool) (phase : Notifying) :
    SafeStep (fun x => x.2.Suits g) (k.notifyStep thread everyone phase) := by
  have hwake : Safely (Kernel.Suits g) (k.wakeSleepers thread everyone) := by
    rw [wakeSleepers]
    split
    · exact (k.slotFreed.wakeAll_safely k.swapLock thread).map fun _ _ => h.relocked
    · exact (k.slotFreed.wake_safely k.swapLock thread).map fun _ _ => h.relocked
  cases phase with
  | checking => exact .of_some h
  | locking phase => exact h.takeSwapLock_safely phase _ _
  | waking => exact .of_some (hwake.map fun _ hk => hk)
  | unlocking => exact .of_some (h.leaveSwapLock_safely.map fun _ hk => hk)

/-! ## Copies -/

/-- The address that a copy has come to fits a word. -/
theorem copyAddress_lt (hcall : call.Suits g) : copyAddress call < UInt64.size :=
  Nat.lt_of_le_of_lt (Nat.add_le_add_left hcall.moved_le _) hcall.addressed

theorem pinNext_safely (h : k.Suits g) (hcall : call.Suits g) (process : UserProcess) :
    SafeStep (AfterSuits g) (k.pinNext thread process call) := by
  rw [pinNext]
  split
  · exact .of_some (h.reply _)
  · apply (h.locked_safely (Paging.pinForCopy_safe _ _)).map
    intro y hy
    refine hy.bind ?_
    rintro ⟨result, k'⟩ ⟨hk', hresult⟩
    cases result with
    | error cause => exact hk'.reply _
    | ok result =>
        cases result with
        | readOnly => exact hk'.reply _
        | pinned frame => exact hk'.proceed hcall (hresult _ rfl frame rfl)
        | absent =>
            -- the start of a page is not after the address in it
            refine hk'.proceed hcall (Nat.lt_of_le_of_lt ?_ (copyAddress_lt hcall))
            rw [Address.join, Nat.add_zero, Address.page, h.config.pageSize_eq,
              hk'.config.pageSize_eq]
            exact Nat.div_mul_le_self _ _

/-- A copy that moves no more bytes than are left to move. -/
theorem proceed_moved (h : k.Suits g) (hcall : call.Suits g) {part : List UInt8} {amount : Nat}
    (hpart : part.length ≤ amount)
    (hamount : amount ≤ call.request.count - call.moved.length) {stage : Stage}
    (hstage : stage.Suits g) :
    Safely (AfterSuits g) (k.proceed { call with moved := call.moved ++ part } stage) := by
  refine ⟨⟨hcall.addressed, ?_, hstage⟩, h⟩
  have hmoved := hcall.moved_le
  show (call.moved ++ part).length ≤ call.request.count
  rw [List.length_append]
  omega

theorem moveBytes_safely (h : k.Suits g) (hcall : call.Suits g) {frame : Nat}
    (hf : frame < g.frames) : Safely (AfterSuits g) (k.moveBytes call frame) := by
  rw [moveBytes]
  generalize hoffset : Address.offset k.config.pageSize (copyAddress call) = offset
  have hlt : offset < g.pageSize := by
    rw [← hoffset, h.config.pageSize_eq]
    exact Nat.mod_lt _ g.pageSize_pos
  apply (h.paging.processor.frame_safely hf).bind
  intro bytes hbytes
  split
  · rename_i data hrequest
    generalize hamount :
      min (k.config.pageSize - offset) (call.request.count - call.moved.length) = amount
    have hpart : ((data.drop call.moved.length).take amount).length ≤ amount :=
      List.length_take_le _ _
    -- the part ends inside the frame, so the frame keeps its length
    have hpatch : (Extent.patch bytes offset ((data.drop call.moved.length).take amount)).length =
        g.pageSize := by
      rw [Extent.length_patch, hbytes]
      rw [h.config.pageSize_eq] at hamount
      omega
    apply (h.paging.processor.setFrame_safely hf hpatch).bind
    intro processor hprocessor
    exact (h.withProcessor hprocessor).proceed_moved hcall hpart
      (hamount ▸ Nat.min_le_right _ _) hf
  · exact h.proceed_moved hcall (List.length_take_le _ _) (Nat.min_le_right _ _) hf

/-! ## Changes of sessions and processes -/

theorem setPhase (h : k.Suits g) (number : Nat) {phase : Phase} (hphase : phase.Suits g) :
    (k.setPhase number phase).Suits g := by
  refine ⟨h.config, h.paging, h.processes, ?_⟩
  intro s hs
  obtain ⟨i, hi⟩ := List.mem_iff_getElem?.1 hs
  change (k.sessions.modify number _)[i]? = some s at hi
  rw [List.getElem?_modify] at hi
  obtain ⟨s', hs', rfl⟩ := Option.map_eq_some_iff.1 hi
  split
  · exact hphase
  · exact h.sessions s' (List.mem_of_getElem? hs')

theorem markExited (h : k.Suits g) (place : Nat) : (k.markExited place).Suits g := by
  refine ⟨h.config, h.paging, ?_, h.sessions⟩
  intro p hp
  obtain ⟨i, hi⟩ := List.mem_iff_getElem?.1 hp
  change (k.processes.modify place _)[i]? = some p at hi
  rw [List.getElem?_modify] at hi
  obtain ⟨q, hq, rfl⟩ := Option.map_eq_some_iff.1 hi
  have hfits := h.processes q (List.mem_of_getElem? hq)
  split
  · exact ⟨hfits.pageSize_eq, hfits.numPages_eq, hfits.numPages_le⟩
  · exact hfits

/-- A process that is added has pages for all of its address space. -/
theorem spawn_safely (h : k.Suits g) (image : Image) :
    Safely (fun _ => True) (k.spawn image).1 ∧ (k.spawn image).2.Suits g := by
  rw [spawn]
  cases hfault : imageFault k.config image with
  | some cause => exact ⟨trivial, h⟩
  | none =>
      obtain ⟨hsize, hle⟩ : image.pageSize = k.config.pageSize ∧
          UserProcess.addressSpace image k.config.stackPages ≤ Address.maxPageNumber + 1 := by
        rw [imageFault] at hfault
        split at hfault
        · cases hfault
        · rename_i hsize
          simp only [ite_eq_right_iff, reduceCtorEq, imp_false, Nat.not_lt] at hfault
          exact ⟨not_not.1 hsize, hfault⟩
      simp only
      split
      · rename_i halt hdrawn
        refine ⟨?_, h.relocked⟩
        rw [PidCounter.allocate] at hdrawn
        simp only at hdrawn
        split at hdrawn
        · rw [← Except.error.inj hdrawn]
          rfl
        · cases hdrawn
      · rename_i pid hdrawn
        have hadd := h.paging.tables.add_safely pid hle
        split
        · rename_i halt herror
          rw [herror] at hadd
          exact ⟨hadd, h.relocked⟩
        · rename_i tables hok
          rw [hok] at hadd
          refine ⟨trivial, h.config, h.paging.withTables hadd, ?_, h.sessions⟩
          intro p hp
          rcases List.mem_append.1 hp with hp | hp
          · exact h.processes p hp
          · rw [List.mem_singleton.1 hp]
            exact ⟨hsize.trans h.config.pageSize_eq, by rw [h.config.stackPages_eq], hle⟩

/-! ## Requests -/

theorem access_safely (h : k.Suits g) (hcall : call.Suits g) :
    Safely (AfterSuits g) (k.access call) := by
  have haddressed := hcall.addressed
  have hprocessor := h.paging.processor
  rw [access]
  split
  · rename_i address hrequest
    rw [hrequest] at haddressed
    refine (hprocessor.loadByte_safely haddressed).bind ?_
    rintro ⟨result, processor⟩ hp
    cases result with
    | ok value => exact (h.withProcessor hp).reply _
    | error trap => exact (h.withProcessor hp).trapped hcall trap
  · rename_i address value hrequest
    rw [hrequest] at haddressed
    refine (hprocessor.storeByte_safely haddressed value).bind ?_
    rintro ⟨result, processor⟩ hp
    cases result with
    | ok _ => exact (h.withProcessor hp).reply _
    | error trap => exact (h.withProcessor hp).trapped hcall trap
  · exact h.reply _

theorem afterMiss_safely (h : k.Suits g) (hcall : call.Suits g) :
    Safely (AfterSuits g) (k.afterMiss call) := by
  rw [afterMiss]
  split
  · exact h.proceed hcall trivial
  · exact h.proceed hcall trivial
  · exact h.proceed hcall trivial
  · exact h.proceed hcall trivial
  · exact h.reply _

theorem afterEnd_safely (h : k.Suits g) (hcall : call.Suits g) (cause : Option PagingError) :
    Safely (AfterSuits g) (k.afterEnd call cause) := by
  cases cause with
  | none => exact h.proceed hcall trivial
  | some cause => exact h.reply _

theorem endProcess_safely (h : k.Suits g) (hcall : call.Suits g) (place : Nat)
    (process : UserProcess) (cause : Option PagingError) :
    SafeStep (AfterSuits g) (k.endProcess thread place process call cause) := by
  rw [endProcess]
  split
  · exact .of_some (h.afterEnd_safely hcall cause)
  · apply h.lockedOrHalt_safely (Paging.reclaim_safe process.pid)
    exact fun k' hk' => (hk'.markExited place).proceed hcall trivial

theorem beginCall_safely (h : k.Suits g) (hcall : call.Suits g) (place : Nat)
    (process : UserProcess) (hnames : call.request.Names g.frames g.cacheSize) :
    SafeStep (AfterSuits g) (k.beginCall thread place process call) := by
  have hbegin : ∀ stage : Stage, stage.Suits g → Safely (AfterSuits g)
      (if process.exited then k.reply (.failed (.noSuchProcess process.pid))
        else k.proceed call stage) := by
    intro stage hstage
    split
    · exact h.reply _
    · exact h.proceed hcall hstage
  rw [beginCall]
  cases hrequest : call.request with
  | read | write | copyOut | copyIn => exact .of_some (hbegin _ trivial)
  | handle trap => exact .of_some (h.trapped hcall trap)
  | save =>
      apply h.lockedOrHalt_safely (Paging.saveCache_safe process.pid)
      exact fun k' hk' => hk'.reply _
  | restore => exact .of_some (h.flush.reply _)
  | yield =>
      apply h.lockedOrHalt_safely (Paging.saveCache_safe process.pid)
      exact fun k' hk' => hk'.proceed hcall trivial
  | pin frame =>
      rw [hrequest] at hnames
      apply h.lockedOrHalt_safely (Paging.pin_safe hnames)
      exact fun k' hk' => hk'.reply _
  | unpin frame =>
      rw [hrequest] at hnames
      apply h.lockedOrHalt_safely (Paging.unpin_safe hnames)
      exact fun k' hk' => hk'.reply _
  | inspect frame =>
      rw [hrequest] at hnames
      apply SafeStep.of_some
      exact (h.paging.processor.frame_safely hnames).bind fun _ _ => h.reply _
  | poke slot page frame flags =>
      rw [hrequest] at hnames
      obtain ⟨hslot, hpage, hframe⟩ := hnames
      apply SafeStep.of_some
      have hentry : Safely (fun _ => True) (Mapping.ofParts page frame flags) := by
        rw [Mapping.ofParts, Mapping.create, if_neg (Nat.not_lt.2 hpage),
          if_neg (Nat.not_lt.2 hframe)]
        trivial
      apply hentry.bind
      intro entry _
      apply (h.paging.processor.setCacheEntry_safely hslot entry).bind
      exact fun processor hp => (h.withProcessor hp).reply _
  | look => exact .of_some (h.reply _)
  | exit => exact h.endProcess_safely hcall place process none
  | leave => exact .of_some (h.proceed hcall trivial)

variable [Extent σ] [Extent.Filling σ]

/-- What is left of a miss fits. -/
theorem after_suits {page : Nat} {result : Paging.MissResult} (h : result.Suits g)
    {phase : Faulting} (hphase : Faulting.after page result = some phase) : phase.Suits g := by
  cases result with
  | loaded wakeUps =>
      cases wakeUps with
      | zero => cases hphase
      | succ wakeUps =>
          rw [← Option.some.inj hphase]
          trivial
  | needsSlot victim =>
      rw [← Option.some.inj hphase]
      exact h

theorem faultStep_safely (h : k.Suits g) (process : UserProcess) {phase : Faulting}
    (hphase : phase.Suits g) :
    SafeStep (fun x => x.2.Suits g ∧ ∀ next, x.1 = .ok (some next) → next.Suits g)
      (k.faultStep thread process phase) := by
  have hmiss : ∀ (page : Nat) (y : Except Halt (Except PagingError Paging.MissResult × Kernel σ)),
      Safely (fun x => x.2.Suits g ∧ ∀ a, x.1 = .ok a → Paging.MissResult.Suits g a) y →
        Safely (fun x => x.2.Suits g ∧ ∀ next, x.1 = .ok (some next) → next.Suits g)
          (y.map fun x => (x.1.map (Faulting.after page), x.2)) := by
    intro page y hy
    refine hy.map ?_
    rintro ⟨result, k'⟩ ⟨hk', hresult⟩
    refine ⟨hk', fun next hnext => ?_⟩
    cases result with
    | error cause => cases hnext
    | ok result => exact after_suits (hresult result rfl) (Except.ok.inj hnext)
  cases phase with
  | missing address =>
      exact (h.locked_safely (Paging.handleMiss_safe process address)).map (hmiss _)
  | resuming page victim =>
      exact (h.locked_safely (Paging.resumeFault_safe process page hphase)).map (hmiss page)
  | waiting page victim phase =>
      apply (h.waitStep_safely phase).map
      intro y hy
      refine hy.map ?_
      rintro ⟨phase', k'⟩ hk'
      refine ⟨hk', fun next hnext => ?_⟩
      rw [← Option.some.inj (Except.ok.inj hnext)]
      cases phase' with
      | none => exact hphase
      | some phase' => exact hphase
  | notifying left phase =>
      apply (h.notifyStep_safely false phase).map
      intro y hy
      refine hy.map ?_
      rintro ⟨phase', k'⟩ hk'
      refine ⟨hk', fun next hnext => ?_⟩
      have hnext := Except.ok.inj hnext
      cases phase' with
      | none =>
          cases left with
          | zero => cases hnext
          | succ left =>
              rw [← Option.some.inj hnext]
              trivial
      | some phase' =>
          rw [← Option.some.inj hnext]
          trivial

theorem callStep_safely (h : k.Suits g) (hcall : call.Suits g) (place : Nat)
    (process : UserProcess)
    (hnames : call.stage = .begun → call.request.Names g.frames g.cacheSize) :
    SafeStep (AfterSuits g) (k.callStep thread place process call) := by
  have hstage := hcall.stage
  rw [callStep]
  -- only the first step looks at numbers that the request brings, all others at those of the stage
  cases hat : call.stage with
  | begun => exact h.beginCall_safely hcall place process (hnames hat)
  | accessing => exact .of_some (h.access_safely hcall)
  | faulting phase =>
      rw [hat] at hstage
      apply (h.faultStep_safely process hstage).map
      intro y hy
      refine hy.bind ?_
      rintro ⟨result, k'⟩ ⟨hk', hnext⟩
      cases result with
      | error cause => exact hk'.fail hcall cause
      | ok next =>
          cases next with
          | none => exact hk'.afterMiss_safely hcall
          | some phase => exact hk'.proceed hcall (hnext phase rfl)
  | pinning => exact h.pinNext_safely hcall process
  | moving frame =>
      rw [hat] at hstage
      exact .of_some (h.moveBytes_safely hcall hstage)
  | unpinning frame =>
      rw [hat] at hstage
      apply h.lockedOrHalt_safely (Paging.unpin_safe hstage)
      exact fun k' hk' => hk'.proceed hcall trivial
  | killing cause => exact h.endProcess_safely hcall place process (some cause)
  | mourning cause phase =>
      apply (h.notifyStep_safely true phase).map
      intro y hy
      refine hy.bind ?_
      rintro ⟨phase', k'⟩ hk'
      cases phase' with
      | none => exact hk'.afterEnd_safely hcall cause
      | some phase' => exact hk'.proceed hcall trivial
  | yielding =>
      apply SafeStep.of_some
      exact h.leaveCpu_safely.bind fun k' hk' => hk'.proceed hcall trivial
  | returning phase =>
      apply (h.takeCpu_safely (Stage.Suits g) phase .returning .flushing (fun _ => trivial)
        trivial).map
      intro y hy
      refine hy.bind ?_
      rintro ⟨stage, k'⟩ ⟨hstage', hk'⟩
      exact hk'.proceed hcall hstage'
  | flushing => exact .of_some (h.flush.reply _)
  | parting =>
      simp only
      split
      · exact .of_some (h.proceed hcall trivial)
      · apply (h.locked_safely (Paging.saveCache_safe process.pid)).map
        intro y hy
        refine hy.bind ?_
        rintro ⟨result, k'⟩ ⟨hk', -⟩
        cases result with
        | ok _ => exact hk'.proceed hcall trivial
        | error cause => exact hk'.proceed hcall trivial
  | leaving failure =>
      apply SafeStep.of_some
      apply h.leaveCpu_safely.bind
      intro k' hk'
      cases failure with
      | none => exact ⟨trivial, hk'⟩
      | some cause => rfl

theorem step_safely (h : k.Suits g) (number : Nat)
    (hnames : ∀ s call, k.session number = some s → s.phase = .busy call →
      call.stage = .begun → call.request.Names g.frames g.cacheSize) :
    SafeStep (fun x => x.2.Suits g) (k.step number) := by
  apply SafeStep.of_bind
  intro session hsession
  apply SafeStep.of_bind
  intro process _
  have hphase := h.sessions session (List.mem_of_getElem? hsession)
  have hrequest := hnames session
  cases hat : session.phase with
  | starting phase =>
      apply (h.takeCpu_safely (Phase.Suits g) phase .starting .entering (fun _ => trivial)
        trivial).map
      intro y hy
      exact hy.map fun x hx => hx.2.setPhase number hx.1
  | entering => exact .of_some (h.flush.setPhase number trivial)
  | busy call =>
      rw [hat] at hphase
      apply (h.callStep_safely hphase session.process process (hrequest call hsession hat)).map
      intro y hy
      refine hy.map ?_
      rintro ⟨result, k'⟩ ⟨hresult, hk'⟩
      cases result with
      | continues call' => exact hk'.setPhase number hresult
      | answered response => exact hk'.setPhase number trivial
      | ended response => exact hk'.setPhase number trivial
  | ready => exact .of_none
  | ended => exact .of_none

end Suits

end Kernel

/-- The request that an event brings ends inside the range of a word. -/
def Event.Addressed : Event → Prop
  | ask _ request => request.Addressed
  | _ => True

instance : DecidablePred Event.Addressed
  | .ask _ request => inferInstanceAs (Decidable request.Addressed)
  | .spawn _ | .start _ | .advance _ | .pin _ | .unpin _ => inferInstanceAs (Decidable True)

namespace Kernel

variable {σ : Type} {k k' : Kernel σ}

/-- The frames, pages and slots that an event names itself are there: those that the console names,
and those of the request that a session begins. -/
def Names (k : Kernel σ) (frames cacheSize : Nat) : Event → Prop
  | .pin frame | .unpin frame => frame < frames
  | .advance number => ∀ s call, k.session number = some s → s.phase = .busy call →
      call.stage = .begun → call.request.Names frames cacheSize
  | _ => True

/-- An action for which the tables were locked has a result. -/
theorem run_of_locked {thread : ThreadId} {act : PagingM σ α} {x : Except PagingError α × Kernel σ}
    (h : k.locked thread act = some (.ok x)) : ∃ y, act k.paging = .ok y := by
  obtain ⟨⟨entered, region⟩, -, h⟩ := Option.map_eq_some_iff.1 h
  obtain ⟨_, -, h⟩ := ok_of_bind h
  obtain ⟨y, hy, -⟩ := ok_of_bind h
  exact ⟨y, hy⟩

theorem run_of_lockedOrHalt {thread : ThreadId} {act : PagingM σ Unit}
    {next : Kernel σ → Except Halt (After σ)} {x : After σ}
    (h : k.lockedOrHalt thread act next = some (.ok x)) : ∃ y, act k.paging = .ok y := by
  obtain ⟨result, hresult, h⟩ := Option.map_eq_some_iff.1 h
  obtain ⟨z, rfl, -⟩ := ok_of_bind h
  exact run_of_locked hresult

/-- A change of the frame table has a result if the action that makes it has one. -/
theorem exists_of_changeFrames {change : FrameTable → Except Halt FrameTable} {s : Paging σ}
    {y : Except PagingError Unit × Paging σ} (h : Paging.changeFrames change s = .ok y) :
    ∃ t, change s.frameTable = .ok t := by
  cases hchange : change s.frameTable with
  | ok t => exact ⟨t, rfl⟩
  | error halt =>
      have herror : Paging.changeFrames change s = .error halt := by
        rw [Paging.changeFrames, Paging.bind_run, Paging.get_run]
        show (Paging.orHalt (change s.frameTable) >>= _ : PagingM σ Unit) s = _
        rw [Paging.bind_run, hchange]
        rfl
      rw [herror] at h
      cases h

namespace Suits

/-- A frame whose record is read is there. -/
theorem frame_lt (h : k.Suits g) {frame : Nat} {next : FrameRecord → Except Halt β} {x : β}
    (hx : (k.paging.frameTable.entry frame >>= next) = .ok x) : frame < g.frames := by
  obtain ⟨e, he, -⟩ := ok_of_bind hx
  rw [← h.paging.frameTable.size_eq]
  rw [FrameTable.entry] at he
  split at he
  · rename_i e' hget
    exact (Array.getElem?_eq_some_iff.1 hget).1
  · cases he

/-- What a request names is there, if its first step has a result. -/
theorem names_of_beginCall [Extent σ] (h : k.Suits g) {thread : ThreadId} {place : Nat}
    {process : UserProcess} {call : Call} {x : After σ}
    (hstep : k.beginCall thread place process call = some (.ok x)) :
    call.request.Names g.frames g.cacheSize := by
  rw [beginCall] at hstep
  cases hrequest : call.request with
  | pin frame =>
      rw [hrequest] at hstep
      obtain ⟨y, hrun⟩ := run_of_lockedOrHalt hstep
      obtain ⟨t, ht⟩ := exists_of_changeFrames hrun
      exact h.frame_lt ht
  | unpin frame =>
      rw [hrequest] at hstep
      obtain ⟨y, hrun⟩ := run_of_lockedOrHalt hstep
      obtain ⟨t, ht⟩ := exists_of_changeFrames hrun
      exact h.frame_lt ht
  | inspect frame =>
      rw [hrequest] at hstep
      obtain ⟨bytes, hbytes, -⟩ := ok_of_bind (Option.some.inj hstep)
      rw [Processor.frame] at hbytes
      split at hbytes
      · rename_i hframe
        rw [Processor.hasFrame, decide_eq_true_iff, Processor.numFrames,
          h.paging.processor.memory_size, h.paging.processor.pageSize_eq] at hframe
        exact Nat.le_of_mul_le_mul_right hframe g.pageSize_pos
      · cases hbytes
  | poke slot page frame flags =>
      rw [hrequest] at hstep
      obtain ⟨entry, hentry, hset⟩ := ok_of_bind (Option.some.inj hstep)
      obtain ⟨processor, hprocessor, -⟩ := ok_of_bind hset
      obtain ⟨mapping, hmapping, -⟩ := ok_of_map hentry
      rw [Processor.setCacheEntry] at hprocessor
      rw [Mapping.create] at hmapping
      split at hprocessor
      · rename_i hslot
        split at hmapping
        · cases hmapping
        · rename_i hpage
          split at hmapping
          · cases hmapping
          · rename_i hframe
            exact ⟨h.paging.processor.cache_length ▸ hslot, Nat.not_lt.1 hpage,
              Nat.not_lt.1 hframe⟩
      · cases hprocessor
  | _ => trivial

theorem changeFromConsole_safely (h : k.Suits g) {change : FrameTable → Except Halt FrameTable}
    (hchange : Paging.Safe (σ := σ) g (fun _ => True) (Paging.changeFrames change)) :
    SafeStep (fun x => x.2.Suits g) (k.changeFromConsole change) := by
  apply (h.locked_safely hchange).map
  intro y hy
  refine hy.map ?_
  rintro ⟨result, k'⟩ ⟨hk', -⟩
  cases result with
  | ok _ => exact hk'
  | error cause => exact hk'

variable [Extent σ]

/-- What an event names itself is there, if the event has a result. -/
theorem names_of_perform (h : k.Suits g) {event : Event} {x : Option (Response σ) × Kernel σ}
    (hperform : k.perform event = some (.ok x)) : k.Names g.frames g.cacheSize event := by
  have hconsole : ∀ {frame : Nat} {change : FrameTable → Except Halt FrameTable},
      (∀ t, change k.paging.frameTable = .ok t → frame < g.frames) →
        k.changeFromConsole change = some (.ok x) → frame < g.frames := by
    intro frame change hchange hrun
    obtain ⟨result, hresult, hmap⟩ := Option.map_eq_some_iff.1 hrun
    obtain ⟨z, rfl, -⟩ := ok_of_map hmap
    obtain ⟨y, hy⟩ := run_of_locked hresult
    obtain ⟨t, ht⟩ := exists_of_changeFrames hy
    exact hchange t ht
  cases event with
  | advance number =>
      intro s call hs hphase hbegun
      obtain ⟨s', hs', hstep⟩ := Option.bind_eq_some_iff.1 hperform
      obtain rfl := Option.some.inj (hs.symm.trans hs')
      obtain ⟨process, -, hstep⟩ := Option.bind_eq_some_iff.1 hstep
      simp only [hphase] at hstep
      obtain ⟨result, hresult, hmap⟩ := Option.map_eq_some_iff.1 hstep
      obtain ⟨y, rfl, -⟩ := ok_of_map hmap
      rw [callStep, hbegun] at hresult
      exact h.names_of_beginCall hresult
  | pin frame => exact hconsole (fun t ht => h.frame_lt ht) hperform
  | unpin frame => exact hconsole (fun t ht => h.frame_lt ht) hperform
  | _ => trivial

variable [Extent.Filling σ]

/-- What an event does to a kernel that suits the geometry is safe, if what the event names itself
is there. -/
theorem perform_safely (h : k.Suits g) (event : Event) (haddressed : event.Addressed)
    (hnames : k.Names g.frames g.cacheSize event) :
    SafeStep (fun x => x.2.Suits g) (k.perform event) := by
  cases event with
  | spawn image =>
      obtain ⟨hspawn, hk'⟩ := h.spawn_safely image
      rw [perform]
      generalize k.spawn image = result at hspawn hk'
      obtain ⟨result, k'⟩ := result
      cases result with
      | error halt => exact .of_some hspawn
      | ok result =>
          cases result with
          | error cause => exact .of_some hk'
          | ok place => exact .of_some hk'
  | start process =>
      rw [perform]
      split
      · refine .of_some ⟨h.config, h.paging, h.processes, ?_⟩
        intro s hs
        rcases List.mem_append.1 hs with hs | hs
        · exact h.sessions s hs
        · rw [List.mem_singleton.1 hs]
          trivial
      · exact .of_none
  | ask session request =>
      rw [perform]
      split
      · refine .of_some (h.setPhase session ?_)
        exact ⟨haddressed, Nat.zero_le _, trivial⟩
      · exact .of_none
  | advance number => exact h.step_safely number hnames
  | pin frame => exact h.changeFromConsole_safely (Paging.pin_safe hnames)
  | unpin frame => exact h.changeFromConsole_safely (Paging.unpin_safe hnames)

/-- A run whose requests end inside the range of a word leaves the kernel fitting the geometry. -/
theorem performAll (h : k.Suits g) {events : List Event}
    {trace : List (Event × Option (Response σ))} (haddressed : ∀ e ∈ events, e.Addressed)
    (hrun : k.performAll events = some (trace, k')) : k'.Suits g := by
  induction events generalizing k trace with
  | nil =>
      obtain ⟨-, rfl⟩ := Prod.mk.inj (Option.some.inj hrun)
      exact h
  | cons e rest ih =>
      obtain ⟨r, k₁, trace₁, hperform, hrest, -⟩ := exists_of_performAll_cons hrun
      -- an event that had a result named nothing that is not there
      have hsafe := h.perform_safely e (haddressed e List.mem_cons_self)
        (h.names_of_perform hperform) _ hperform
      exact ih hsafe (fun e' he' => haddressed e' (List.mem_cons_of_mem e he')) hrest

end Suits

end Kernel

end DemandPaging
