import DemandPaging.Proofs.Blank.Actions

/-!
# Steps that are blind to byte values

A step of a thread is possible, halts, fails or ends a request with or without byte values alike,
and leaves kernels that differ in nothing else: `Kernel.perform_mirrored` says so of every event.
It is put together from one lemma for each part of a step.
-/

namespace DemandPaging

variable {α α' β : Type}

section Maps

variable {γ γ' : Type} {keep : α → α'} {good : α → Prop} {keep' : γ → γ'} {good' : γ → Prop}

/-- Something that can only be done at times, and is then mirrored. -/
theorem Mirrors.option_map {x : Option (Except Halt α)} {x' : Option (Except Halt α')}
    (h : Option.Rel (Mirrors keep good) x x') {f : Except Halt α → Except Halt γ}
    {f' : Except Halt α' → Except Halt γ'}
    (hf : ∀ r r', Mirrors keep good r r' → Mirrors keep' good' (f r) (f' r')) :
    Option.Rel (Mirrors keep' good') (x.map f) (x'.map f') := by
  cases h with
  | none => exact .none
  | some h => exact .some (hf _ _ h)

/-- The same of something that needs no bytes. -/
theorem Mirrors.option_map_self (x : Option α) {f : α → Except Halt γ} {f' : α → Except Halt γ'}
    (hf : ∀ a, Mirrors keep' good' (f a) (f' a)) :
    Option.Rel (Mirrors keep' good') (x.map f) (x.map f') := by
  cases x with
  | none => exact .none
  | some a => exact .some (hf a)

end Maps

/-- The list with bytes of value zero at a place where it was changed. -/
theorem map_modify {γ : Type} (g : α → γ) {f : α → α} {h : γ → γ} (hg : ∀ a, g (f a) = h (g a))
    (l : List α) (i : Nat) : (l.modify i f).map g = (l.map g).modify i h := by
  apply List.ext_getElem?
  intro j
  rw [List.getElem?_map, List.getElem?_modify, List.getElem?_modify, List.getElem?_map]
  cases l[j]? with
  | none => rfl
  | some a =>
      show some (g (if i = j then f a else a)) = some (if i = j then h (g a) else g a)
      split
      · rw [hg]
      · rfl

namespace Kernel

variable {σ : Type} [Extent σ] [Extent.Reliable σ] {frames : Nat} {k : Kernel σ}

/-- What leads from a kernel to another one is mirrored by what leads from one without byte values
to another such one. -/
abbrev Mirrored (frames : Nat) (keep : α → α') (x : Except Halt (α × Kernel σ))
    (x' : Except Halt (α' × Kernel BlankExtent)) : Prop :=
  Mirrors (Prod.map keep erased) (fun y => y.2.paging.Whole frames) x x'

/-- The same of a step that may not be possible. -/
abbrev StepMirrored (frames : Nat) (keep : α → α') (x : Option (Except Halt (α × Kernel σ)))
    (x' : Option (Except Halt (α' × Kernel BlankExtent))) : Prop :=
  Option.Rel (Mirrored frames keep) x x'

/-! ## Locks -/

theorem locked_mirrored (hs : k.paging.Whole frames) {keep : α → α'} {act : PagingM σ α}
    {act' : PagingM BlankExtent α'} (h : Paging.Blind frames keep act act') (thread : ThreadId) :
    StepMirrored frames (Except.map keep) (k.locked thread act) (k.erased.locked thread act') := by
  refine Mirrors.option_map_self (k.region.enter thread) fun x => ?_
  obtain ⟨entered, region⟩ := x
  refine (Mirrors.refl entered).bind fun _ _ => (h k.paging hs).bind fun x hx => ?_
  obtain ⟨result, paging⟩ := x
  exact (Mirrors.refl (region.leave thread).1).bind fun _ _ => .ok hx

theorem takeCpu_mirrored (hs : k.paging.Whole frames) (thread : ThreadId) (phase : Acquiring)
    {keep : α → α'} {during : Acquiring → α} {during' : Acquiring → α'} {whenTaken : α}
    (h : ∀ phase, during' phase = keep (during phase)) :
    StepMirrored frames keep (k.takeCpu thread phase during whenTaken)
      (k.erased.takeCpu thread phase during' (keep whenTaken)) := by
  refine Mirrors.option_map_self (k.cpu.acquire thread phase) fun result =>
    (Mirrors.refl result).map fun x _ => ?_
  obtain ⟨_ | phase, cpu⟩ := x
  · exact ⟨rfl, hs⟩
  · exact ⟨congrArg (Prod.mk · _) (h phase), hs⟩

theorem takeSwapLock_mirrored (hs : k.paging.Whole frames) (thread : ThreadId) (phase : Acquiring)
    (during : Acquiring → α) (whenTaken : α) :
    StepMirrored frames id (k.takeSwapLock thread phase during whenTaken)
      (k.erased.takeSwapLock thread phase during whenTaken) :=
  Mirrors.option_map_self (k.swapLock.acquire thread phase) fun result =>
    (Mirrors.refl result).map fun _ _ => ⟨rfl, hs⟩

/-- A step that leads to a kernel alone. -/
abbrev KernelMirrored (frames : Nat) (x : Except Halt (Kernel σ))
    (x' : Except Halt (Kernel BlankExtent)) : Prop :=
  Mirrors erased (fun k => k.paging.Whole frames) x x'

theorem leaveCpu_mirrored (hs : k.paging.Whole frames) (thread : ThreadId) :
    KernelMirrored frames (k.leaveCpu thread) (k.erased.leaveCpu thread) :=
  (Mirrors.refl (k.cpu.release thread)).map fun _ _ => ⟨rfl, hs⟩

theorem leaveSwapLock_mirrored (hs : k.paging.Whole frames) (thread : ThreadId) :
    KernelMirrored frames (k.leaveSwapLock thread) (k.erased.leaveSwapLock thread) :=
  (Mirrors.refl (k.swapLock.release thread)).map fun _ _ => ⟨rfl, hs⟩

/-- An empty mapping cache holds no bytes. -/
theorem flush_whole (hs : k.paging.Whole frames) : k.flush.paging.Whole frames :=
  ⟨hs.swap, hs.frames_eq⟩

theorem waitStep_mirrored (hs : k.paging.Whole frames) (thread : ThreadId) (phase : Waiting) :
    StepMirrored frames id (k.waitStep thread phase) (k.erased.waitStep thread phase) := by
  cases phase with
  | counting => exact .some (.ok hs)
  | locking phase => exact takeSwapLock_mirrored hs thread phase _ _
  | leaving => exact .some ((leaveCpu_mirrored hs thread).map fun _ hk => ⟨rfl, hk⟩)
  | sleeping phase =>
      exact Mirrors.option_map_self (k.slotFreed.sleep k.swapLock thread phase) fun result =>
        (Mirrors.refl result).map fun _ _ => ⟨rfl, hs⟩
  | unlocking => exact .some ((leaveSwapLock_mirrored hs thread).map fun _ hk => ⟨rfl, hk⟩)
  | uncounting => exact .some (.ok hs)
  | returning phase => exact takeCpu_mirrored hs thread phase fun _ => rfl
  | flushing => exact .some (.ok (flush_whole hs))

theorem wakeSleepers_mirrored (hs : k.paging.Whole frames) (thread : ThreadId) (everyone : Bool) :
    KernelMirrored frames (k.wakeSleepers thread everyone)
      (k.erased.wakeSleepers thread everyone) := by
  cases everyone with
  | true => exact (Mirrors.refl (k.slotFreed.wakeAll k.swapLock thread)).map fun _ _ => ⟨rfl, hs⟩
  | false => exact (Mirrors.refl (k.slotFreed.wake k.swapLock thread)).map fun _ _ => ⟨rfl, hs⟩

/-- Who is woken, and in which order, does not hang on bytes. -/
theorem notifyStep_mirrored (hs : k.paging.Whole frames) (thread : ThreadId) (everyone : Bool)
    (phase : Notifying) :
    StepMirrored frames id (k.notifyStep thread everyone phase)
      (k.erased.notifyStep thread everyone phase) := by
  cases phase with
  | checking => exact .some (.ok hs)
  | locking phase => exact takeSwapLock_mirrored hs thread phase _ _
  | waking => exact .some ((wakeSleepers_mirrored hs thread everyone).map fun _ hk => ⟨rfl, hk⟩)
  | unlocking => exact .some ((leaveSwapLock_mirrored hs thread).map fun _ hk => ⟨rfl, hk⟩)

theorem faultStep_mirrored (hs : k.paging.Whole frames) (thread : ThreadId) (process : UserProcess)
    (phase : Faulting) :
    StepMirrored frames id (k.faultStep thread process phase)
      (k.erased.faultStep thread process.erased phase) := by
  cases phase with
  | missing address =>
      exact Mirrors.option_map
        (locked_mirrored hs (Paging.handleMiss_blind process address) thread) fun _ _ h =>
          h.map fun x hx => ⟨by obtain ⟨result | cause, k⟩ := x <;> rfl, hx⟩
  | resuming page victim =>
      exact Mirrors.option_map
        (locked_mirrored hs (Paging.resumeFault_blind process page victim) thread) fun _ _ h =>
          h.map fun x hx => ⟨by obtain ⟨result | cause, k⟩ := x <;> rfl, hx⟩
  | waiting page victim phase =>
      exact Mirrors.option_map (waitStep_mirrored hs thread phase) fun _ _ h =>
        h.map fun _ hx => ⟨rfl, hx⟩
  | notifying left phase =>
      exact Mirrors.option_map (notifyStep_mirrored hs thread false phase) fun _ _ h =>
        h.map fun _ hx => ⟨rfl, hx⟩

/-! ## Inside a request -/

theorem proceed_mirrored (hs : k.paging.Whole frames) (call : Call) (stage : Stage) :
    Mirrored frames CallResult.erased (k.proceed call stage)
      (k.erased.proceed call.erased stage) :=
  .ok hs

theorem reply_mirrored (hs : k.paging.Whole frames) (response : Response σ) :
    Mirrored frames CallResult.erased (k.reply response) (k.erased.reply response.erased) :=
  .ok hs

theorem fail_mirrored (hs : k.paging.Whole frames) (call : Call) (cause : PagingError) :
    Mirrored frames CallResult.erased (k.fail call cause) (k.erased.fail call.erased cause) := by
  rw [fail, fail]
  split
  · exact proceed_mirrored hs call (.killing cause)
  · exact .error _

/-- Why the processor stopped does not hang on bytes. -/
theorem trapped_mirrored (hs : k.paging.Whole frames) (call : Call) (trap : Trap) :
    Mirrored frames CallResult.erased (k.trapped call trap)
      (k.erased.trapped call.erased trap) := by
  cases trap with
  | miss => exact proceed_mirrored hs call _
  | readOnly => exact fail_mirrored hs call _
  | badFrame => exact fail_mirrored hs call _

theorem lockedOrHalt_mirrored (hs : k.paging.Whole frames) (thread : ThreadId)
    {act : PagingM σ Unit} {act' : PagingM BlankExtent Unit} (h : Paging.Blind frames id act act')
    {next : Kernel σ → Except Halt (After σ)}
    {next' : Kernel BlankExtent → Except Halt (After BlankExtent)}
    (hnext : ∀ k : Kernel σ, k.paging.Whole frames →
      Mirrored frames CallResult.erased (next k) (next' k.erased)) :
    StepMirrored frames CallResult.erased (k.lockedOrHalt thread act next)
      (k.erased.lockedOrHalt thread act' next') := by
  refine Mirrors.option_map (locked_mirrored hs h thread) fun _ _ hr => hr.bind fun x hx => ?_
  obtain ⟨result | cause, k⟩ := x
  · exact .error _
  · exact hnext k hx

theorem whole_withProcessor (hs : k.paging.Whole frames) {p : Processor}
    (hp : k.paging.processor.FramesOf p) : (k.withProcessor p).paging.Whole frames :=
  ⟨hs.swap, hp.trans hs.frames_eq⟩

/-- An access ends in the same way, with another byte at most. -/
theorem access_mirrored (hs : k.paging.Whole frames) (call : Call) :
    Mirrored frames CallResult.erased (k.access call) (k.erased.access call.erased) := by
  obtain ⟨request, stage, moved⟩ := call
  cases request with
  | read address =>
      refine (k.paging.processor.loadByte_mirrors address).bind fun x hx => ?_
      obtain ⟨trap | value, p⟩ := x
      · exact trapped_mirrored (whole_withProcessor hs hx) _ trap
      · exact reply_mirrored (whole_withProcessor hs hx) _
  | write address value =>
      refine (k.paging.processor.storeByte_mirrors address value).bind fun x hx => ?_
      obtain ⟨trap | _, p⟩ := x
      · exact trapped_mirrored (whole_withProcessor hs hx) _ trap
      · exact reply_mirrored (whole_withProcessor hs hx) _
  | _ => exact reply_mirrored hs .done

theorem afterMiss_mirrored (hs : k.paging.Whole frames) (call : Call) :
    Mirrored frames CallResult.erased (k.afterMiss call) (k.erased.afterMiss call.erased) := by
  obtain ⟨request, stage, moved⟩ := call
  cases request with
  | read => exact proceed_mirrored hs _ .accessing
  | write => exact proceed_mirrored hs _ .accessing
  | copyOut => exact proceed_mirrored hs _ .pinning
  | copyIn => exact proceed_mirrored hs _ .pinning
  | _ => exact reply_mirrored hs .done

/-! ## Copies -/

omit [Extent σ] [Extent.Reliable σ] in
@[simp] theorem isWriting_erased (request : Request) :
    request.erased.isWriting = request.isWriting := by
  cases request <;> rfl

omit [Extent σ] [Extent.Reliable σ] in
@[simp] theorem count_erased (request : Request) : request.erased.count = request.count := by
  cases request with
  | copyIn address data => exact length_blank
  | _ => rfl

omit [Extent σ] [Extent.Reliable σ] in
theorem copyAddress_erased (call : Call) : copyAddress call.erased = copyAddress call := by
  have haddress : call.request.erased.address = call.request.address := by
    cases call.request <;> rfl
  exact congrArg₂ (· + ·) haddress length_blank

omit [Extent σ] [Extent.Reliable σ] in
theorem copyAnswer_erased (call : Call) :
    copyAnswer call.erased = (copyAnswer call : Response σ).erased := by
  have hwriting : call.erased.request.isWriting = call.request.isWriting :=
    isWriting_erased call.request
  rw [copyAnswer, copyAnswer, hwriting]
  split
  · exact congrArg Response.stored length_blank
  · rfl

/-- How far a copy comes, and how it ends, does not hang on bytes. -/
theorem pinNext_mirrored (hs : k.paging.Whole frames) (thread : ThreadId) (process : UserProcess)
    (call : Call) :
    StepMirrored frames CallResult.erased (k.pinNext thread process call)
      (k.erased.pinNext thread process.erased call.erased) := by
  have hmoved : call.erased.moved.length = call.moved.length := length_blank
  have hcount : call.erased.request.count = call.request.count := count_erased call.request
  have hwriting : call.erased.request.isWriting = call.request.isWriting :=
    isWriting_erased call.request
  have hconfig : k.erased.config = k.config := rfl
  have hpages : process.erased.numPages = process.numPages := rfl
  rw [pinNext, pinNext, hmoved, hcount, hwriting, hconfig, hpages, copyAddress_erased,
    copyAnswer_erased]
  dsimp only
  split
  · exact .some (reply_mirrored hs _)
  · refine Mirrors.option_map (locked_mirrored hs (Paging.pinForCopy_blind _ _) thread)
      fun _ _ hr => hr.bind fun x hx => ?_
    obtain ⟨cause | result, k⟩ := x
    · exact reply_mirrored hx _
    · cases result with
      | readOnly => exact reply_mirrored hx _
      | pinned frame => exact proceed_mirrored hx call _
      | absent => exact proceed_mirrored hx call _

/-- Moving bytes looks at none of them. -/
theorem moveBytes_mirrored (hs : k.paging.Whole frames) (call : Call) (frame : Nat) :
    Mirrored frames CallResult.erased (k.moveBytes call frame)
      (k.erased.moveBytes call.erased frame) := by
  have hmoved : call.erased.moved.length = call.moved.length := length_blank
  have hcount : call.erased.request.count = call.request.count := count_erased call.request
  have hconfig : k.erased.config = k.config := rfl
  rw [moveBytes, moveBytes, hmoved, hcount, hconfig, copyAddress_erased]
  refine (k.paging.processor.frame_mirrors frame).bind fun bytes _ => ?_
  have hproceed : ∀ {k : Kernel σ}, k.paging.Whole frames → ∀ part,
      Mirrored frames CallResult.erased
        (k.proceed { call with moved := call.moved ++ part } (.unpinning frame))
        (k.erased.proceed { call.erased with moved := call.erased.moved ++ blank part }
          (.unpinning frame)) := by
    intro k hk part
    have hcall : { call.erased with moved := call.erased.moved ++ blank part } =
        { call with moved := call.moved ++ part }.erased := by
      simp [Call.erased]
    rw [hcall]
    exact proceed_mirrored hk _ _
  obtain ⟨request, stage, moved⟩ := call
  cases request with
  | copyIn address data =>
      simp only [Call.erased, Request.erased, ← blank_drop, ← blank_take, ← blank_patch]
      exact (k.paging.processor.setFrame_mirrors frame _).bind fun p hp =>
        hproceed (whole_withProcessor hs hp) _
  | _ =>
      simp only [Call.erased, Request.erased, ← blank_drop, ← blank_take]
      exact hproceed hs _

/-! ## The end of a process -/

theorem afterEnd_mirrored (hs : k.paging.Whole frames) (call : Call) (cause : Option PagingError) :
    Mirrored frames CallResult.erased (k.afterEnd call cause)
      (k.erased.afterEnd call.erased cause) := by
  cases cause with
  | some cause => exact reply_mirrored hs _
  | none => exact proceed_mirrored hs call .parting

omit [Extent σ] [Extent.Reliable σ] in
theorem markExited_erased (k : Kernel σ) (place : Nat) :
    k.erased.markExited place = (k.markExited place).erased := by
  have hprocesses := map_modify UserProcess.erased (f := fun p => { p with exited := true })
    (h := fun p => { p with exited := true }) (fun _ => rfl) k.processes place
  exact congrArg (fun processes => { k.erased with processes }) hprocesses.symm

theorem endProcess_mirrored (hs : k.paging.Whole frames) (thread : ThreadId) (place : Nat)
    (process : UserProcess) (call : Call) (cause : Option PagingError) :
    StepMirrored frames CallResult.erased (k.endProcess thread place process call cause)
      (k.erased.endProcess thread place process.erased call.erased cause) := by
  have hexited : process.erased.exited = process.exited := rfl
  rw [endProcess, endProcess, hexited]
  split
  · exact .some (afterEnd_mirrored hs call cause)
  · refine lockedOrHalt_mirrored hs thread (Paging.reclaim_blind process.pid) fun k hk => ?_
    rw [markExited_erased]
    exact proceed_mirrored (k := k.markExited place) hk call _

/-! ## Requests -/

omit [Extent σ] [Extent.Reliable σ] in
theorem lastAnswer_erased (call : Call) :
    lastAnswer call.erased = (lastAnswer call : Option (Response σ)).map Response.erased := by
  obtain ⟨request, stage, moved⟩ := call
  cases request <;> rfl

theorem beginCall_mirrored (hs : k.paging.Whole frames) (thread : ThreadId) (place : Nat)
    (process : UserProcess) (call : Call) :
    StepMirrored frames CallResult.erased (k.beginCall thread place process call)
      (k.erased.beginCall thread place process.erased call.erased) := by
  -- an access or a copy begins alike: it is refused when the process has ended
  have hbegin : ∀ stage, Mirrored frames CallResult.erased
      (if process.exited then k.reply (.failed (.noSuchProcess process.pid))
        else k.proceed call stage)
      (if process.exited then k.erased.reply (.failed (.noSuchProcess process.pid))
        else k.erased.proceed call.erased stage) := by
    intro stage
    split
    · exact reply_mirrored hs _
    · exact proceed_mirrored hs call stage
  obtain ⟨request, stage, moved⟩ := call
  cases request with
  | read => exact .some (hbegin .accessing)
  | write => exact .some (hbegin .accessing)
  | copyOut => exact .some (hbegin .pinning)
  | copyIn => exact .some (hbegin .pinning)
  | handle trap => exact .some (trapped_mirrored hs _ trap)
  | save =>
      exact lockedOrHalt_mirrored hs thread (Paging.saveCache_blind process.pid) fun _ hk =>
        reply_mirrored hk .done
  | restore => exact .some (reply_mirrored (flush_whole hs) .done)
  | yield =>
      exact lockedOrHalt_mirrored hs thread (Paging.saveCache_blind process.pid) fun _ hk =>
        proceed_mirrored hk _ .yielding
  | pin frame =>
      exact lockedOrHalt_mirrored hs thread (Paging.changeFrames_blind _) fun _ hk =>
        reply_mirrored hk .done
  | unpin frame =>
      exact lockedOrHalt_mirrored hs thread (Paging.changeFrames_blind _) fun _ hk =>
        reply_mirrored hk .done
  | inspect frame =>
      exact .some ((k.paging.processor.frame_mirrors frame).bind fun bytes _ =>
        reply_mirrored hs (.contents bytes))
  | poke slot page frame flags =>
      refine .some ((Mirrors.refl (Mapping.ofParts page frame flags)).bind fun entry _ => ?_)
      exact (k.paging.processor.setCacheEntry_mirrors slot entry).bind fun p hp =>
        reply_mirrored (whole_withProcessor hs hp) .done
  | look => exact .some (reply_mirrored hs (.seen k))
  | exit => exact endProcess_mirrored hs thread place process _ none
  | leave => exact .some (proceed_mirrored hs _ .parting)

/-- One step inside a request. -/
theorem callStep_mirrored (hs : k.paging.Whole frames) (thread : ThreadId) (place : Nat)
    (process : UserProcess) (call : Call) :
    StepMirrored frames CallResult.erased (k.callStep thread place process call)
      (k.erased.callStep thread place process.erased call.erased) := by
  have hstage : call.erased.stage = call.stage := rfl
  rw [callStep, callStep, hstage]
  cases call.stage with
  | begun => exact beginCall_mirrored hs thread place process call
  | accessing => exact .some (access_mirrored hs call)
  | faulting phase =>
      refine Mirrors.option_map (faultStep_mirrored hs thread process phase) fun _ _ hr =>
        hr.bind fun x hx => ?_
      obtain ⟨cause | phase, k⟩ := x
      · exact fail_mirrored hx call cause
      · cases phase with
        | none => exact afterMiss_mirrored hx call
        | some phase => exact proceed_mirrored hx call _
  | pinning => exact pinNext_mirrored hs thread process call
  | moving frame => exact .some (moveBytes_mirrored hs call frame)
  | unpinning frame =>
      exact lockedOrHalt_mirrored hs thread (Paging.changeFrames_blind _) fun _ hk =>
        proceed_mirrored hk call .pinning
  | killing cause => exact endProcess_mirrored hs thread place process call (some cause)
  | mourning cause phase =>
      refine Mirrors.option_map (notifyStep_mirrored hs thread true phase) fun _ _ hr =>
        hr.bind fun x hx => ?_
      obtain ⟨phase, k⟩ := x
      cases phase with
      | none => exact afterEnd_mirrored hx call cause
      | some phase => exact proceed_mirrored hx call _
  | yielding =>
      exact .some ((leaveCpu_mirrored hs thread).bind fun _ hk => proceed_mirrored hk call _)
  | returning phase =>
      have hcpu : StepMirrored frames id (k.takeCpu thread phase Stage.returning .flushing)
          (k.erased.takeCpu thread phase Stage.returning .flushing) :=
        takeCpu_mirrored hs thread phase fun _ => rfl
      exact Mirrors.option_map hcpu fun _ _ hr => hr.bind fun x hx => proceed_mirrored hx call x.1
  | flushing => exact .some (reply_mirrored (flush_whole hs) .done)
  | parting =>
      have hexited : process.erased.exited = process.exited := rfl
      simp only [hexited]
      split
      · exact .some (proceed_mirrored hs call _)
      · refine Mirrors.option_map (locked_mirrored hs (Paging.saveCache_blind process.pid) thread)
          fun _ _ hr => hr.bind fun x hx => ?_
        obtain ⟨cause | _, k⟩ := x
        · exact proceed_mirrored hx call _
        · exact proceed_mirrored hx call _
  | leaving failure =>
      refine .some ((leaveCpu_mirrored hs thread).bind fun k hk => ?_)
      cases failure with
      | none =>
          rw [lastAnswer_erased]
          exact .ok hk
      | some cause => exact .error _

/-! ## Sessions and events -/

omit [Extent σ] [Extent.Reliable σ] in
theorem setPhase_erased (k : Kernel σ) (number : Nat) (phase : Phase) :
    k.erased.setPhase number phase.erased = (k.setPhase number phase).erased := by
  have hsessions := map_modify Session.erased (f := fun s => { s with phase })
    (h := fun s => { s with phase := phase.erased }) (fun _ => rfl) k.sessions number
  exact congrArg (fun sessions => { k.erased with sessions }) hsessions.symm

omit [Extent σ] [Extent.Reliable σ] in
theorem session_erased (k : Kernel σ) (number : Nat) :
    k.erased.session number = (k.session number).map Session.erased := List.getElem?_map ..

omit [Extent σ] [Extent.Reliable σ] in
theorem process_erased (k : Kernel σ) (place : Nat) :
    k.erased.process place = (k.process place).map UserProcess.erased := List.getElem?_map ..

/-- One step of a session. -/
theorem step_mirrored (hs : k.paging.Whole frames) (number : Nat) :
    StepMirrored frames (Option.map Response.erased) (k.step number) (k.erased.step number) := by
  rw [step, step, session_erased]
  cases k.session number with
  | none => exact .none
  | some session =>
      show StepMirrored _ _ (k.process session.process >>= _)
        (k.erased.process session.process >>= _)
      rw [process_erased]
      cases k.process session.process with
      | none => exact .none
      | some process =>
          obtain ⟨place, phase⟩ := session
          cases phase with
          | starting phase =>
              have hcpu : StepMirrored frames Phase.erased
                  (k.takeCpu (threadOf number) phase Phase.starting .entering)
                  (k.erased.takeCpu (threadOf number) phase Phase.starting .entering) :=
                takeCpu_mirrored hs _ phase fun _ => rfl
              exact Mirrors.option_map hcpu fun _ _ hr => hr.map fun x hx =>
                ⟨congrArg (Prod.mk none) (setPhase_erased x.2 number x.1), hx⟩
          | entering =>
              refine .some ?_
              show Mirrored _ _ _
                (Except.ok (none, k.flush.erased.setPhase number Phase.ready.erased))
              rw [setPhase_erased]
              exact .ok (flush_whole hs)
          | busy call =>
              refine Mirrors.option_map (callStep_mirrored hs (threadOf number) place process call)
                fun _ _ hr => hr.map fun x hx => ?_
              obtain ⟨result, k⟩ := x
              cases result with
              | continues call =>
                  exact ⟨congrArg (Prod.mk none) (setPhase_erased k number (.busy call)), hx⟩
              | answered response =>
                  exact ⟨congrArg (Prod.mk (some response.erased))
                    (setPhase_erased k number .ready), hx⟩
              | ended response =>
                  exact ⟨congrArg (Prod.mk (response.map Response.erased))
                    (setPhase_erased k number .ended), hx⟩
          | ready => exact .none
          | ended => exact .none

omit [Extent σ] [Extent.Reliable σ] in
theorem imageFault_erased (c : Config) (image : Image) :
    imageFault c image.erased = imageFault c image := by
  rw [imageFault, imageFault, UserProcess.addressSpace_erased]
  rfl

/-- A process is added or refused for an image whatever its bytes are. -/
theorem spawn_erased (hs : k.paging.Whole frames) (image : Image) :
    k.erased.spawn image.erased = ((k.spawn image).1, (k.spawn image).2.erased) ∧
      (k.spawn image).2.paging.Whole frames := by
  have hfault : imageFault k.erased.config image.erased = imageFault k.config image :=
    imageFault_erased k.config image
  have hpids : k.erased.pids = k.pids := rfl
  rw [spawn, spawn, hfault, hpids]
  cases imageFault k.config image with
  | some cause => exact ⟨rfl, hs⟩
  | none =>
      obtain ⟨drawn, pids⟩ := k.pids.allocate
      cases drawn with
      | error halt => exact ⟨rfl, hs⟩
      | ok pid =>
          have htables : k.erased.paging.tables = k.paging.tables := rfl
          have hconfig : k.erased.config = k.config := rfl
          simp only [htables, hconfig, UserProcess.addressSpace_erased]
          cases PageTables.add k.paging.tables pid
              (UserProcess.addressSpace image k.config.stackPages) with
          | error halt => exact ⟨rfl, hs⟩
          | ok tables =>
              refine ⟨?_, hs.swap, hs.frames_eq⟩
              simp [erased, Paging.erased, UserProcess.erased]

omit [Extent σ] [Extent.Reliable σ] in
theorem start_erased (k : Kernel σ) (place : Nat) :
    k.erased.start place = (k.start place).erased := by
  simp [start, erased, Session.erased, Phase.erased]

/-- The frame table is all that the console can change. -/
theorem changeFromConsole_mirrored (hs : k.paging.Whole frames)
    (change : FrameTable → Except Halt FrameTable) :
    StepMirrored frames (Option.map Response.erased) (k.changeFromConsole change)
      (k.erased.changeFromConsole change) := by
  refine Mirrors.option_map (locked_mirrored hs (Paging.changeFrames_blind change) console)
    fun _ _ hr => hr.map fun x hx => ?_
  obtain ⟨cause | _, k⟩ := x
  · exact ⟨rfl, hx⟩
  · exact ⟨rfl, hx⟩

/-- What an event does, and what it answers, is the same without byte values. -/
theorem perform_mirrored (hs : k.paging.Whole frames) (e : Event) :
    StepMirrored frames (Option.map Response.erased) (k.perform e) (k.erased.perform e.erased) := by
  cases e with
  | spawn image =>
      obtain ⟨hspawn, hwhole⟩ := spawn_erased hs image
      rw [Event.erased, perform, perform, hspawn]
      generalize k.spawn image = spawned at hwhole
      obtain ⟨halt | cause | place, k⟩ := spawned
      · exact .some (.error halt)
      · exact .some (.ok hwhole)
      · exact .some (.ok hwhole)
  | start place =>
      show StepMirrored _ _ _ (k.erased.perform (.start place))
      rw [perform, perform, process_erased, Option.isSome_map, start_erased]
      split
      · exact .some (.ok hs)
      · exact .none
  | ask number request =>
      have hready : (k.erased.session number).map Session.phase = some .ready ↔
          (k.session number).map Session.phase = some .ready := by
        rw [session_erased, Option.map_map]
        cases k.session number with
        | none => exact Iff.rfl
        | some session =>
            obtain ⟨place, phase⟩ := session
            cases phase <;> simp [Session.erased, Phase.erased]
      rw [Event.erased, perform, perform, accept, accept]
      simp only [hready]
      split
      · refine .some ?_
        have hphase := setPhase_erased k number (.busy { request })
        rw [show k.erased.setPhase number (.busy { request := request.erased }) = _ from hphase]
        exact .ok hs
      · exact .none
  | advance number => exact step_mirrored hs number
  | pin frame => exact changeFromConsole_mirrored hs _
  | unpin frame => exact changeFromConsole_mirrored hs _

end Kernel

end DemandPaging
