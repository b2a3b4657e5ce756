import DemandPaging.Proofs.CallersPins
import DemandPaging.Proofs.ExitedProcesses
import DemandPaging.Proofs.Kernel.Stages

/-!
# Threads that outlive their process

A process may end while a thread of it waits for a swap slot. The thread goes on when it is woken,
and finds its process gone once it has a frame: it gives the frame back, and its request is refused.
Whatever threads of a process do after its end, they take nothing from the others, with one
exception (`Run.orphans_take_nothing`). A thread that goes on after its wait looks for a frame
before it looks for its process. If no frame is free, and its victim still has a page, it pushes
this page out for nothing, or begins to wait once more (`orphan_waits_again`).
-/

namespace DemandPaging

variable {σ : Type}

/-- A frame stays on the free list when no frame gets an owner or a pin. -/
theorem FrameTable.Sound.mem_free_of_owner_eq {t t' : FrameTable} {pins pins' : Multiset Nat}
    {f : Nat} (h : t.Sound pins) (h' : t'.Sound pins') (hsub : ∀ g ∈ pins', g ∈ pins)
    (hsize : t'.size = t.size) (howner : t'.owner f = t.owner f) (hf : f ∈ t.free) :
    f ∈ t'.free := by
  obtain ⟨hnone, hpins⟩ := h.blank_of_mem_free hf
  have hlt := ((h.mem_free f).1 hf).1
  have hcount := h'.count_free (hlt.trans_eq hsize.symm) (howner.trans hnone)
    fun hmem => hpins (hsub f hmem)
  exact List.count_pos_iff.1 (hcount ▸ Nat.one_pos)

namespace Paging

variable {s s' : Paging σ} {live : Population} {pins : Multiset Nat} {mem : PageId → List UInt8}
  {victim : Nat}

/-- No page has left its frame, no swap slot has been taken, and no frame that was free. -/
structure NothingTaken (s s' : Paging σ) : Prop where
  owner_eq : ∀ f, s'.frameTable.owner f = s.frameTable.owner f
  slots_eq : s'.swap.free = s.swap.free
  free : ∀ f ∈ s.frameTable.free, f ∈ s'.frameTable.free

theorem Still.nothingTaken (h : Still s s') : NothingTaken s s' :=
  ⟨h.owner_eq, h.slots_eq, fun _ hf => h.frames_eq.symm ▸ hf⟩

theorem NothingTaken.of_eq (h : s' = s) : NothingTaken s s' := h ▸ (Still.refl s).nothingTaken

/-- What a thread finds when it goes on after its wait, and its process has ended. -/
inductive ResumesLate (pid : Pid) (victim : Nat) (s s' : Paging σ) :
    Except PagingError MissResult → Prop where
  /-- there is a free frame, or no page in the frame that it waited with -/
  | givesUp (hneedless : s.frameTable.free ≠ [] ∨ s.frameTable.owner victim = none)
      (hnothing : NothingTaken s s') : ResumesLate pid victim s s' (.error (.noSuchProcess pid))
  /-- it pushes the page out, for which there may have to be a slot -/
  | evicts (hfull : s.frameTable.free = []) (howned : (s.frameTable.owner victim).isSome = true)
      (howner : s'.frameTable.owner victim = none)
      (hslots : s'.swap.free.length + s.due victim = s.swap.free.length) :
      ResumesLate pid victim s s' (.error (.noSuchProcess pid))
  /-- it has to wait for a slot once more -/
  | waits (hfull : s.frameTable.free = []) (howned : (s.frameTable.owner victim).isSome = true)
      (hslots : s.swap.free = []) (hstill : Still s s') :
      ResumesLate pid victim s s' (.ok (.needsSlot victim))

/-- There is nothing to push out of a frame without an owner. -/
theorem evictOrWait_ownerless [Extent σ] (howner : s.frameTable.owner victim = none)
    (process : UserProcess) :
    evictOrWait process victim s = .ok (.ok (.found victim false), s) := by
  refine tryCatch_ok ?_
  rw [evict, bind_assoc, bind_ok (get_run s), howner]
  rfl

namespace Sound

variable [Extent σ] [Extent.Reliable σ]

/-- A thread whose process has ended finds this out when it has a frame. -/
theorem resumeFault_ended {process : UserProcess} (h : s.Sound live none (victim ::ₘ pins) mem)
    (hlive : live process.pid = none) (page : Nat) :
    ∃ r s', resumeFault process page victim s = .ok (r, s') ∧
      ResumesLate process.pid victim s s' r := by
  -- no frame that is pinned in the end is one that was not pinned before
  have hsub : ∀ g ∈ pins, g ∈ victim ::ₘ pins := fun g => Multiset.mem_cons_of_mem
  rw [resumeFault]
  cases hfree : s.frameTable.free with
  | cons f rest =>
      obtain ⟨t, hsearch, h1, hsize, howners⟩ := h.resumeSearch_free hfree process
      obtain ⟨t', hbring, h2, hsize', howners'⟩ := h1.bringIn_ended hlive page
      have hsame : ∀ g, t'.owner g = s.frameTable.owner g := fun g =>
        (howners' g).trans (howners g)
      refine ⟨_, { s with frameTable := t' }, ?_,
        .givesUp (.inl (hfree ▸ List.cons_ne_nil f rest)) ⟨hsame, rfl, fun g hg =>
          h.frames.mem_free_of_owner_eq h2.frames hsub (hsize'.trans hsize) (hsame g) hg⟩⟩
      rw [bind_ok hsearch, settleFault, bind_error hbring]
  | nil =>
      -- the victim is tried again, whether or not the process is still there
      have hrun := h.switch_of_none (some process.pid)
      have hsearch := resumeSearch_full hfree process victim
      cases howner : s.frameTable.owner victim with
      | none =>
          obtain ⟨t, hbring, h1, hsize, howners⟩ := hrun.bringIn_ended hlive page
          refine ⟨_, { s with frameTable := t }, ?_, .givesUp (.inr howner) ⟨howners, rfl,
            fun g hg => h.frames.mem_free_of_owner_eq h1.frames hsub hsize (howners g) hg⟩⟩
          rw [bind_ok (hsearch.trans (evictOrWait_ownerless howner process)), settleFault,
            bind_error hbring]
      | some id =>
          have howned : (s.frameTable.owner victim).isSome = true := by rw [howner]; rfl
          rcases hrun.evictOrWait_eq (h.synced_of_none (some process.pid)) hfree rfl with
            ⟨s1, hevict, h1, -, hevicts⟩ | ⟨s1, hwait, -, -, hstill, hblocked⟩
          · obtain ⟨t, hbring, -, -, howners⟩ := h1.bringIn_ended hlive page
            refine ⟨_, { s1 with frameTable := t }, ?_, .evicts hfree howned
              ((howners victim).trans ((hevicts.owner_eq victim).trans (if_pos rfl)))
              hevicts.slots_eq⟩
            rw [bind_ok (hsearch.trans hevict), settleFault, bind_error hbring]
          · refine ⟨_, s1, ?_, .waits hfree howned (hstill.slots_eq ▸ hblocked.slots_eq) hstill⟩
            rw [bind_ok (hsearch.trans hwait), settleFault, pure_run]

end Sound

end Paging

theorem Phase.eq_of_resuming {phase : Phase} {victim : Nat}
    (h : phase.slotPart = .resuming victim) :
    ∃ request page moved, phase = .busy ⟨request, .faulting (.resuming page victim), moved⟩ := by
  cases phase with
  | busy call =>
      obtain ⟨request, stage, moved⟩ := call
      cases stage with
      | faulting fault =>
          cases fault with
          | resuming page victim' =>
              obtain rfl := SlotPart.resuming.inj h
              exact ⟨request, page, moved, rfl⟩
          | _ => cases h
      | _ => cases h
  | _ => cases h

namespace Kernel

variable {k k' k₀ k₂ : Kernel σ} {n i : Nat} {p : UserProcess} {call : Call}

/-- A thread has come to the point where it has to wait for a swap slot. -/
def BeginsToWait (k : Kernel σ) (n : Nat) : Prop :=
  ∃ s victim, k.session n = some s ∧ s.phase.slotPart = .waiting victim .counting

/-- A thread goes on after its wait and has to try its victim again: still no frame is free, and
there is a page in the victim's frame. -/
def Retries (k : Kernel σ) (n : Nat) : Prop :=
  ∃ s victim, k.session n = some s ∧ s.phase.slotPart = .resuming victim ∧
    k.paging.frameTable.free = [] ∧ (k.paging.frameTable.owner victim).isSome = true

theorem retries_iff {s : Session} {victim : Nat} (hs : k.session n = some s)
    (hpart : s.phase.slotPart = .resuming victim) :
    k.Retries n ↔
      k.paging.frameTable.free = [] ∧ (k.paging.frameTable.owner victim).isSome = true := by
  refine ⟨?_, fun hneeds => ⟨s, victim, hs, hpart, hneeds⟩⟩
  rintro ⟨t, f, ht, hf, hneeds⟩
  obtain rfl := Option.some.inj (hs.symm.trans ht)
  obtain rfl := SlotPart.resuming.inj (hpart.symm.trans hf)
  exact hneeds

/-- A thread waits for a swap slot, or goes on after its wait, or is about to have the request
refused for which it waited. -/
def Orphaned (k : Kernel σ) (n i : Nat) (pid : Pid) : Prop :=
  ∃ request stage moved, k.session n = some ⟨i, .busy ⟨request, stage, moved⟩⟩ ∧
    (stage.slotPart.victim?.isSome = true ∨ stage = .killing (.noSuchProcess pid))

theorem Orphaned.of_victim {phase : Phase} {f : Nat} (hs : k.session n = some ⟨i, phase⟩)
    (hvictim : phase.victim? = some f) (pid : Pid) : k.Orphaned n i pid := by
  rw [← Phase.victim?_slotPart] at hvictim
  cases phase with
  | busy call =>
      obtain ⟨request, stage, moved⟩ := call
      exact ⟨request, stage, moved, hs, .inl (congrArg Option.isSome hvictim)⟩
  | _ => cases hvictim

/-- A thread stays with the request for which it waits. -/
theorem Orphaned.of_setPhase {phase : Phase} {request : Request} {stage : Stage}
    {moved : List UInt8} {pid : Pid} (hs : k.session n = some ⟨i, phase⟩)
    (hsessions : k'.sessions = k.sessions)
    (hstage : stage.slotPart.victim?.isSome = true ∨ stage = .killing (.noSuchProcess pid)) :
    (k'.setPhase n (.busy ⟨request, stage, moved⟩)).Orphaned n i pid := by
  have hs' : k'.sessions[n]? = some ⟨i, phase⟩ := hsessions ▸ hs
  exact ⟨request, stage, moved, getElem?_setPhase_self hs' _, hstage⟩

/-- A thread has given no answer in a run. -/
def Unanswered (n : Nat) (trace : List (Event × Option (Response σ))) : Prop :=
  ∀ x ∈ trace, x.1 = .advance n → x.2 = none

/-- By a step of a thread nothing is taken, and the thread does not begin to wait. -/
structure TakesNothing (k : Kernel σ) (n : Nat) (k' : Kernel σ) : Prop where
  awake : ¬ k'.BeginsToWait n
  nothing : k.paging.NothingTaken k'.paging

/-- A thread comes into a phase in which it does not begin to wait. -/
theorem TakesNothing.of_phase {phase : Phase} (hnothing : k.paging.NothingTaken k'.paging)
    (hphase : ∀ victim, phase.slotPart ≠ .waiting victim .counting) :
    k.TakesNothing n (k'.setPhase n phase) := by
  refine ⟨?_, hnothing⟩
  rintro ⟨t, victim, ht, hpart⟩
  rw [phase_of_setPhase ht] at hpart
  exact hphase victim hpart

/-- Only the search for a frame makes a thread begin to wait. -/
theorem waitStep_ne_counting {thread : ThreadId} {phase next : Waiting}
    (h : k.waitStep thread phase = some (.ok (some next, k'))) : next ≠ .counting := by
  rintro rfl
  cases phase with
  | counting | uncounting | flushing => cases Option.some.inj h
  | locking taking =>
      obtain ⟨next', -, -, heq, -⟩ := takeSwapLock_ok h
      cases next' <;> cases heq
  | leaving | unlocking =>
      obtain ⟨_, -, heq⟩ := ok_of_map (Option.some.inj h)
      cases heq
  | sleeping taking =>
      obtain ⟨⟨next', _, _⟩, -, heq⟩ := step_of_map h fun halt => ⟨halt, rfl⟩
      obtain ⟨heq, -⟩ := Prod.mk.inj (Except.ok.inj heq)
      cases next' <;> cases heq
  | returning taking =>
      obtain ⟨next', -, -, heq, -⟩ := takeCpu_ok h
      cases next' <;> cases heq

/-- A thread that wakes others does not wait. -/
theorem ne_waiting_of_notice {left : Option Nat} {next : Option Notifying} {waiting : Waiting}
    {victim : Nat} :
    next.elim (SlotPart.afterNotice left) (.waking left) ≠ .waiting victim waiting := by
  rcases next with _ | phase
  · rcases left with _ | _ | left <;> nofun
  · nofun

section Steps

variable [Extent σ] [Extent.Reliable σ] {m : FlatMachine} {result : After σ} {page victim : Nat}
  {request : Request} {moved : List UInt8}

namespace Calling

/-- Parts of a miss take nothing for a process that has ended, but for the one after the wait. -/
theorem fault_nothing {phase : Faulting} {r : Except PagingError (Option Faulting)}
    (h : k.Calling m n i p ⟨request, .faulting phase, moved⟩) (hexited : p.exited = true)
    (hresumes : ∀ victim, (Stage.faulting phase).slotPart ≠ .resuming victim)
    (hfault : k.faultStep (threadOf n) p phase = some (.ok (r, k')))
    (hafter : afterFault ⟨request, .faulting phase, moved⟩ (r, k') = .ok result) :
    k.paging.NothingTaken result.2.paging ∧
      ∀ victim, result.1.phase.slotPart ≠ .waiting victim .counting := by
  have hend : k.live p.pid = none := by rw [h.live_eq, if_pos hexited]
  cases phase with
  | missing a =>
      obtain ⟨outcome, paging, hact, rfl, rfl⟩ := missing_ok h.sound.region_eq hfault
      obtain ⟨hk, hpart⟩ := handled_ok hafter
      obtain ⟨r', s', hmiss, hcase⟩ :=
        (h.paging_bare rfl rfl rfl).handleMiss_run h.live_or a (h.holds rfl)
      obtain ⟨rfl, rfl⟩ := Prod.mk.inj (Except.ok.inj (hact.symm.trans hmiss))
      rcases hcase with ⟨rfl, -⟩ | ⟨-, hsettled, ⟨-, hlive⟩ | ⟨-, hlive, -⟩⟩
      · -- the lack of a victim halts the machine
        cases hafter
      · cases outcome with
        | ok x =>
            rw [hend] at hlive
            cases (hlive x rfl).1
        | error cause =>
            rw [hk, hpart]
            exact ⟨(hsettled.2 trivial).nothingTaken, nofun⟩
      · rw [hend] at hlive
        cases hlive
  | resuming page victim => exact absurd rfl (hresumes victim)
  | waiting page victim phase =>
      obtain ⟨next, hwait, rfl⟩ := waiting_ok hfault
      obtain rfl := Except.ok.inj hafter
      refine ⟨?_, fun f hf => ?_⟩
      · rcases waitStep_ok h.sound.cpu (cpuUse_eq h.session) hwait with
          ⟨-, -, rfl⟩ | ⟨_, -, -, hpaging, -⟩
        · exact ⟨fun _ => rfl, rfl, fun _ hf => hf⟩
        · exact .of_eq hpaging
      · cases next with
        | none => cases hf
        | some next => exact waitStep_ne_counting hwait (SlotPart.waiting.inj hf).2
  | notifying left phase =>
      obtain ⟨next, hnotify, rfl⟩ := notifying_ok hfault
      obtain ⟨-, hpaging, -⟩ := notifyStep_ok hnotify
      obtain ⟨hk, hpart⟩ := notified_ok hafter
      rw [hk, hpart]
      exact ⟨.of_eq hpaging, fun _ => ne_waiting_of_notice⟩

/-- Steps inside a request take nothing for a process that has ended, but for the one with which the
thread goes on after its wait. -/
theorem step_nothing (h : k.Calling m n i p call) (hexited : p.exited = true)
    (hresumes : ∀ victim, call.stage.slotPart ≠ .resuming victim)
    (hrun : k.callStep (threadOf n) i p call = some (.ok result)) :
    k.paging.NothingTaken result.2.paging ∧
      ∀ victim, result.1.phase.slotPart ≠ .waiting victim .counting := by
  cases h.step_kind hrun with
  | aside _ haside =>
      rw [haside.apart]
      exact ⟨haside.still.nothingTaken, nofun⟩
  | faults hstage hfault hafter =>
      obtain ⟨request, stage, moved⟩ := call
      obtain rfl : stage = _ := hstage
      exact h.fault_nothing hexited hresumes hfault hafter
  | ends _ _ _ halive => exact Bool.noConfusion (hexited.symm.trans halive)
  | mourns _ hnotify hafter =>
      obtain ⟨-, hpaging, -⟩ := notifyStep_ok hnotify
      rw [hafter]
      exact ⟨.of_eq hpaging, fun _ => ne_waiting_of_notice⟩

/-- A thread that waits keeps its victim until it has gone on. -/
theorem wait_step {waiting : Waiting}
    (h : k.Calling m n i p ⟨request, .faulting (.waiting page victim waiting), moved⟩)
    (hrun : k.callStep (threadOf n) i p
      ⟨request, .faulting (.waiting page victim waiting), moved⟩ = some (.ok result)) :
    ∃ stage k₁, result = (.continues ⟨request, stage, moved⟩, k₁) ∧
      stage.slotPart.victim? = some victim ∧ k₁.sessions = k.sessions := by
  obtain ⟨⟨r, k₁⟩, hfault, hrun⟩ := step_of_map hrun fun halt => ⟨halt, rfl⟩
  obtain ⟨next, hwait, rfl⟩ := waiting_ok hfault
  obtain rfl := Except.ok.inj hrun
  refine ⟨_, k₁, rfl, ?_, ?_⟩
  · cases next <;> rfl
  · rcases waitStep_ok h.sound.cpu (cpuUse_eq h.session) hwait with
      ⟨-, -, rfl⟩ | ⟨_, -, hsame, -, -⟩
    · rfl
    · exact hsame.sessions_eq

omit [Extent.Reliable σ] in
/-- A thread is refused its request because its process has ended. -/
theorem refuse_step {cause : PagingError} (hexited : p.exited = true) :
    k.callStep (threadOf n) i p ⟨request, .killing cause, moved⟩ =
      some (.ok (.answered (.failed cause), k)) := by
  show k.endProcess (threadOf n) i p _ (some cause) = _
  rw [endProcess, if_pos hexited]
  rfl

/-- A thread goes on after its wait and finds its process gone, unless it has to wait once more. -/
theorem resume_ended (h : k.Calling m n i p ⟨request, .faulting (.resuming page victim), moved⟩)
    (hexited : p.exited = true) :
    ∃ r paging stage, Paging.ResumesLate p.pid victim k.paging paging r ∧
      k.callStep (threadOf n) i p ⟨request, .faulting (.resuming page victim), moved⟩ =
        some (.ok (.continues ⟨request, stage, moved⟩, { k with paging })) ∧
      stage.slotPart = .after r ∧ ∀ cause, r = .error cause → stage = .killing cause := by
  have hend : k.live p.pid = none := by rw [h.live_eq, if_pos hexited]
  obtain ⟨r, paging, hresume, hlate⟩ := (h.paging_apart rfl rfl).resumeFault_ended hend page
  have hstep : k.callStep (threadOf n) i p ⟨request, .faulting (.resuming page victim), moved⟩ =
      some (afterFault ⟨request, .faulting (.resuming page victim), moved⟩
        (r.map (Faulting.after page), { k with paging })) := by
    show (k.faultStep (threadOf n) p (.resuming page victim)).map _ = _
    rw [faultStep, locked_eq h.sound.region_eq, hresume]
    rfl
  rw [hstep]
  cases hlate with
  | givesUp hneedless hnothing =>
      exact ⟨_, paging, .killing _, .givesUp hneedless hnothing, rfl, rfl, fun _ hr =>
        congrArg _ (Except.error.inj hr)⟩
  | evicts hfull howned howner hslots =>
      exact ⟨_, paging, .killing _, .evicts hfull howned howner hslots, rfl, rfl, fun _ hr =>
        congrArg _ (Except.error.inj hr)⟩
  | waits hfull howned hslots hstill =>
      exact ⟨_, paging, .faulting (.waiting page victim .counting),
        .waits hfull howned hslots hstill, rfl, rfl, nofun⟩

end Calling

omit [Extent.Reliable σ] in
/-- The event that a thread takes its step inside a request. -/
theorem perform_of_call (hs : k.session n = some ⟨i, .busy call⟩) (hp : k.process i = some p)
    (hcall : k.callStep (threadOf n) i p call = some (.ok result)) :
    k.perform (.advance n) =
      some (.ok (result.1.response, result.2.setPhase n result.1.phase)) := by
  show k.step n = _
  rw [step, hs, Option.bind_eq_bind, Option.bind_some]
  show (k.process i >>= fun p => (k.callStep (threadOf n) i p call).map _) = _
  rw [hp, Option.bind_eq_bind, Option.bind_some, hcall]
  obtain ⟨_ | _ | _, k₁⟩ := result <;> rfl

namespace Sound

variable {s : Session} {phase : Phase} {r : Option (Response σ)} {e : Event}

/-- When its process has ended, a thread that goes on after its wait is about to have its request
refused, unless it has to wait once more. -/
theorem resume_ended (h : k.Sound m) (hs : k.session n = some ⟨i, phase⟩)
    (hp : k.process i = some p) (hexited : p.exited = true)
    (hpart : phase.slotPart = .resuming victim) :
    ∃ r paging request stage moved, Paging.ResumesLate p.pid victim k.paging paging r ∧
      k.perform (.advance n) = some (.ok (none,
        ({ k with paging } : Kernel σ).setPhase n (.busy ⟨request, stage, moved⟩))) ∧
      stage.slotPart = .after r ∧ ∀ cause, r = .error cause → stage = .killing cause := by
  obtain ⟨request, page, moved, rfl⟩ := Phase.eq_of_resuming hpart
  obtain ⟨r, paging, stage, hlate, hcall, hafter⟩ := (h.calling hs hp).resume_ended hexited
  exact ⟨r, paging, request, stage, moved, hlate, perform_of_call hs hp hcall, hafter⟩

/-- A thread of a process that has ended takes nothing when it does not go on after a wait. -/
theorem takesNothing_of_step (h : k.Sound m) (hs : k.session n = some ⟨i, phase⟩)
    (hp : k.process i = some p) (hexited : p.exited = true)
    (hresumes : ∀ victim, phase.slotPart ≠ .resuming victim)
    (hrun : k.perform (.advance n) = some (.ok (r, k'))) : k.TakesNothing n k' := by
  cases advances_of_step hrun with
  | starts _ _ htake =>
      obtain ⟨next, cpu, -, rfl, rfl⟩ := takeCpu_ok htake
      exact .of_phase (.of_eq rfl) (by cases next <;> nofun)
  | enters => exact .of_phase ⟨fun _ => rfl, rfl, fun _ hf => hf⟩ nofun
  | calls hs' hp' hcall =>
      obtain ⟨rfl, rfl⟩ := Session.mk.inj (Option.some.inj (hs.symm.trans hs'))
      obtain rfl := Option.some.inj (hp.symm.trans hp')
      obtain ⟨hnothing, hphase⟩ := (h.calling hs hp).step_nothing hexited hresumes hcall
      exact .of_phase hnothing hphase

/-- A thread of a process that has ended takes nothing, unless it has to try its victim again. -/
theorem takesNothing_iff (h : k.Sound m) (hs : k.session n = some ⟨i, phase⟩)
    (hp : k.process i = some p) (hexited : p.exited = true)
    (hrun : k.perform (.advance n) = some (.ok (r, k'))) :
    k.TakesNothing n k' ↔ ¬ k.Retries n := by
  by_cases hpart : ∃ victim, phase.slotPart = .resuming victim
  · obtain ⟨victim, hpart⟩ := hpart
    obtain ⟨r', paging, request, stage, moved, hlate, hperform, hafter, -⟩ :=
      h.resume_ended hs hp hexited hpart
    obtain ⟨-, rfl⟩ := Prod.mk.inj (Except.ok.inj (Option.some.inj (hrun.symm.trans hperform)))
    rw [retries_iff hs hpart]
    cases hlate with
    | givesUp hneedless hnothing =>
        refine iff_of_true (.of_phase hnothing fun f hf => ?_) ?_
        · cases hafter.symm.trans hf
        · rintro ⟨hfull, howned⟩
          rcases hneedless with hfree | howner
          · exact hfree hfull
          · rw [howner] at howned
            cases howned
    | evicts hfull howned howner =>
        refine iff_of_false (fun htakes => ?_) fun hneeds => hneeds ⟨hfull, howned⟩
        rw [← htakes.nothing.owner_eq] at howned
        cases howned.symm.trans (congrArg Option.isSome howner)
    | waits hfull howned =>
        refine iff_of_false (fun htakes => htakes.awake ?_) fun hneeds => hneeds ⟨hfull, howned⟩
        have hs' : ({ k with paging } : Kernel σ).sessions[n]? = some ⟨i, phase⟩ := hs
        exact ⟨_, victim, getElem?_setPhase_self hs' _, hafter⟩
  · refine iff_of_true (h.takesNothing_of_step hs hp hexited (not_exists.1 hpart) hrun) ?_
    rintro ⟨t, f, ht, hf, -⟩
    obtain rfl := Option.some.inj (hs.symm.trans ht)
    exact hpart ⟨f, hf⟩

/-- A thread whose process ended during its wait gives no other answer than that. -/
theorem orphan_advances (h : k.Sound m) (horphan : k.Orphaned n i p.pid)
    (hp : k.process i = some p) (hexited : p.exited = true)
    (hrun : k.perform (.advance n) = some (.ok (r, k'))) :
    r = none ∧ k'.Orphaned n i p.pid ∨ r = some (.failed (.noSuchProcess p.pid)) := by
  obtain ⟨request, stage, moved, hs, hvictim | rfl⟩ := horphan
  · -- it waits, or it goes on after its wait
    cases stage with
    | faulting fault =>
        cases fault with
        | waiting page victim waiting =>
            cases advances_of_step hrun with
            | starts hs' | enters hs' => cases hs.symm.trans hs'
            | calls hs' hp' hcall =>
                obtain ⟨rfl, hphase⟩ := Session.mk.inj (Option.some.inj (hs.symm.trans hs'))
                obtain rfl := Phase.busy.inj hphase
                obtain ⟨stage, k₁, rfl, hstage, hsessions⟩ := (h.calling hs hp').wait_step hcall
                exact .inl ⟨rfl, .of_setPhase hs hsessions (.inl (congrArg Option.isSome hstage))⟩
        | resuming page victim =>
            obtain ⟨r', paging, request', stage', moved', hlate, hperform, hafter, hkilling⟩ :=
              h.resume_ended hs hp hexited rfl
            obtain ⟨rfl, rfl⟩ :=
              Prod.mk.inj (Except.ok.inj (Option.some.inj (hrun.symm.trans hperform)))
            refine .inl ⟨rfl, .of_setPhase hs rfl ?_⟩
            cases hlate with
            | givesUp | evicts => exact .inr (hkilling _ rfl)
            | waits => exact .inl (congrArg (fun part => part.victim?.isSome) hafter)
        | _ => cases hvictim
    | _ => cases hvictim
  · have hrefused := perform_of_call hs hp (Calling.refuse_step hexited)
    obtain ⟨rfl, -⟩ := Prod.mk.inj (Except.ok.inj (Option.some.inj (hrun.symm.trans hrefused)))
    exact .inr rfl

end Sound

end Steps

/-! ## Runs -/

section Runs

variable [Extent σ] [Extent.Reliable σ] {c : Config} {extent : σ} {phase : Phase} {page f : Nat}
  {trace later : List (Event × Option (Response σ))}

/-- Whatever happens besides, the next step of a thread refuses its request because its process has
ended. -/
def RefusesNext (k : Kernel σ) (n : Nat) (pid : Pid) : Prop :=
  ∀ between k', Run k between k' → (∀ x ∈ between, x.1 ≠ .advance n) →
    ∃ k'', k'.perform (.advance n) = some (.ok (some (.failed (.noSuchProcess pid)), k''))

variable (hintact : Extent.Reliable.Intact extent) (hboot : boot c extent = .ok (.ok k₀))
  (hrun : Run k₀ trace k)
include hintact hboot hrun

/-- A thread that is about to be refused its request is where it is until it takes a step. -/
theorem Run.refusesNext {request : Request} {moved : List UInt8}
    (hs : k.session n = some ⟨i, .busy ⟨request, .killing (.noSuchProcess p.pid), moved⟩⟩)
    (hp : k.process i = some p) (hexited : p.exited = true) : k.RefusesNext n p.pid := by
  intro between k' hbetween hothers
  have hs' : k'.session n = some ⟨i, .busy ⟨request, .killing (.noSuchProcess p.pid), moved⟩⟩ := by
    induction hbetween with
    | nil => exact hs
    | step hbetween he hstep ih =>
        obtain ⟨m, -, hsound⟩ := (hrun.trans hbetween).simulated hintact hboot
        have hkept := ih fun x hx => hothers x (List.mem_append.2 (.inl hx))
        exact (hsound.perform_event he hstep).session_kept hkept nofun
          (hothers _ (List.mem_append.2 (.inr (List.mem_singleton_self _))))
  exact ⟨_, perform_of_call hs' (hrun.exited_later hintact hboot hp hexited hbetween)
    (Calling.refuse_step hexited)⟩

/-- As long as it has not answered, a thread whose process ended during its wait is waiting or about
to be refused its request. -/
theorem Run.orphaned_later (horphan : k.Orphaned n i p.pid) (hp : k.process i = some p)
    (hexited : p.exited = true) (hlater : Run k later k₂) (hsilent : Unanswered n later) :
    k₂.Orphaned n i p.pid := by
  induction hlater with
  | nil => exact horphan
  | @step before k₁ k₂ e r hlater he hstep ih =>
      have hrun' := hrun.trans hlater
      obtain ⟨m, -, hsound⟩ := hrun'.simulated hintact hboot
      have horphan' := ih fun x hx => hsilent x (List.mem_append.2 (.inl hx))
      -- only its own steps move the thread on
      by_cases hown : e = .advance n
      · subst hown
        have hnone : r = none :=
          hsilent _ (List.mem_append.2 (.inr (List.mem_singleton_self _))) rfl
        have hp' := hrun.exited_later hintact hboot hp hexited hlater
        rcases hsound.orphan_advances horphan' hp' hexited hstep with ⟨-, horphan⟩ | hrefused
        · exact horphan
        · cases hnone.symm.trans hrefused
      · obtain ⟨request, stage, moved, hs, hstage⟩ := horphan'
        exact ⟨request, stage, moved,
          (hsound.perform_event he hstep).session_kept hs nofun hown, hstage⟩

/-- Threads of a process that has ended take nothing from the others: by their steps no page leaves
its frame, no slot is taken, and they do not begin to wait for one, unless a thread goes on after a
wait and has to try its victim again. A thread that goes on has its request refused next, unless it
has to wait once more; and one that waited when its process ended gives no other answer. -/
theorem Run.orphans_take_nothing (hp : k.process i = some p) (hexited : p.exited = true)
    (hlater : Run k later k₂) (hs : k₂.session n = some ⟨i, phase⟩) :
    (∀ r k₃, k₂.perform (.advance n) = some (.ok (r, k₃)) →
        (k₂.TakesNothing n k₃ ↔ ¬ k₂.Retries n)) ∧
      (∀ victim, phase.slotPart = .resuming victim →
        ∃ k₃, k₂.perform (.advance n) = some (.ok (none, k₃)) ∧
          (k₃.RefusesNext n p.pid ∨
            k₂.Retries n ∧ k₂.paging.swap.free = [] ∧ k₃.BeginsToWait n)) ∧
      ∀ phase₀ f, k.session n = some ⟨i, phase₀⟩ → phase₀.victim? = some f →
        Unanswered n later → ∀ response k₃,
          k₂.perform (.advance n) = some (.ok (some response, k₃)) →
            response = .failed (.noSuchProcess p.pid) := by
  have hrun₂ := hrun.trans hlater
  obtain ⟨m, -, hsound⟩ := hrun₂.simulated hintact hboot
  have hp₂ := hrun.exited_later hintact hboot hp hexited hlater
  refine ⟨fun r k₃ hstep => hsound.takesNothing_iff hs hp₂ hexited hstep,
    fun victim hpart => ?_, fun phase₀ f hs₀ hvictim hsilent response k₃ hstep => ?_⟩
  · obtain ⟨r, paging, request, stage, moved, hlate, hperform, hafter, hkilling⟩ :=
      hsound.resume_ended hs hp₂ hexited hpart
    have hs₃ : (({ k₂ with paging } : Kernel σ).setPhase n
        (.busy ⟨request, stage, moved⟩)).session n = some ⟨i, .busy ⟨request, stage, moved⟩⟩ := by
      have hs' : ({ k₂ with paging } : Kernel σ).sessions[n]? = some ⟨i, phase⟩ := hs
      exact getElem?_setPhase_self hs' _
    refine ⟨_, hperform, ?_⟩
    cases hlate with
    | givesUp | evicts =>
        obtain rfl := hkilling _ rfl
        exact .inl ((hrun₂.step rfl hperform).refusesNext hintact hboot hs₃ hp₂ hexited)
    | waits hfull howned hslots =>
        exact .inr ⟨(retries_iff hs hpart).2 ⟨hfull, howned⟩, hslots, _, victim, hs₃, hafter⟩
  · have horphan := hrun.orphaned_later hintact hboot (.of_victim hs₀ hvictim p.pid) hp hexited
      hlater hsilent
    rcases hsound.orphan_advances horphan hp₂ hexited hstep with ⟨hnone, -⟩ | hrefused
    · cases hnone
    · exact Option.some.inj hrefused

end Runs

/-! ## Two threads of a process that ends -/

/-- A thread of the first process fills both frames. A thread of the second process pushes one page
out to the only slot, and sleeps with the frame of the other page as its victim. Then another thread
ends the second process. -/
def outlivedEvents : List Event :=
  [.spawn smallImage, .spawn smallImage, .start 0, .start 1, .start 1,
    .advance 0, .advance 1, .advance 2, .advance 0] ++
    turn 0 (.write 1 5) 4 ++ turn 0 (.write 2 5) 4 ++ turn 0 .yield 3 ++
    List.replicate 2 (.advance 1) ++ turn 1 (.read 0) 4 ++ turn 1 (.read 1) 8 ++
    List.replicate 2 (.advance 2) ++ turn 2 .exit 7 ++ List.replicate 2 (.advance 0)

/-- The sleeper is about to go on, and a frame of its process is still free. -/
def idleEvents : List Event :=
  outlivedEvents ++ turn 0 .leave 3 ++ List.replicate 6 (.advance 1)

/-- The thread of the first process loads its page again, and one more page, which takes the free
frame and the slot. Then the sleeper is about to go on. -/
def busyEvents : List Event :=
  outlivedEvents ++ turn 0 (.read 1) 8 ++ turn 0 (.read 3) 4 ++ turn 0 .leave 3 ++
    List.replicate 6 (.advance 1)

/-- The thread takes nothing, and has its request refused next. -/
theorem orphans_take_nothing_pair : ∃ (k₀ k k' : Kernel MemoryExtent)
    (trace : List (Event × Option (Response MemoryExtent))) (p : UserProcess),
    boot pairConfig (⟨.zeros 1⟩ : MemoryExtent) = .ok (.ok k₀) ∧
      k₀.performAll idleEvents = some (trace, k) ∧ Run k₀ trace k ∧ k.process 1 = some p ∧
      p.exited = true ∧ k.WaitsWith 1 1 ∧ k.perform (.advance 1) = some (.ok (none, k')) ∧
      k.TakesNothing 1 k' ∧ k'.RefusesNext 1 p.pid := by
  have hlast : holdsAfter pairConfig idleEvents (fun k => decide
      ((k.process 1).map UserProcess.exited = some true ∧
        k.session 1 = some ⟨1, .busy ⟨.read 1, .faulting (.resuming 1 1), []⟩⟩ ∧
        k.paging.frameTable.free ≠ [])) = true := by
    decide +kernel
  obtain ⟨k₀, k, trace, hboot, hall, hrun, hlast⟩ := run_of_holdsAfter (by decide) hlast
  obtain ⟨hended, hs, hfree⟩ := of_decide_eq_true hlast
  obtain ⟨p, hp, hexited⟩ := Option.map_eq_some_iff.1 hended
  have hintact : Extent.Reliable.Intact (⟨.zeros 1⟩ : MemoryExtent) :=
    MemoryExtent.intact_zeros (by decide)
  obtain ⟨htakes, hresumes, -⟩ := hrun.orphans_take_nothing hintact hboot hp hexited .nil hs
  -- a frame is free, so the thread need not try its victim
  have hneedless : ¬ k.Retries 1 := fun hretries => hfree ((retries_iff hs rfl).1 hretries).1
  obtain ⟨k', hperform, hnext⟩ := hresumes 1 rfl
  exact ⟨k₀, k, k', trace, p, hboot, hall, hrun, hp, hexited, ⟨_, hs, rfl⟩, hperform,
    (htakes _ k' hperform).2 hneedless, hnext.resolve_right fun hwaits => hneedless hwaits.1⟩

/-- Whether the second process has ended, a thread of it is about to go on after its wait, and its
next step is to begin to wait once more. -/
def waitsAgain (k : Kernel MemoryExtent) : Bool :=
  decide ((k.process 1).map UserProcess.exited = some true ∧
    k.session 1 = some ⟨1, .busy ⟨.read 1, .faulting (.resuming 1 1), []⟩⟩) &&
    match k.perform (.advance 1) with
    | some (.ok (_, k')) =>
        decide (k'.session 1 = some ⟨1, .busy ⟨.read 1, .faulting (.waiting 1 1 .counting), []⟩⟩)
    | _ => false

/-- A thread may begin to wait for a swap slot long after its process has ended. -/
theorem orphan_waits_again : ∃ (k₀ k k' : Kernel MemoryExtent)
    (trace : List (Event × Option (Response MemoryExtent))) (p : UserProcess) (s : Session)
    (r : Option (Response MemoryExtent)),
    boot pairConfig (⟨.zeros 1⟩ : MemoryExtent) = .ok (.ok k₀) ∧
      k₀.performAll busyEvents = some (trace, k) ∧ Run k₀ trace k ∧ k.process 1 = some p ∧
      p.exited = true ∧ k.session 1 = some s ∧ s.process = 1 ∧
      k.perform (.advance 1) = some (.ok (r, k')) ∧ k'.BeginsToWait 1 := by
  have hlast : holdsAfter pairConfig busyEvents waitsAgain = true := by decide +kernel
  obtain ⟨k₀, k, trace, hboot, hall, hrun, hlast⟩ := run_of_holdsAfter (by decide) hlast
  rw [waitsAgain, Bool.and_eq_true, decide_eq_true_iff] at hlast
  obtain ⟨⟨hended, hs⟩, hlast⟩ := hlast
  obtain ⟨p, hp, hexited⟩ := Option.map_eq_some_iff.1 hended
  split at hlast
  · rename_i r k' hperform
    exact ⟨k₀, k, k', trace, p, _, r, hboot, hall, hrun, hp, hexited, hs, rfl, hperform,
      _, 1, of_decide_eq_true hlast, rfl⟩
  · cases hlast

end Kernel

end DemandPaging
