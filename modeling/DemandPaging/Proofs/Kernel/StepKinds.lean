import DemandPaging.Proofs.Kernel.Simulation
import DemandPaging.Proofs.Kernel.Turns

/-!
# The kinds of steps inside a request

As far as other threads are concerned there are four kinds of steps that a thread takes inside a
request (`Calling.step_kind`). Most steps have nothing to do with the wait for swap slots
(`Kernel.Aside`). The others are a part of a miss, the end of the process, or a part of the waking
that follows such an end. Only the end of a process changes what processes there are.
-/

namespace DemandPaging.Kernel

variable {σ : Type}

/-- A step inside a request that has nothing to do with the wait. -/
structure Aside (k : Kernel σ) (result : After σ) : Prop where
  threads : k.SameThreads result.2
  waits : k.SameWaits result.2
  still : k.paging.Still result.2.paging
  apart : result.1.phase.slotPart = .apart

variable {k k' : Kernel σ} {n place : Nat} {p : UserProcess} {call : Call} {result : After σ}

/-! ## Steps that have nothing to do with the wait -/

namespace Aside

theorem same (h : result.2 = k) (hapart : result.1.phase.slotPart = .apart) :
    k.Aside result := by
  obtain ⟨after, k1⟩ := result
  obtain rfl : k1 = k := h
  exact ⟨.refl _, .refl _, .refl _, hapart⟩

theorem withProcessor {processor : Processor} (h : result.2 = k.withProcessor processor)
    (hapart : result.1.phase.slotPart = .apart) : k.Aside result := by
  obtain ⟨after, k1⟩ := result
  obtain rfl : k1 = k.withProcessor processor := h
  exact ⟨.withProcessor k processor, ⟨rfl, rfl, rfl, rfl⟩, .of_eq rfl rfl rfl, hapart⟩

theorem withPaging {paging : Paging σ} (h : result.2 = { k with paging })
    (hstill : k.paging.Still paging) (hapart : result.1.phase.slotPart = .apart) :
    k.Aside result := by
  obtain ⟨after, k1⟩ := result
  obtain rfl : k1 = { k with paging } := h
  exact ⟨.withPaging k paging, ⟨rfl, rfl, rfl, rfl⟩, hstill, hapart⟩

theorem withCpu {cpu : SleepLock} (h : result.2 = { k with cpu })
    (hapart : result.1.phase.slotPart = .apart) : k.Aside result := by
  obtain ⟨after, k1⟩ := result
  obtain rfl : k1 = { k with cpu } := h
  exact ⟨.withCpu k cpu, ⟨rfl, rfl, rfl, rfl⟩, .refl _, hapart⟩

end Aside

theorem afterMiss_ok (h : k.afterMiss call = .ok result) :
    result.2 = k ∧ result.1.phase.slotPart = .apart := by
  rw [afterMiss] at h
  split at h <;> obtain rfl := Except.ok.inj h <;> exact ⟨rfl, rfl⟩

theorem afterEnd_ok {cause : Option PagingError} (h : k.afterEnd call cause = .ok result) :
    result.2 = k ∧ result.1.phase.slotPart = .apart := by
  cases cause <;> obtain rfl := Except.ok.inj h <;> exact ⟨rfl, rfl⟩

theorem trapped_ok {trap : Trap} (h : k.trapped call trap = .ok result) :
    result.2 = k ∧ result.1.phase.slotPart = .apart := by
  cases trap with
  | miss =>
      obtain rfl := Except.ok.inj h
      exact ⟨rfl, rfl⟩
  | readOnly | badFrame =>
      obtain ⟨-, rfl⟩ := fail_ok h
      exact ⟨rfl, rfl⟩

theorem access_aside (h : k.access call = .ok result) : k.Aside result := by
  rw [access] at h
  split at h
  · obtain ⟨⟨r, processor⟩, -, h⟩ := ok_of_bind h
    cases r with
    | ok byte =>
        obtain rfl := Except.ok.inj h
        exact .withProcessor rfl rfl
    | error trap =>
        obtain ⟨hk, hapart⟩ := trapped_ok h
        exact .withProcessor hk hapart
  · obtain ⟨⟨r, processor⟩, -, h⟩ := ok_of_bind h
    cases r with
    | ok byte =>
        obtain rfl := Except.ok.inj h
        exact .withProcessor rfl rfl
    | error trap =>
        obtain ⟨hk, hapart⟩ := trapped_ok h
        exact .withProcessor hk hapart
  · obtain rfl := Except.ok.inj h
    exact .same rfl rfl

theorem moveBytes_aside {frame : Nat} (h : k.moveBytes call frame = .ok result) :
    k.Aside result := by
  obtain ⟨bytes, -, h⟩ := ok_of_bind h
  split at h
  · obtain ⟨processor, -, h⟩ := ok_of_bind h
    obtain rfl := Except.ok.inj h
    exact .withProcessor rfl rfl
  · obtain rfl := Except.ok.inj h
    exact .same rfl rfl

/-! ## Parts of a miss -/

theorem afterFault_ok {x : Except PagingError (Option Faulting) × Kernel σ}
    (h : Calling.afterFault call x = .ok result) : result.2 = x.2 := by
  obtain ⟨cause | next, k1⟩ := x
  · obtain ⟨-, rfl⟩ := fail_ok h
    rfl
  · cases next with
    | none => exact (afterMiss_ok h).1
    | some phase =>
        obtain rfl := Except.ok.inj h
        rfl

/-- What a thread has to do with the wait when the tables were unlocked after a part of a fault. -/
theorem handled_ok {r : Except PagingError Paging.MissResult} {page : Nat}
    (hrun : Calling.afterFault call (r.map (Faulting.after page), k') = .ok result) :
    result.2 = k' ∧ result.1.phase.slotPart = .after r := by
  cases r with
  | error cause =>
      obtain ⟨-, rfl⟩ := fail_ok hrun
      exact ⟨rfl, rfl⟩
  | ok outcome =>
      cases outcome with
      | loaded wakeUps =>
          cases wakeUps with
          | zero => exact afterMiss_ok hrun
          | succ wakeUps =>
              obtain rfl := Except.ok.inj hrun
              exact ⟨rfl, rfl⟩
      | needsSlot victim =>
          obtain rfl := Except.ok.inj hrun
          exact ⟨rfl, rfl⟩

/-- What a thread has to do with the wait when it has taken a step to wake others. -/
theorem notified_ok {left : Nat} {next : Option Notifying}
    (hrun : Calling.afterFault call
      (.ok (next.elim (Faulting.afterNotice left) (some ∘ .notifying left)), k') = .ok result) :
    result.2 = k' ∧ result.1.phase.slotPart =
      next.elim (.afterNotice (some left)) (.waking (some left)) := by
  cases next with
  | none =>
      cases left with
      | zero => exact afterMiss_ok hrun
      | succ left =>
          obtain rfl := Except.ok.inj hrun
          exact ⟨rfl, rfl⟩
  | some phase =>
      obtain rfl := Except.ok.inj hrun
      exact ⟨rfl, rfl⟩

/-! ## The kinds -/

variable [Extent σ] [Extent.Reliable σ]

/-- The kind of a step inside a request. -/
inductive StepKind (k : Kernel σ) (n place : Nat) (p : UserProcess) (call : Call) :
    After σ → Prop where
  /-- it has nothing to do with the wait for swap slots -/
  | aside {result : After σ} (hold : call.stage.slotPart = .apart) (haside : k.Aside result) :
      StepKind k n place p call result
  /-- it is a part of a miss -/
  | faults {result : After σ} {phase : Faulting} {r : Except PagingError (Option Faulting)}
      {k' : Kernel σ} (hstage : call.stage = .faulting phase)
      (hfault : k.faultStep (threadOf n) p phase = some (.ok (r, k')))
      (hafter : Calling.afterFault call (r, k') = .ok result) : StepKind k n place p call result
  /-- it ends the process -/
  | ends {cause : Option PagingError} {paging : Paging σ}
      (hold : call.stage.slotPart = .apart) (huses : (Phase.busy call).usesCache = true)
      (hbare : (Phase.busy call).pins = 0) (hlive : p.exited = false)
      (hreclaimed : Paging.Reclaimed p.pid k.paging paging) :
      StepKind k n place p call
        (.continues { call with stage := .mourning cause .checking },
          markExited { k with paging } place)
  /-- the process has ended, and it is a part of the waking of all who wait -/
  | mourns {result : After σ} {cause : Option PagingError} {phase : Notifying}
      {next : Option Notifying} (hstage : call.stage = .mourning cause phase)
      (hnotify : k.notifyStep (threadOf n) true phase = some (.ok (next, result.2)))
      (hafter : result.1.phase.slotPart = next.elim (.afterNotice none) (.waking none)) :
      StepKind k n place p call result

namespace Calling

variable {m : FlatMachine} {request : Request} {moved : List UInt8}
  {callers : Multiset Nat}

/-- A copy pins its next page, which changes neither owners nor free frames. -/
theorem pin_aside (h : k.Calling m n place p ⟨request, .pinning, moved⟩ callers)
    (hrun : k.pinNext (threadOf n) p ⟨request, .pinning, moved⟩ = some (.ok result)) :
    k.Aside result := by
  rw [pinNext] at hrun
  split at hrun
  · obtain rfl := Except.ok.inj (Option.some.inj hrun)
    exact .same rfl rfl
  · rename_i hmore
    rw [not_or, Nat.not_le, Nat.not_le] at hmore
    obtain ⟨⟨r, k1⟩, hlocked, hrun⟩ := step_of_map hrun fun halt => ⟨halt, rfl⟩
    obtain ⟨paging, hact, rfl⟩ := locked_ok h.sound.region_eq hlocked
    rcases (h.paging_bare rfl rfl rfl).pinForCopy_run h.live_or hmore.2 request.isWriting with
      ⟨r', s', hpin, hpinning⟩ | ⟨frame, hhalt, -⟩
    · obtain ⟨rfl, rfl⟩ := Prod.mk.inj (Except.ok.inj (hact.symm.trans hpin))
      cases hpinning with
      | pinned _ _ _ _ _ _ hstill =>
          obtain rfl := Except.ok.inj hrun
          exact .withPaging rfl hstill rfl
      | readOnly | absent | ended =>
          obtain rfl := Except.ok.inj hrun
          exact .withPaging rfl (.refl _) rfl
    · rw [hhalt] at hact
      cases hact

/-- The pin of a copy is taken off a frame that has an owner, so the frame does not become free. -/
theorem unpin_aside {frame : Nat}
    (h : k.Calling m n place p ⟨request, .unpinning frame, moved⟩ callers)
    (hrun : k.lockedOrHalt (threadOf n) (Paging.changeFrames (·.unpin frame))
      (·.proceed ⟨request, .unpinning frame, moved⟩ .pinning) = some (.ok result)) :
    k.Aside result := by
  obtain ⟨paging, hact, hrun⟩ := lockedOrHalt_ok h.sound.region_eq hrun
  obtain rfl := Except.ok.inj hrun
  have hpaging : k.paging.Sound k.live (some p.pid)
      (frame ::ₘ (k.othersVictims n + callers)) m.page := h.paging rfl
  obtain ⟨s', hunpin, -, -, -, hstill⟩ := hpaging.unpin_run
  obtain ⟨-, rfl⟩ := Prod.mk.inj (Except.ok.inj (hact.symm.trans hunpin))
  exact .withPaging rfl (hstill (h.holds rfl)) rfl

/-- A thread that ends saves what the cache knows. -/
theorem part_aside (h : k.Calling m n place p ⟨request, .parting, moved⟩ callers)
    (hrun : k.callStep (threadOf n) place p ⟨request, .parting, moved⟩ = some (.ok result)) :
    k.Aside result := by
  change (if p.exited then some (k.proceed _ (.leaving none)) else _) = _ at hrun
  split at hrun
  · obtain rfl := Except.ok.inj (Option.some.inj hrun)
    exact .same rfl rfl
  · obtain ⟨⟨r, k1⟩, hlocked, hrun⟩ := step_of_map hrun fun halt => ⟨halt, rfl⟩
    obtain ⟨paging, hact, rfl⟩ := locked_ok h.sound.region_eq hlocked
    obtain ⟨s', hsave, -, -, hstill⟩ := (h.paging_bare rfl rfl rfl).saveCache_run
    obtain ⟨rfl, rfl⟩ := Prod.mk.inj (Except.ok.inj (hact.symm.trans hsave))
    obtain rfl := Except.ok.inj hrun
    exact .withPaging rfl hstill rfl

/-- A process ends, unless it has ended before. -/
theorem end_kind (h : k.Calling m n place p call callers) (huses : call.stage.usesCache = true)
    (hvictims : call.stage.victims = 0) (hcopied : call.stage.copied = 0)
    (hold : call.stage.slotPart = .apart) {cause : Option PagingError}
    (hrun : k.endProcess (threadOf n) place p call cause = some (.ok result)) :
    k.StepKind n place p call result := by
  rw [endProcess] at hrun
  split at hrun
  · obtain ⟨hk, hapart⟩ := afterEnd_ok (Option.some.inj hrun)
    exact .aside hold (.same hk hapart)
  · rename_i halive
    obtain ⟨paging, hact, hrun⟩ := lockedOrHalt_ok h.sound.region_eq hrun
    obtain rfl := Except.ok.inj hrun
    have hlive : k.live p.pid = some p := by rw [h.live_eq, if_neg halive]
    obtain ⟨s', hreclaim, -, hreclaimed⟩ :=
      (h.paging_bare huses hvictims hcopied).reclaim_run hlive
    obtain ⟨-, rfl⟩ := Prod.mk.inj (Except.ok.inj (hact.symm.trans hreclaim))
    have hbare : (Phase.busy call).pins = 0 := congr (congrArg HAdd.hAdd hvictims) hcopied
    exact .ends hold huses hbare (Bool.not_eq_true _ ▸ halive) hreclaimed

/-- The first step of a request. -/
theorem begin_kind (h : k.Calling m n place p ⟨request, .begun, moved⟩ callers)
    (hrun : k.beginCall (threadOf n) place p ⟨request, .begun, moved⟩ = some (.ok result)) :
    k.StepKind n place p ⟨request, .begun, moved⟩ result := by
  have hordinary : request.isOrdinary = true := h.fits.ordinary
  cases request with
  | read a | write a v | copyOut a count | copyIn a data =>
      refine .aside rfl ?_
      obtain hrun := Option.some.inj hrun
      split at hrun <;> obtain rfl := Except.ok.inj hrun <;> exact .same rfl rfl
  | yield =>
      obtain ⟨paging, hact, hrun⟩ := lockedOrHalt_ok h.sound.region_eq hrun
      obtain rfl := Except.ok.inj hrun
      obtain ⟨s', hsave, -, -, hstill⟩ := (h.paging_bare rfl rfl rfl).saveCache_run
      obtain ⟨-, rfl⟩ := Prod.mk.inj (Except.ok.inj (hact.symm.trans hsave))
      exact .aside rfl (.withPaging rfl hstill rfl)
  | exit => exact h.end_kind rfl rfl rfl rfl hrun
  | leave =>
      obtain rfl := Except.ok.inj (Option.some.inj hrun)
      exact .aside rfl (.same rfl rfl)
  | _ => cases hordinary

/-- Every step of a thread inside a request is of one of the kinds. -/
theorem step_kind (h : k.Calling m n place p call callers)
    (hrun : k.callStep (threadOf n) place p call = some (.ok result)) :
    k.StepKind n place p call result := by
  obtain ⟨request, stage, moved⟩ := call
  cases stage with
  | begun => exact h.begin_kind hrun
  | accessing => exact .aside rfl (access_aside (Option.some.inj hrun))
  | faulting phase =>
      obtain ⟨⟨r, k1⟩, hfault, hrun⟩ := step_of_map hrun fun halt => ⟨halt, rfl⟩
      exact .faults rfl hfault hrun
  | pinning => exact .aside rfl (h.pin_aside hrun)
  | moving frame => exact .aside rfl (moveBytes_aside (Option.some.inj hrun))
  | unpinning frame => exact .aside rfl (h.unpin_aside hrun)
  | killing cause => exact h.end_kind rfl rfl rfl rfl hrun
  | mourning cause phase =>
      obtain ⟨⟨next, k1⟩, hnotify, hrun⟩ := step_of_map hrun fun halt => ⟨halt, rfl⟩
      cases next with
      | none =>
          obtain ⟨after, k2⟩ := result
          obtain ⟨rfl, hapart⟩ := afterEnd_ok hrun
          exact .mourns rfl hnotify hapart
      | some phase' =>
          obtain rfl := Except.ok.inj hrun
          exact .mourns rfl hnotify rfl
  | yielding =>
      obtain ⟨k1, hleave, hrun⟩ := ok_of_bind (Option.some.inj hrun)
      obtain rfl := Except.ok.inj hrun
      obtain ⟨cpu, -, rfl⟩ := leaveCpu_ok hleave
      exact .aside rfl (.withCpu rfl rfl)
  | returning phase =>
      obtain ⟨⟨stage, k1⟩, htake, hrun⟩ := step_of_map hrun fun halt => ⟨halt, rfl⟩
      obtain rfl := Except.ok.inj hrun
      obtain ⟨next, cpu, -, rfl, rfl⟩ := takeCpu_ok htake
      refine .aside rfl (.withCpu rfl ?_)
      cases next <;> rfl
  | flushing =>
      obtain rfl := Except.ok.inj (Option.some.inj hrun)
      exact .aside rfl (.withProcessor rfl rfl)
  | parting => exact .aside rfl (h.part_aside hrun)
  | leaving failure =>
      obtain ⟨k1, hleave, hrun⟩ := ok_of_bind (Option.some.inj hrun)
      obtain ⟨cpu, -, rfl⟩ := leaveCpu_ok hleave
      cases failure with
      | none =>
          obtain rfl := Except.ok.inj hrun
          exact .aside rfl (.withCpu rfl rfl)
      | some cause => cases hrun

end Calling

end DemandPaging.Kernel
