import DemandPaging.Proofs.Kernel.StepKinds

/-!
# The kinds of events

What programs bring about is a step of a thread, the end of a process, or an event that touches no
frame (`Sound.perform_event`). What an event does not touch can be read off its kind: threads that
do not take the step stay where they are, processes that have ended stay so, and whoever keeps a
frame pinned finds the page in it that was there before, unless the page's process has ended.
-/

namespace DemandPaging.Kernel

variable {σ : Type} {k k' : Kernel σ} {n place i f : Nat} {p : UserProcess} {call : Call}
  {cause : Option PagingError} {paging : Paging σ}

/-! ## The end of a process -/

/-- The kernel after a thread has ended its process. -/
def afterEnding (k : Kernel σ) (n place : Nat) (call : Call) (cause : Option PagingError)
    (paging : Paging σ) : Kernel σ :=
  (markExited { k with paging } place).setPhase n
    (.busy { call with stage := .mourning cause .checking })

theorem session_afterEnding (hi : i ≠ n) :
    (k.afterEnding n place call cause paging).session i = k.session i :=
  (getElem?_setPhase (markExited { k with paging } place) n _ i).trans (if_neg hi)

theorem process_afterEnding (hi : i ≠ place) :
    (k.afterEnding n place call cause paging).process i = k.process i :=
  (getElem?_markExited { k with paging } place i).trans (if_neg hi)

theorem othersVictims_afterEnding :
    (k.afterEnding n place call cause paging).othersVictims n = k.othersVictims n :=
  othersVictims_setPhase (markExited { k with paging } place) n _

/-- A thread that has the processor, and has nothing pinned, gives back all that its process has. -/
structure Ends [Extent σ] [Extent.Reliable σ] (k : Kernel σ) (n place : Nat) (p : UserProcess)
    (call : Call) (paging : Paging σ) : Prop where
  session : k.session n = some ⟨place, .busy call⟩
  holding : (Phase.busy call).cpuUse = .holding
  bare : (Phase.busy call).pins = 0
  process : k.process place = some p
  alive : p.exited = false
  reclaimed : Paging.Reclaimed p.pid k.paging paging

variable [Extent σ] [Extent.Reliable σ] {m : FlatMachine} {result : After σ}
  {callers : Multiset Nat} {e : Event}

/-- The thread is about to wake all who wait. -/
theorem Ends.session_eq (h : k.Ends n place p call paging) :
    (k.afterEnding n place call cause paging).session n =
      some ⟨place, .busy { call with stage := .mourning cause .checking }⟩ := by
  have hs : (markExited { k with paging } place).sessions[n]? = _ := h.session
  exact getElem?_setPhase_self hs _

/-- The process has ended. -/
theorem Ends.process_eq (h : k.Ends n place p call paging) :
    (k.afterEnding n place call cause paging).process place = some { p with exited := true } :=
  (getElem?_markExited { k with paging } place place).trans
    ((if_pos rfl).trans (congrArg (Option.map _) h.process))

/-! ## The kinds -/

/-- What an event does to those whom it is not about: nothing, unless a process ends. -/
inductive EventKind (k : Kernel σ) (callers : Multiset Nat) : Event → Kernel σ → Prop where
  /-- no thread takes a step, and no frame is touched -/
  | quiet {e : Event} {k' : Kernel σ} (he : ∀ n, e ≠ .advance n)
      (hprocesses : ∀ i p, k.process i = some p → k'.process i = some p)
      (hsessions : ∀ i s, k.session i = some s → s.phase ≠ .ready → k'.session i = some s)
      (hframes : k'.paging.frameTable = k.paging.frameTable) : EventKind k callers e k'
  /-- a thread takes a step, and the frames that others keep pinned have the pages that they had.
  So has the thread's own victim if it is still that -/
  | moves {n : Nat} {s : Session} {k' : Kernel σ} {phase : Phase} (hs : k.session n = some s)
      (hsame : k.SameThreads k')
      (hspares : Paging.Spares (k.othersVictims n + callers) k.paging k'.paging)
      (hown : ∀ f, s.phase.victim? = some f → phase.victim? = some f →
        k'.paging.frameTable.owner f = k.paging.frameTable.owner f) :
      EventKind k callers (.advance n) (k'.setPhase n phase)
  /-- a thread ends its process -/
  | ends {n place : Nat} {p : UserProcess} {call : Call} {cause : Option PagingError}
      {paging : Paging σ} (hends : k.Ends n place p call paging) :
      EventKind k callers (.advance n) (k.afterEnding n place call cause paging)

/-- A step that leaves the frames alone. -/
theorem EventKind.of_owner_eq {s : Session} {phase : Phase} (hs : k.session n = some s)
    (hsame : k.SameThreads k') (hstill : k.paging.Still k'.paging) :
    k.EventKind callers (.advance n) (k'.setPhase n phase) :=
  .moves hs hsame (hstill.spares _) fun f _ _ => hstill.owner_eq f

/-- A part of a miss leaves the frames of the others alone. -/
theorem Calling.fault_event {request : Request} {moved : List UInt8} {phase : Faulting}
    {r : Except PagingError (Option Faulting)}
    (h : k.Calling m n place p ⟨request, .faulting phase, moved⟩ callers)
    (hfault : k.faultStep (threadOf n) p phase = some (.ok (r, k')))
    (hrun : afterFault ⟨request, .faulting phase, moved⟩ (r, k') = .ok result) :
    k.EventKind callers (.advance n) (result.2.setPhase n result.1.phase) := by
  have hs : k.session n = some _ := h.session
  rw [afterFault_ok hrun]
  cases phase with
  | missing a =>
      obtain ⟨_, paging, hact, rfl, rfl⟩ := missing_ok h.sound.region_eq hfault
      obtain ⟨r', s', hmiss, hcase⟩ :=
        (h.paging_bare rfl rfl rfl).handleMiss_run h.live_or a (h.holds rfl)
      obtain ⟨rfl, rfl⟩ := Prod.mk.inj (Except.ok.inj (hact.symm.trans hmiss))
      rcases hcase with ⟨rfl, -⟩ | ⟨-, hsettled, -⟩
      · -- the lack of a victim halts the machine
        cases hrun
      · exact .moves hs (.withPaging k paging) hsettled.spares nofun
  | resuming page victim =>
      obtain ⟨_, paging, hact, rfl, rfl⟩ := resuming_ok h.sound.region_eq hfault
      obtain ⟨r', s', hresume, -, -, hsettled⟩ :=
        (h.paging_apart rfl rfl).resumeFault_run (h.victim_notMem rfl) h.live_or h.fits.stage.2
      obtain ⟨rfl, rfl⟩ := Prod.mk.inj (Except.ok.inj (hact.symm.trans hresume))
      refine .moves hs (.withPaging k paging) hsettled.spares fun f _ hf => ?_
      -- whoever still has a victim has changed nothing
      obtain ⟨-, hafter⟩ := handled_ok hrun
      rw [← Phase.victim?_slotPart, hafter] at hf
      obtain rfl := SlotPart.eq_of_victim?_after hf
      exact hsettled.1.owner_eq f
  | waiting page victim phase =>
      obtain ⟨next, hwait, rfl⟩ := waiting_ok hfault
      rcases waitStep_ok h.sound.cpu (cpuUse_eq h.session) hwait with
        ⟨-, -, rfl⟩ | ⟨_, -, hsame, hpaging, -⟩
      · exact .of_owner_eq hs (.flush k) (.of_eq rfl rfl rfl)
      · exact .of_owner_eq hs hsame (by rw [hpaging]; exact .refl _)
  | notifying left phase =>
      obtain ⟨next, hnotify, rfl⟩ := notifying_ok hfault
      obtain ⟨hsame, hpaging, -⟩ := notifyStep_ok hnotify
      exact .of_owner_eq hs hsame (by rw [hpaging]; exact .refl _)

/-- A step of a thread inside a request. -/
theorem Calling.step_event (h : k.Calling m n place p call callers)
    (hrun : k.callStep (threadOf n) place p call = some (.ok result)) :
    k.EventKind callers (.advance n) (result.2.setPhase n result.1.phase) := by
  have hs : k.session n = some ⟨place, .busy call⟩ := h.session
  cases h.step_kind hrun with
  | aside hold haside => exact .of_owner_eq hs haside.threads haside.still
  | faults hstage hfault hafter =>
      obtain ⟨request, stage, moved⟩ := call
      obtain rfl : stage = _ := hstage
      exact h.fault_event hfault hafter
  | ends _ huses hbare hlive hreclaimed =>
      exact .ends ⟨hs, Phase.holding_of_usesCache huses, hbare, h.process, hlive, hreclaimed⟩
  | mourns _ hnotify _ =>
      obtain ⟨hsame, hpaging, -⟩ := notifyStep_ok hnotify
      exact .of_owner_eq hs hsame (by rw [hpaging]; exact .refl _)

namespace Sound

/-- A step of a thread. -/
theorem step_event (h : k.Sound m callers) {r : Option (Response σ)}
    (hrun : k.step n = some (.ok (r, k'))) : k.EventKind callers (.advance n) k' := by
  cases advances_of_step hrun with
  | starts hs _ htake =>
      obtain ⟨next', cpu, -, -, rfl⟩ := takeCpu_ok htake
      exact .of_owner_eq hs (.withCpu k cpu) (.refl _)
  | enters hs => exact .of_owner_eq hs (.flush k) (.of_eq rfl rfl rfl)
  | calls hs hp hcall => exact (h.calling hs hp).step_event hcall

/-- What programs can bring about is of one of the kinds. -/
theorem perform_event (h : k.Sound m callers) {e : Event} (he : e.isOrdinary = true)
    {r : Option (Response σ)} (hrun : k.perform e = some (.ok (r, k'))) :
    k.EventKind callers e k' := by
  cases e with
  | spawn image =>
      rw [perform] at hrun
      split at hrun
      · rename_i place k1 hspawn
        obtain ⟨rfl, rfl⟩ := Prod.mk.inj (Except.ok.inj (Option.some.inj hrun))
        obtain ⟨-, -, -, rfl⟩ := spawn_ok hspawn
        refine .quiet (fun _ h => by cases h) (fun i p hp => ?_) (fun i s hs _ => hs) rfl
        exact (List.getElem?_append_left (List.getElem?_eq_some_iff.1 hp).1).trans hp
      · rename_i cause k1 hspawn
        obtain ⟨rfl, rfl⟩ := Prod.mk.inj (Except.ok.inj (Option.some.inj hrun))
        obtain ⟨-, rfl⟩ := spawn_refused hspawn
        exact .quiet (fun _ h => by cases h) (fun i p hp => hp) (fun i s hs _ => hs) rfl
      · cases hrun
  | start i =>
      rw [perform] at hrun
      split at hrun
      · obtain ⟨rfl, rfl⟩ := Prod.mk.inj (Except.ok.inj (Option.some.inj hrun))
        refine .quiet (fun _ h => by cases h) (fun i p hp => hp) (fun i s hs _ => ?_) rfl
        exact (List.getElem?_append_left (List.getElem?_eq_some_iff.1 hs).1).trans hs
      · cases hrun
  | ask n request =>
      rw [perform] at hrun
      split at hrun
      · rename_i hready
        obtain ⟨rfl, rfl⟩ := Prod.mk.inj (Except.ok.inj (Option.some.inj hrun))
        refine .quiet (fun _ h => by cases h) (fun i p hp => hp) (fun i s hs hbusy => ?_) rfl
        have hs : k.sessions[i]? = some s := hs
        show (k.setPhase n _).sessions[i]? = some s
        rw [getElem?_setPhase, if_neg, hs]
        rintro rfl
        obtain ⟨t, ht, hready⟩ := Option.map_eq_some_iff.1 hready
        obtain rfl := Option.some.inj (hs.symm.trans ht)
        exact hbusy hready
      · cases hrun
  | advance n => exact h.step_event hrun
  | pin frame => cases he
  | unpin frame => cases he

end Sound

/-! ## Those whom an event is not about -/

/-- A thread that has something to do goes on where it was when others take their steps. -/
theorem EventKind.session_kept (h : k.EventKind callers e k') {s : Session}
    (hs : k.session i = some s) (hbusy : s.phase ≠ .ready) (he : e ≠ .advance i) :
    k'.session i = some s := by
  have hs' : k.sessions[i]? = some s := hs
  cases h with
  | quiet _ _ hsessions _ => exact hsessions i s hs hbusy
  | @moves n _ k1 phase _ hsame =>
      show (k1.setPhase n phase).sessions[i]? = some s
      rw [getElem?_setPhase, if_neg fun hi => he (congrArg _ hi.symm), hsame.sessions_eq, hs']
  | ends => exact (session_afterEnding fun hi => he (congrArg _ hi.symm)).trans hs

/-- A thread other than the one that takes a step is where it was. -/
theorem EventKind.session_eq (h : k.EventKind callers (.advance n) k') (hi : i ≠ n) :
    k'.session i = k.session i := by
  cases h with
  | quiet he => exact absurd rfl (he n)
  | @moves _ _ k1 phase _ hsame =>
      show (k1.setPhase n phase).sessions[i]? = k.sessions[i]?
      rw [getElem?_setPhase, if_neg hi, hsame.sessions_eq]
  | ends => exact session_afterEnding hi

/-- A process is what it was, or a step of a thread has ended it. -/
theorem EventKind.process_eq_or (h : k.EventKind callers e k') (hp : k.process i = some p) :
    k'.process i = some p ∨ ∃ n call cause paging, e = .advance n ∧
      k.Ends n i p call paging ∧ k' = k.afterEnding n i call cause paging := by
  cases h with
  | quiet _ hprocesses => exact .inl (hprocesses i p hp)
  | @moves _ _ k1 _ _ hsame =>
      refine .inl ?_
      show k1.processes[i]? = some p
      rw [hsame.processes_eq]
      exact hp
  | @ends n place q call cause paging hends =>
      by_cases hi : i = place
      · subst hi
        obtain rfl := Option.some.inj (hp.symm.trans hends.process)
        exact .inr ⟨n, call, cause, paging, rfl, hends, rfl⟩
      · exact .inl ((process_afterEnding hi).trans hp)

/-- A process that has ended never comes back. -/
theorem EventKind.exited (h : k.EventKind callers e k') (hp : k.process i = some p)
    (hexited : p.exited = true) : k'.process i = some p := by
  rcases h.process_eq_or hp with hp' | ⟨n, call, cause, paging, -, hends, -⟩
  · exact hp'
  · -- only a process that is alive is ended
    exact Bool.noConfusion (hexited.symm.trans hends.alive)

/-- A frame that a thread waits with has the page that it had, or none since a process has ended, as
long as the thread waits with it. -/
theorem EventKind.owner_eq_or (h : k.EventKind callers e k') (hwaits : k.WaitsWith i f)
    (hwaits' : k'.WaitsWith i f) :
    k'.paging.frameTable.owner f = k.paging.frameTable.owner f ∨
      k'.paging.frameTable.owner f = none := by
  cases h with
  | quiet _ _ _ hframes => exact .inl (by rw [hframes])
  | @moves n s k1 phase hs hsame hspares hown =>
      refine .inl ?_
      by_cases hi : i = n
      · subst hi
        obtain ⟨t, ht, hf⟩ := hwaits
        obtain rfl := Option.some.inj (hs.symm.trans ht)
        obtain ⟨t', ht', hf'⟩ := hwaits'
        have hs1 : k1.sessions[i]? = some s := hsame.sessions_eq ▸ hs
        obtain rfl := Option.some.inj ((getElem?_setPhase_self hs1 phase).symm.trans ht')
        exact hown f hf hf'
      · exact hspares.owner_eq f
          (Multiset.mem_add.2 (.inl (mem_othersVictims_iff.2 ⟨i, hi, hwaits⟩)))
  | @ends n place p call cause paging hends =>
      show paging.frameTable.owner f = _ ∨ paging.frameTable.owner f = none
      cases howner : paging.frameTable.owner f with
      | none => exact .inr rfl
      | some id => exact .inl ((hends.reclaimed.owner_iff f id).1 howner).2.symm

end DemandPaging.Kernel
