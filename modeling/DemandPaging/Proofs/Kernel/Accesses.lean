import DemandPaging.Proofs.Kernel.Calls
import DemandPaging.Proofs.Paging.Access
import DemandPaging.Proofs.Paging.Fault

/-!
# Loads, stores and misses

An access that hits is answered as the flat machine answers it. One that misses leads to a fault,
and a fault leads back to the access, to a wait for a swap slot, or to the end of the process for a
reason that the flat machine knows too.
-/

namespace DemandPaging.Kernel

variable {σ : Type} [Extent σ] [Extent.Reliable σ] {k k' : Kernel σ} {m : FlatMachine}
  {n place : Nat} {p : UserProcess} {call : Call} {request : Request} {moved : List UInt8}
  {result : After σ} {callers : Multiset Nat}

omit [Extent σ] [Extent.Reliable σ] in
/-- An error that is answered ends the process; any other one halts the machine. -/
theorem fail_ok {cause : PagingError} (h : k.fail call cause = .ok result) :
    cause.reach = .endsProcess ∧
      result = (.continues { call with stage := .killing cause }, k) := by
  rw [fail] at h
  split at h
  · rename_i hreach
    exact ⟨hreach, (Except.ok.inj h).symm⟩
  · cases h

namespace Calling

/-- An access is refused for a cause that the flat machine knows. -/
theorem refuse (h : k.Calling m n place p call callers) (hhold : call.stage.cpuUse = .holding)
    (hasked : (Phase.busy call).errand = .asked call.request call.moved)
    (hsame : k.SameThreads k') (hcpu : k'.cpu = k.cpu)
    (hsize : k'.paging.processor.pageSize = k.paging.processor.pageSize)
    (hpaging : k'.paging.Sound k.live (some p.pid) (k.othersVictims n + callers) m.page)
    {q : FlatProcess} (hq : m.processes[place]? = some q) {cause : PagingError}
    (hrefuses : FlatMachine.Refuses k.config.pageSize q call.request cause)
    (hfail : k'.fail call cause = .ok result) : k.Reaches m n result callers := by
  obtain ⟨-, rfl⟩ := fail_ok hfail
  exact h.proceed_bare hhold hsame hcpu trivial rfl rfl rfl hsize hpaging trivial
    (.refuse (hasked ▸ h.thread) hq (h.sound.config_eq ▸ hrefuses))

/-! ## Accesses -/

/-- The processor found no entry for the page of an access. -/
theorem missed (h : k.Calling m n place p ⟨request, .accessing, moved⟩ callers) {proc : Processor}
    (hbad : proc.badAddress = request.address)
    (huncached : k.paging.Uncached (Address.page k.paging.processor.pageSize request.address))
    (hcache : proc.cache = k.paging.processor.cache)
    (hsize : proc.pageSize = k.paging.processor.pageSize)
    (hpaging : Paging.Sound { k.paging with processor := proc } k.live (some p.pid)
      (k.othersVictims n + callers) m.page) :
    k.Reaches m n (.continues ⟨request, .faulting (.missing proc.badAddress), moved⟩,
      k.withProcessor proc) callers := by
  refine h.proceed_bare rfl (.withProcessor k proc) rfl
    (.inl ⟨h.fits.stage, hbad⟩) rfl rfl rfl hsize hpaging ?_ (h.unnoticed rfl)
  intro c hc
  show c.valid = true → c.page ≠ Address.page proc.pageSize proc.badAddress
  rw [hsize, hbad]
  exact huncached c (hcache ▸ hc)

/-- A load that hits is answered with the byte of the flat machine. -/
theorem load_run {a : Nat} (h : k.Calling m n place p ⟨.read a, .accessing, moved⟩ callers)
    (hrun : k.access ⟨.read a, .accessing, moved⟩ = .ok result) : k.Reaches m n result callers := by
  have hpaging := h.paging_bare rfl rfl rfl
  obtain ⟨q, hq, rfl⟩ := h.flat
  have hsize := h.sound.pageSize_eq
  have hpos := h.pageSize_pos
  obtain rfl : moved = [] := h.fits.moved_nil rfl
  obtain ⟨r, proc, hload, hsize', hsound, hcase⟩ := hpaging.loadByte_run a
  obtain ⟨⟨r', proc'⟩, hload', hrun⟩ := ok_of_bind hrun
  obtain ⟨rfl, rfl⟩ := Prod.mk.inj (Except.ok.inj (hload.symm.trans hload'))
  rcases hcase with ⟨rfl, hbad, hun, hcache⟩ | ⟨byte, u, rfl, hlive, hlt, hget⟩
  · obtain rfl := Except.ok.inj hrun
    exact h.missed hbad hun hcache hsize' hsound
  · obtain rfl := Except.ok.inj hrun
    obtain ⟨rfl, hexited⟩ := h.eq_of_live hlive
    rw [hsize] at hlt hget
    have hoff : Address.offset k.config.pageSize a < k.config.pageSize := Nat.mod_lt _ hpos
    rw [h.page_eq hq, FlatProcess.getElem?_load, if_pos hoff] at hget
    -- the byte of the page is the byte at the address
    have hvalue : byte = q.byteAt a := by
      rw [← Option.some.inj hget]
      exact congrArg q.byteAt (Address.join_split k.config.pageSize a)
    refine h.reply_holder rfl (.withProcessor k proc) rfl hsize' hsound ?_
    rw [hvalue]
    exact .load h.thread hq hexited (h.sound.config_eq ▸ (q.lt_size_iff hpos).2 hlt)

/-- A store that hits stores the byte, or is refused in a read-only section. -/
theorem store_run {a : Nat} {v : UInt8}
    (h : k.Calling m n place p ⟨.write a v, .accessing, moved⟩ callers)
    (hrun : k.access ⟨.write a v, .accessing, moved⟩ = .ok result) :
    k.Reaches m n result callers := by
  have hpaging := h.paging_bare rfl rfl rfl
  obtain ⟨q, hq, rfl⟩ := h.flat
  have hsize := h.sound.pageSize_eq
  have hpos := h.pageSize_pos
  obtain rfl : moved = [] := h.fits.moved_nil rfl
  obtain ⟨r, proc, hstore, hsize', hcase⟩ := hpaging.storeByte_run a v
  obtain ⟨⟨r', proc'⟩, hstore', hrun⟩ := ok_of_bind hrun
  obtain ⟨rfl, rfl⟩ := Prod.mk.inj (Except.ok.inj (hstore.symm.trans hstore'))
  rcases hcase with ⟨rfl, hbad, hun, hcache, hsound⟩ | ⟨u, hlive, hlt, hcase⟩
  · obtain rfl := Except.ok.inj hrun
    exact h.missed hbad hun hcache hsize' hsound
  · obtain ⟨rfl, hexited⟩ := h.eq_of_live hlive
    rw [hsize] at hlt hcase
    have hinside := (q.lt_size_iff hpos).2 hlt
    rcases hcase with ⟨rfl, hbad, hro, hsound⟩ | ⟨rfl, hro, hsound⟩
    · -- a page of a read-only section
      rw [← q.protected_iff hpos] at hro
      refine h.refuse rfl rfl (.withProcessor k proc) rfl hsize' hsound hq
        (.readOnly hexited hinside hro) ?_
      change (k.withProcessor proc).fail _ (.readOnlyViolation proc.badAddress) = _ at hrun
      rw [hbad] at hrun
      exact hrun
    · obtain rfl := Except.ok.inj hrun
      have hoff : Address.offset k.config.pageSize a + [v].length ≤ k.config.pageSize :=
        Nat.mod_lt _ hpos
      have hfree : ¬ q.Protected k.config.pageSize a := by
        rw [q.protected_iff hpos, hro]
        exact Bool.false_ne_true
      refine h.store_holder .ready rfl (.withProcessor k proc) rfl rfl hsize' trivial rfl rfl
        trivial rfl hq hoff ?_
        (.store h.thread hq hexited (h.sound.config_eq ▸ hinside) (h.sound.config_eq ▸ hfree))
      rw [show Phase.pins .ready = 0 from rfl, zero_add, Extent.patch_singleton]
      · exact hsound
      · rw [h.page_eq hq, FlatProcess.length_load]
        exact hoff

/-- The processor makes the access of a request. -/
theorem access_run (h : k.Calling m n place p ⟨request, .accessing, moved⟩ callers)
    (hrun : k.access ⟨request, .accessing, moved⟩ = .ok result) : k.Reaches m n result callers := by
  have hbyte : request.isByte = true := h.fits.stage
  cases request with
  | read a => exact h.load_run hrun
  | write a v => exact h.store_run hrun
  | _ => cases hbyte

/-! ## Misses -/

/-- What follows when a miss is handled. -/
theorem afterMiss_run (h : k.Calling m n place p call callers)
    (hhold : call.stage.cpuUse = .holding)
    (hasked : (Phase.busy call).errand = .asked call.request call.moved)
    (haccess : call.request.isAccess = true) (hsame : k.SameThreads k') (hcpu : k'.cpu = k.cpu)
    (hsize : k'.paging.processor.pageSize = k.paging.processor.pageSize)
    (hpaging : k'.paging.Sound k.live (some p.pid) (k.othersVictims n + callers) m.page)
    (hrun : k'.afterMiss call = .ok result) : k.Reaches m n result callers := by
  obtain ⟨request, stage, moved⟩ := call
  cases request with
  | read a | write a v | copyOut a count | copyIn a data =>
      obtain rfl := Except.ok.inj hrun
      exact h.proceed_bare hhold hsame hcpu rfl rfl rfl rfl hsize hpaging trivial
        (h.unnoticed hasked.symm)
  | _ => cases haccess

/-- What a step of a fault leads to. -/
def afterFault (call : Call) :
    Except PagingError (Option Faulting) × Kernel σ → Except Halt (After σ)
  | (.ok (some phase), k) => k.proceed call (.faulting phase)
  | (.ok none, k) => k.afterMiss call
  | (.error cause, k) => k.fail call cause

/-- The tables were unlocked after a part of a fault. -/
theorem handled_run {phase : Faulting}
    (h : k.Calling m n place p ⟨request, .faulting phase, moved⟩ callers)
    (hhold : phase.cpuUse = .holding) (haccess : request.isAccess = true)
    (hsame : k.SameThreads k') (hcpu : k'.cpu = k.cpu)
    (hsize : k'.paging.processor.pageSize = k.paging.processor.pageSize) {page : Nat}
    {r : Except PagingError Paging.MissResult} (hpage : ∀ x, r = .ok x → page < p.numPages)
    (hhandled : k'.paging.Handled k.live p (k.othersVictims n + callers) m.page r)
    (hrun : afterFault ⟨request, .faulting phase, moved⟩ (r.map (Faulting.after page), k') =
      .ok result) : k.Reaches m n result callers := by
  cases r with
  | error cause =>
      obtain ⟨rfl, hend, hpaging⟩ := hhandled
      obtain ⟨q, hq, rfl⟩ := h.flat
      exact h.refuse hhold rfl hsame hcpu hsize hpaging hq
        (.gone haccess (h.exited_of_live_eq hend)) hrun
  | ok x =>
      cases x with
      | loaded wakeUps =>
          obtain ⟨-, hpaging⟩ := hhandled
          cases wakeUps with
          | zero => exact h.afterMiss_run hhold rfl haccess hsame hcpu hsize hpaging hrun
          | succ wakeUps =>
              obtain rfl := Except.ok.inj hrun
              exact h.proceed_bare hhold hsame hcpu haccess rfl rfl rfl hsize hpaging trivial
                (h.unnoticed rfl)
      | needsSlot victim =>
          obtain ⟨hpaging, hnotin⟩ := hhandled
          obtain rfl := Except.ok.inj hrun
          refine h.proceed_holder hhold hsame hcpu ⟨haccess, hpage _ rfl⟩ rfl ?_ hsize ?_ nofun
            (h.unnoticed rfl)
          · -- nobody else waits with this victim, since nobody had it pinned
            exact h.others_exclusive.cons hnotin
          · exact hpaging

section Faults

variable {r : Except PagingError (Option Faulting)}

/-- A miss begins: the page is there, or a frame has to be found for it, or it is none of the
process. -/
theorem missing_run {a : Nat}
    (h : k.Calling m n place p ⟨request, .faulting (.missing a), moved⟩ callers)
    (hfault : k.faultStep (threadOf n) p (.missing a) = some (.ok (r, k')))
    (hrun : afterFault ⟨request, .faulting (.missing a), moved⟩ (r, k') = .ok result) :
    k.Reaches m n result callers := by
  have hsize := h.sound.pageSize_eq
  obtain ⟨_, paging, hact, rfl, rfl⟩ := missing_ok h.sound.region_eq hfault
  have hsound := h.paging_bare rfl rfl rfl
  obtain ⟨r', s', hmiss, hcase⟩ := hsound.handleMiss_run h.live_or a (h.holds rfl)
  obtain ⟨rfl, rfl⟩ := Prod.mk.inj (Except.ok.inj (hact.symm.trans hmiss))
  have haccess : request.isAccess = true := by
    rcases h.fits.stage with ⟨hbyte, -⟩ | ⟨hcopy, -⟩
    · exact Request.isAccess_of_isByte hbyte
    · exact Request.isAccess_of_isCopy hcopy
  rcases hcase with ⟨rfl, -⟩ | ⟨hsize', -, ⟨hhandled, hpage⟩ | ⟨rfl, hlive, hlt, hpaging⟩⟩
  · -- without a victim the machine halts
    cases hrun
  · rw [hsize] at hpage
    exact h.handled_run rfl haccess (.withPaging k paging) rfl hsize'
      (fun x hx => (hpage x hx).2) hhandled hrun
  · obtain ⟨q, hq, rfl⟩ := h.flat
    obtain ⟨-, hexited⟩ := h.eq_of_live hlive
    rw [hsize] at hlt
    have hrefuses : FlatMachine.Refuses k.config.pageSize q request (.segmentationFault a) := by
      rcases h.fits.stage with ⟨hbyte, haddress⟩ | ⟨-, hpage⟩
      · have hout : q.size k.config.pageSize ≤ a := by
          rw [← Nat.not_lt, q.lt_size_iff h.pageSize_pos, Nat.not_lt]
          exact hlt
        cases request with
        | read a' =>
            obtain rfl : a = a' := haddress
            exact .loadOutside hexited hout
        | write a' v =>
            obtain rfl : a = a' := haddress
            exact .storeOutside hexited hout
        | _ => cases hbyte
      · -- a copy only asks for pages that it has found to be inside
        omega
    exact h.refuse rfl rfl (.withPaging k paging) rfl hsize' hpaging hq hrefuses hrun

/-- A fault goes on after a sleep. -/
theorem resuming_run {page victim : Nat}
    (h : k.Calling m n place p ⟨request, .faulting (.resuming page victim), moved⟩ callers)
    (hfault : k.faultStep (threadOf n) p (.resuming page victim) = some (.ok (r, k')))
    (hrun : afterFault ⟨request, .faulting (.resuming page victim), moved⟩ (r, k') = .ok result) :
    k.Reaches m n result callers := by
  obtain ⟨_, paging, hact, rfl, rfl⟩ := resuming_ok h.sound.region_eq hfault
  have hsound := h.paging_apart rfl rfl
  obtain ⟨haccess, hpage⟩ := h.fits.stage
  obtain ⟨r', s', hresume, hhandled, hsize', -⟩ :=
    hsound.resumeFault_run (h.victim_notMem rfl) h.live_or hpage
  obtain ⟨rfl, rfl⟩ := Prod.mk.inj (Except.ok.inj (hact.symm.trans hresume))
  exact h.handled_run rfl haccess (.withPaging k paging) rfl hsize' (fun _ _ => hpage)
    hhandled hrun

/-- A thread waits for a slot. The tables stay as they are, and the cache is empty all the time. -/
theorem waiting_run {page victim : Nat} {phase : Waiting}
    (h : k.Calling m n place p ⟨request, .faulting (.waiting page victim phase), moved⟩ callers)
    (hfault : k.faultStep (threadOf n) p (.waiting page victim phase) = some (.ok (r, k')))
    (hrun : afterFault ⟨request, .faulting (.waiting page victim phase), moved⟩ (r, k') =
      .ok result) : k.Reaches m n result callers := by
  obtain ⟨next, hwait, rfl⟩ := waiting_ok hfault
  rcases waitStep_ok h.sound.cpu (cpuUse_eq h.session) hwait with
    ⟨rfl, rfl, rfl⟩ | ⟨phase', rfl, hsame, hpaging, hcpu⟩
  · obtain rfl := Except.ok.inj hrun
    have hsound := h.paging_apart rfl rfl
    obtain ⟨hflushed, hnarrow⟩ := hsound.flushed (fun _ hc => hsound.empty_of_none hc) none
    -- the victim stays the one it was
    have hexclusive := h.sound.exclusive
    rw [victims_eq h.session] at hexclusive
    exact h.proceed_holder rfl (.flush k) rfl h.fits.stage rfl hexclusive hnarrow.pageSize_eq
      hflushed nofun (h.unnoticed rfl)
  · obtain rfl := Except.ok.inj hrun
    exact h.proceed_aside hsame hpaging h.fits.stage hcpu rfl rfl rfl rfl rfl

/-- A thread whose fault freed slots wakes others, one for every slot. -/
theorem notifying_run {left : Nat} {phase : Notifying}
    (h : k.Calling m n place p ⟨request, .faulting (.notifying left phase), moved⟩ callers)
    (hfault : k.faultStep (threadOf n) p (.notifying left phase) = some (.ok (r, k')))
    (hrun : afterFault ⟨request, .faulting (.notifying left phase), moved⟩ (r, k') = .ok result) :
    k.Reaches m n result callers := by
  obtain ⟨next, hnotify, rfl⟩ := notifying_ok hfault
  obtain ⟨hsame, hpaging, hcpu⟩ := notifyStep_ok hnotify
  have hsound := h.paging_bare rfl rfl rfl
  rw [← hpaging] at hsound
  have hsize' := congrArg (fun s => s.processor.pageSize) hpaging
  have haccess : request.isAccess = true := h.fits.stage
  cases next with
  | some phase' =>
      obtain rfl := Except.ok.inj hrun
      exact h.proceed_bare rfl hsame hcpu haccess rfl rfl rfl hsize' hsound trivial
        (h.unnoticed rfl)
  | none =>
      cases left with
      | zero => exact h.afterMiss_run rfl rfl haccess hsame hcpu hsize' hsound hrun
      | succ left =>
          obtain rfl := Except.ok.inj hrun
          exact h.proceed_bare rfl hsame hcpu haccess rfl rfl rfl hsize' hsound trivial
            (h.unnoticed rfl)

/-- A step of a thread that handles a miss. -/
theorem fault_run {phase : Faulting}
    (h : k.Calling m n place p ⟨request, .faulting phase, moved⟩ callers)
    (hfault : k.faultStep (threadOf n) p phase = some (.ok (r, k')))
    (hrun : afterFault ⟨request, .faulting phase, moved⟩ (r, k') = .ok result) :
    k.Reaches m n result callers := by
  cases phase with
  | missing a => exact h.missing_run hfault hrun
  | resuming page victim => exact h.resuming_run hfault hrun
  | waiting page victim phase => exact h.waiting_run hfault hrun
  | notifying left phase => exact h.notifying_run hfault hrun

end Faults

end Calling

end DemandPaging.Kernel
