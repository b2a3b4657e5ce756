import DemandPaging.Proofs.Kernel.Calls
import DemandPaging.Proofs.Paging.Lifetime

/-!
# How requests begin, and how threads and processes end

A request begins with a look at the process, and `yield` gives the processor to the others and takes
it again. A process ends once; from then on it is not alive, and the memory manager has nothing of
it. A thread that ends leaves the mapping cache empty.
-/

namespace DemandPaging.Kernel

variable {σ : Type} {k k' : Kernel σ} {m : FlatMachine} {n place : Nat} {p : UserProcess}

/-! ## The end of a process -/

theorem getElem?_markExited (k : Kernel σ) (i j : Nat) :
    (k.markExited i).processes[j]? =
      if j = i then k.processes[i]?.map fun p => { p with exited := true }
      else k.processes[j]? := by
  show (k.processes.modify i fun p => { p with exited := true })[j]? = _
  by_cases h : j = i
  · rw [if_pos h, h, List.getElem?_modify_eq]
    rfl
  · rw [if_neg h, List.getElem?_modify_ne _ _ (Ne.symm h)]

theorem Follows.markExited (h : k.SameThreads k') (i : Nat) : k.Follows (k'.markExited i) := by
  refine ⟨h.config_eq, h.next_eq, h.sessions_eq, h.region_eq, ?_, fun j p hp => ?_⟩
  · show (k'.processes.modify i _).length = _
    rw [List.length_modify, h.processes_eq]
  · rw [getElem?_markExited, h.processes_eq]
    split
    · rename_i hj
      rw [← hj, hp]
      exact .inr rfl
    · exact .inl hp

/-- The end of a process is its end in the flat machine. -/
theorem Shows.markExited (h : k.Shows m) {i : Nat} {q : FlatProcess}
    (hq : m.processes[i]? = some q) : (k.markExited i).Shows (m.setProcess i q.ended) := by
  refine ⟨h.config_eq, ?_, h.threads_eq, (h.numbered.setProcess hq (q := q.ended) rfl).1⟩
  show (m.processes.set i q.ended).map FlatProcess.process = (k.markExited i).processes
  apply List.ext_getElem?
  intro j
  have hlt := (List.getElem?_eq_some_iff.1 hq).1
  rw [getElem?_markExited, ← h.processes_eq, List.getElem?_map, List.getElem?_map,
    List.getElem?_map]
  by_cases hj : j = i
  · rw [if_pos hj, hj, List.getElem?_set_self hlt, hq]
    rfl
  · rw [if_neg hj, List.getElem?_set_ne (Ne.symm hj)]

/-- A process that has ended is alive no more, and the others are. -/
theorem Shows.live_markExited (h : k.Shows m) {i : Nat} (hp : k.processes[i]? = some p) :
    (k.markExited i).live = Paging.Population.set k.live p.pid none := by
  obtain ⟨q, hq, rfl⟩ := h.flat_of_process hp
  have hended := h.markExited hq
  funext pid
  apply Option.ext
  intro u
  rw [hended.live_eq_some_iff]
  by_cases hpid : pid = q.process.pid
  · subst hpid
    rw [Paging.Population.set, Function.update_self]
    constructor
    · rintro ⟨hupid, hlive, j, hu⟩
      have hself : (k.markExited i).processes[i]? = some { q.process with exited := true } := by
        rw [getElem?_markExited, if_pos rfl, hp]
        rfl
      have h1 := hended.pid_toNat hu
      have h2 := hended.pid_toNat hself
      rw [hupid] at h1
      obtain rfl : j = i := Nat.succ.inj (h1.symm.trans h2)
      rw [hself] at hu
      obtain rfl := Option.some.inj hu
      exact Bool.noConfusion hlive
    · intro hu
      cases hu
  · rw [Paging.Population.set, Function.update_of_ne hpid, h.live_eq_some_iff]
    refine and_congr_right fun hupid => and_congr_right fun hlive => exists_congr fun j => ?_
    rw [getElem?_markExited]
    by_cases hj : j = i
    · subst hj
      rw [if_pos rfl, hp]
      constructor
      · intro hu
        obtain rfl := Option.some.inj hu
        exact Bool.noConfusion hlive
      · intro hu
        obtain rfl := Option.some.inj hu
        exact absurd hupid.symm hpid
    · rw [if_neg hj]

variable [Extent σ] [Extent.Reliable σ] {call : Call} {request : Request} {moved : List UInt8}
  {result : After σ} {callers : Multiset Nat}

namespace Calling

/-- What a request is about that ends a process: an access that was refused, or the will to end. -/
def Ends (call : Call) (cause : Option PagingError) : Prop :=
  (Phase.busy call).errand = (Phase.busy { call with stage := .mourning cause .checking }).errand ∧
    (cause = none → call.request = .exit)

/-- What follows when the process has ended. -/
theorem afterEnd_run (h : k.Calling m n place p call callers) (huses : call.stage.usesCache = true)
    (hvictims : call.stage.victims = 0) (hcopied : call.stage.copied = 0)
    {cause : Option PagingError} (hends : Ends call cause) (hexited : p.exited = true)
    (hsame : k.SameThreads k') (hpaging : k'.paging = k.paging) (hcpu : k'.cpu = k.cpu)
    (hrun : k'.afterEnd call cause = .ok result) : k.Reaches m n result callers := by
  have hhold : (Phase.busy call).cpuUse = .holding := Phase.holding_of_usesCache huses
  have hthread := h.thread
  rw [hends.1] at hthread
  obtain ⟨q, hq, rfl⟩ := h.flat
  cases cause with
  | some cause =>
      obtain rfl := Except.ok.inj hrun
      exact h.reply_still hhold hsame hpaging hcpu hvictims hcopied (.failed hthread hq hexited)
  | none =>
      obtain rfl := Except.ok.inj hrun
      exact h.proceed_still hhold hsame hpaging hcpu (.inl ⟨hends.2 rfl, hexited⟩) rfl rfl
        hvictims.symm hcopied.symm trivial (h.unnoticed hends.1.symm)

/-- A process ends, unless it has ended before. -/
theorem end_run (h : k.Calling m n place p call callers) (huses : call.stage.usesCache = true)
    (hvictims : call.stage.victims = 0) (hcopied : call.stage.copied = 0)
    (cause : Option PagingError) (hends : Ends call cause) (hnil : cause = none → call.moved = [])
    (hrun : k.endProcess (threadOf n) place p call cause = some (.ok result)) :
    k.Reaches m n result callers := by
  rw [endProcess] at hrun
  split at hrun
  · rename_i hexited
    exact h.afterEnd_run huses hvictims hcopied hends hexited (.refl k) rfl rfl
      (Option.some.inj hrun)
  · rename_i halive
    obtain ⟨paging, hact, hrun⟩ := lockedOrHalt_ok h.sound.region_eq hrun
    obtain rfl := Except.ok.inj hrun
    have hpaging := h.paging_bare huses hvictims hcopied
    have hlive : k.live p.pid = some p := by rw [h.live_eq, if_neg halive]
    obtain ⟨s', hreclaim, hsound, hreclaimed⟩ := hpaging.reclaim_run hlive
    obtain ⟨-, rfl⟩ := Prod.mk.inj (Except.ok.inj (hact.symm.trans hreclaim))
    obtain ⟨q, hq, rfl⟩ := h.flat
    have hsame := SameThreads.withPaging k paging
    have hshows := hsame.shows h.sound.toShows
    have hthread := h.thread
    rw [hends.1] at hthread
    -- the process ends in the flat machine too, for the reason that the thread is about
    have hstep : FlatMachine.Step m (.advance n) (none : Option (Response σ))
        (m.setProcess place q.ended) := by
      cases cause with
      | some cause => exact .die hthread hq
      | none => exact .exit (by rw [hthread, Phase.errand, hends.2 rfl, hnil rfl]) hq
    have hself : (m.setProcess place q.ended).setErrand n
        (Phase.busy { call with stage := .mourning cause .checking }).errand =
        m.setProcess place q.ended := FlatMachine.setErrand_self hthread
    have hp' : (markExited { k with paging } place).processes[place]? =
        some { q.process with exited := true } := by
      rw [getElem?_markExited, if_pos rfl]
      exact congrArg (Option.map _) h.process
    have hended : (markExited { k with paging } place).live =
        Paging.Population.set k.live q.process.pid none :=
      (hshows.live_markExited h.process).trans (by rw [hsame.live_eq])
    refine ⟨_, hstep, ?_, .inl fun id _ _ => congrFun (h.sound.numbered.page_ended hq) id⟩
    rw [← hself]
    have hhold : (Phase.busy call).cpuUse = .holding := Phase.holding_of_usesCache huses
    refine h.sound.advance_holder
      (.busy { call with stage := .mourning cause .checking }) h.session hhold
      (.markExited hsame place) (hshows.markExited hq) hp'
      ⟨h.fits.ordinary, h.fits.moved_le, h.fits.moved_nil, rfl, hends.2⟩
      (h.exclusive_of_bare rfl) (h.sound.serves_same h.session rfl hhold.symm)
      hreclaimed.pageSize_eq ?_ (fun _ => trivial)
    -- what was reclaimed is what the others need, and the cache was emptied
    rw [hended, h.sound.numbered.page_ended hq]
    exact (zero_add (k.othersVictims n + callers)).symm ▸ hsound.switch_of_none _

/-- A thread that mourns wakes everybody who waits for a slot. -/
theorem mourn_run {cause : Option PagingError} {phase : Notifying} {next : Option Notifying}
    (h : k.Calling m n place p ⟨request, .mourning cause phase, moved⟩ callers)
    (hnotify : k.notifyStep (threadOf n) true phase = some (.ok (next, k')))
    (hrun : (match (next, k') with
      | (some phase, k) => k.proceed ⟨request, .mourning cause phase, moved⟩ (.mourning cause phase)
      | (none, k) => k.afterEnd ⟨request, .mourning cause phase, moved⟩ cause) = .ok result) :
    k.Reaches m n result callers := by
  obtain ⟨hsame, hpaging, hcpu⟩ := notifyStep_ok hnotify
  have herrand : ∀ phase', (Phase.busy ⟨request, .mourning cause phase', moved⟩).errand =
      (Phase.busy ⟨request, .mourning cause phase, moved⟩).errand := by
    intro phase'
    cases cause <;> rfl
  obtain ⟨hexited, hexit⟩ := h.fits.stage
  cases next with
  | some phase' =>
      obtain rfl := Except.ok.inj hrun
      exact h.proceed_still rfl hsame hpaging hcpu ⟨hexited, hexit⟩ rfl rfl rfl rfl trivial
        (h.unnoticed (herrand phase'))
  | none =>
      exact h.afterEnd_run rfl rfl rfl ⟨(herrand _).symm, hexit⟩ hexited hsame hpaging hcpu hrun

/-! ## Giving the processor to others -/

/-- A thread gives the processor up, and will ask for it again. -/
theorem yield_run (h : k.Calling m n place p ⟨request, .yielding, moved⟩ callers)
    (hleave : k.leaveCpu (threadOf n) = .ok k')
    (hrun : k'.proceed ⟨request, .yielding, moved⟩ (.returning .asking) = .ok result) :
    k.Reaches m n result callers := by
  obtain rfl := Except.ok.inj hrun
  obtain ⟨cpu, hrelease, rfl⟩ := leaveCpu_ok hleave
  exact h.proceed_aside (.withCpu k cpu) rfl h.fits.stage
    (h.sound.cpu.release (cpuUse_eq h.session) hrelease) rfl rfl rfl rfl rfl

/-- A thread takes the processor again. -/
theorem return_run {phase : Acquiring} {stage : Stage}
    (h : k.Calling m n place p ⟨request, .returning phase, moved⟩ callers)
    (htake : k.takeCpu (threadOf n) phase Stage.returning .flushing = some (.ok (stage, k')))
    (hrun : k'.proceed ⟨request, .returning phase, moved⟩ stage = .ok result) :
    k.Reaches m n result callers := by
  obtain rfl := Except.ok.inj hrun
  obtain ⟨next, cpu, hacquire, rfl, rfl⟩ := takeCpu_ok htake
  have hcpu := h.sound.cpu.acquire (cpuUse_eq h.session) hacquire
  cases next with
  | some phase' =>
      exact h.proceed_aside (.withCpu k cpu) rfl h.fits.stage hcpu rfl rfl
        rfl rfl rfl
  | none =>
      exact h.proceed_aside (.withCpu k cpu) rfl h.fits.stage hcpu rfl rfl
        rfl rfl rfl

/-- A thread that has taken the processor again starts with an empty cache. -/
theorem flush_run (h : k.Calling m n place p ⟨request, .flushing, moved⟩ callers) :
    k.Reaches m n (.answered .done, k.flush) callers := by
  obtain rfl : request = .yield := h.fits.stage
  obtain rfl : moved = [] := h.fits.moved_nil rfl
  have hsound : k.paging.Sound k.live none (0 + (k.othersVictims n + callers)) m.page :=
    h.paging_apart rfl rfl
  rw [zero_add] at hsound
  obtain ⟨hflushed, hnarrow⟩ := hsound.flushed (fun _ hc => hsound.empty_of_none hc) (some p.pid)
  exact h.reply_holder rfl (.flush k) rfl hnarrow.pageSize_eq hflushed
    (.yielded h.thread)

/-! ## The end of a thread -/

/-- A thread that ends leaves the cache empty. -/
theorem part_run (h : k.Calling m n place p ⟨request, .parting, moved⟩ callers)
    (hrun : k.callStep (threadOf n) place p ⟨request, .parting, moved⟩ = some (.ok result)) :
    k.Reaches m n result callers := by
  have hpaging := h.paging_bare rfl rfl rfl
  change (if p.exited then some (k.proceed _ (.leaving none)) else _) = _ at hrun
  split at hrun
  · rename_i hexited
    obtain rfl := Except.ok.inj (Option.some.inj hrun)
    -- nothing of the process is left in the cache
    have hend : k.live p.pid = none := by rw [h.live_eq, if_pos hexited]
    refine h.proceed_holder rfl (.refl k) rfl ⟨rfl, h.fits.stage⟩ rfl (h.exclusive_of_bare rfl) rfl
      ?_ nofun (h.unnoticed rfl)
    exact (zero_add (k.othersVictims n + callers)).symm ▸
      hpaging.switch (hpaging.empty_of_ended hend) none
  · obtain ⟨⟨r, k1⟩, hlocked, hrun⟩ := step_of_map hrun fun halt => ⟨halt, rfl⟩
    obtain ⟨paging, hact, rfl⟩ := locked_ok h.sound.region_eq hlocked
    obtain ⟨s', hsave, hsound, hnarrow, -⟩ := hpaging.saveCache_run
    obtain ⟨rfl, rfl⟩ := Prod.mk.inj (Except.ok.inj (hact.symm.trans hsave))
    obtain rfl := Except.ok.inj hrun
    refine h.proceed_holder rfl (.withPaging k paging) rfl ⟨rfl, h.fits.stage⟩ rfl
      (h.exclusive_of_bare rfl) hnarrow.pageSize_eq ?_ nofun (h.unnoticed rfl)
    exact (zero_add (k.othersVictims n + callers)).symm ▸ hsound

/-- A thread gives the processor up for good. -/
theorem leave_run {failure : Option PagingError}
    (h : k.Calling m n place p ⟨request, .leaving failure, moved⟩ callers)
    (hleave : k.leaveCpu (threadOf n) = .ok k') :
    k.Reaches m n (.ended (lastAnswer ⟨request, .leaving failure, moved⟩), k') callers := by
  obtain ⟨cpu, hrelease, rfl⟩ := leaveCpu_ok hleave
  obtain ⟨q, hq, rfl⟩ := h.flat
  have hsound := h.sound.advance_aside .ended h.session (.withCpu k cpu) rfl h.process trivial
    (h.sound.cpu.release (cpuUse_eq h.session) hrelease) rfl rfl rfl rfl
  obtain ⟨-, ⟨hrequest, hexited⟩ | hrequest⟩ := h.fits.stage
  · obtain rfl : request = .exit := hrequest
    obtain rfl : moved = [] := h.fits.moved_nil rfl
    exact .of_step (.exited h.thread hq hexited) hsound
  · obtain rfl : request = .leave := hrequest
    obtain rfl : moved = [] := h.fits.moved_nil rfl
    exact .of_step (.left h.thread) hsound

/-! ## The first step of a request -/

/-- There is no access to a process that has ended. -/
theorem refuse_ended (h : k.Calling m n place p ⟨request, .begun, moved⟩ callers)
    (haccess : request.isAccess = true) (hexited : p.exited = true) :
    k.Reaches m n (.answered (.failed (.noSuchProcess p.pid)), k) callers := by
  obtain ⟨q, hq, rfl⟩ := h.flat
  exact h.reply_still rfl (.refl k) rfl rfl rfl rfl (.gone h.thread haccess hq hexited)

/-- The first step of a request. -/
theorem begin_run (h : k.Calling m n place p ⟨request, .begun, moved⟩ callers)
    (hrun : k.beginCall (threadOf n) place p ⟨request, .begun, moved⟩ = some (.ok result)) :
    k.Reaches m n result callers := by
  have hordinary : request.isOrdinary = true := h.fits.ordinary
  by_cases haccess : request.isAccess = true
  · by_cases hexited : p.exited = true
    · have hrefused := h.refuse_ended haccess hexited
      cases request with
      | read a | write a v | copyOut a count | copyIn a data =>
          change some (if p.exited then _ else _) = _ at hrun
          rw [if_pos hexited] at hrun
          obtain rfl := Except.ok.inj (Option.some.inj hrun)
          exact hrefused
      | _ => cases haccess
    · cases request with
      | read a | write a v | copyOut a count | copyIn a data =>
          change some (if p.exited then _ else _) = _ at hrun
          rw [if_neg hexited] at hrun
          obtain rfl := Except.ok.inj (Option.some.inj hrun)
          exact h.proceed_still rfl (.refl k) rfl rfl rfl rfl rfl rfl rfl trivial
            (h.unnoticed rfl)
      | _ => cases haccess
  · obtain rfl : moved = [] := h.fits.moved_nil (by
      rw [← Bool.not_eq_true]
      exact fun hcopy => haccess (Request.isAccess_of_isCopy hcopy))
    cases request with
    | yield =>
        obtain ⟨paging, hact, hrun⟩ := lockedOrHalt_ok h.sound.region_eq hrun
        obtain rfl := Except.ok.inj hrun
        have hpaging := h.paging rfl
        obtain ⟨s', hsave, hsound, hnarrow, -⟩ := hpaging.saveCache_run
        obtain ⟨-, rfl⟩ := Prod.mk.inj (Except.ok.inj (hact.symm.trans hsave))
        exact h.proceed_holder rfl (.withPaging k paging) rfl rfl rfl
          (h.exclusive_of_bare rfl) hnarrow.pageSize_eq hsound nofun (h.unnoticed rfl)
    | exit => exact h.end_run rfl rfl rfl none ⟨rfl, fun _ => rfl⟩ (fun _ => rfl) hrun
    | leave =>
        obtain rfl := Except.ok.inj (Option.some.inj hrun)
        exact h.proceed_still rfl (.refl k) rfl rfl (.inr rfl) rfl rfl rfl rfl trivial
          (h.unnoticed rfl)
    | read a | write a v | copyOut a count | copyIn a data => exact absurd rfl haccess
    | _ => cases hordinary

end Calling

end DemandPaging.Kernel
