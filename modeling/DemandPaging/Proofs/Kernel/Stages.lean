import DemandPaging.Proofs.Kernel.EventKinds
import DemandPaging.Proofs.Paging.Cached

/-!
# The stages of an access

An access tries its page, may have to handle a miss of it, and tries again. `Stage.Follows` says
which stage of an access comes after which one, and what has become of the page in between; and
`Sound.goesOn` that a thread takes no other course. Meanwhile nobody else touches the mapping
cache as long as the thread has the processor (`Sound.processor_kept`).
-/

namespace DemandPaging

/-- Whether a thread is about to see if its page is there. -/
def Stage.tries : Stage → Bool
  | accessing | pinning => true
  | _ => false

/-- Whether a thread is about to handle a miss. -/
def Stage.isMiss : Stage → Bool
  | faulting (.missing _) => true
  | _ => false

/-- Whether a thread goes on with a page that is there: it tries the page, or wakes others first. -/
def Stage.goesOn : Stage → Bool
  | accessing | pinning | faulting (.notifying ..) => true
  | _ => false

/-- The miss that a thread handles is about a page. -/
def Stage.About (pageSize page : Nat) : Stage → Prop
  | faulting (.missing address) => Address.page pageSize address = page
  | faulting (.waiting page' _ _) | faulting (.resuming page' _) => page' = page
  | _ => True

/-- Which stage of an access follows which one, where the access has come to a page. -/
inductive Stage.Follows {σ : Type} (pageSize page : Nat) (s s' : Paging σ) : Stage → Stage → Prop
    where
  | begins {next : Stage} (hnext : next.tries = true) : Follows pageSize page s s' .begun next
  /-- the page is not there -/
  | misses {stage : Stage} {address : Nat} (hstage : stage.tries = true)
      (hpage : Address.page pageSize address = page) (hun : ¬ s.Cached page) :
      Follows pageSize page s s' stage (.faulting (.missing address))
  /-- the page may not be written -/
  | refused {cause : PagingError} : Follows pageSize page s s' .accessing (.killing cause)
  | pinned {frame : Nat} : Follows pageSize page s s' .pinning (.moving frame)
  | moved {frame : Nat} : Follows pageSize page s s' (.moving frame) (.unpinning frame)
  | unpinned {frame : Nat} : Follows pageSize page s s' (.unpinning frame) .pinning
  /-- the thread has to wait before the page can be brought in -/
  | waits {fault : Faulting} {victim : Nat} {phase : Waiting} :
      Follows pageSize page s s' (.faulting fault) (.faulting (.waiting page victim phase))
  | resumes {fault : Faulting} {victim : Nat} :
      Follows pageSize page s s' (.faulting fault) (.faulting (.resuming page victim))
  /-- the mapping is loaded -/
  | loaded {fault : Faulting} {next : Stage} (hnext : next.goesOn = true)
      (hcached : s'.Cached page) : Follows pageSize page s s' (.faulting fault) next
  /-- others are woken -/
  | notifies {left : Nat} {phase : Notifying} {next : Stage} (hnext : next.goesOn = true)
      (hs : s' = s) : Follows pageSize page s s' (.faulting (.notifying left phase)) next
  | fails {fault : Faulting} {cause : PagingError} :
      Follows pageSize page s s' (.faulting fault) (.killing cause)
  | ends {cause : PagingError} {phase : Notifying} :
      Follows pageSize page s s' (.killing cause) (.mourning (some cause) phase)
  | mourns {cause : Option PagingError} {phase phase' : Notifying} :
      Follows pageSize page s s' (.mourning cause phase) (.mourning cause phase')

namespace Kernel

variable {σ : Type} {k k' : Kernel σ} {n i place : Nat} {p : UserProcess} {call call' : Call}
  {request : Request} {moved : List UInt8} {callers : Multiset Nat}

/-- The page that an access has come to. -/
def pageOf (k : Kernel σ) (call : Call) : Nat := Address.page k.config.pageSize (copyAddress call)

/-- An access goes on from `call` to `call'`, and only a copy that moves bytes comes to another
address. -/
structure GoesOn (k : Kernel σ) (call : Call) (k' : Kernel σ) (call' : Call) : Prop where
  request_eq : call'.request = call.request
  moved_eq : (∀ f, call.stage ≠ .moving f) → call'.moved = call.moved
  follows : Stage.Follows k.config.pageSize (k.pageOf call) k.paging k'.paging call.stage
    call'.stage

variable [Extent σ] [Extent.Reliable σ] {m : FlatMachine}

namespace Calling

omit [Extent σ] [Extent.Reliable σ] in
/-- The request goes on at another stage. -/
theorem goesOn_of_proceed {stage : Stage} {k₁ : Kernel σ}
    (hrun : k₁.proceed call stage = .ok (.continues call', k'))
    (hfollows : Stage.Follows k.config.pageSize (k.pageOf call) k.paging k₁.paging call.stage
      stage) :
    k.GoesOn call k' call' := by
  obtain ⟨heq, rfl⟩ := Prod.mk.inj (Except.ok.inj hrun)
  obtain rfl := CallResult.continues.inj heq
  exact ⟨rfl, fun _ => rfl, hfollows⟩

omit [Extent σ] [Extent.Reliable σ] in
/-- An error that is answered ends the process. -/
theorem goesOn_of_fail {cause : PagingError} {k₁ : Kernel σ}
    (hrun : k₁.fail call cause = .ok (.continues call', k'))
    (hfollows : Stage.Follows k.config.pageSize (k.pageOf call) k.paging k₁.paging call.stage
      (.killing cause)) : k.GoesOn call k' call' := by
  obtain ⟨-, heq⟩ := fail_ok hrun
  obtain ⟨hcall, rfl⟩ := Prod.mk.inj heq
  obtain rfl := CallResult.continues.inj hcall
  exact ⟨rfl, fun _ => rfl, hfollows⟩

omit [Extent σ] [Extent.Reliable σ] in
/-- The mapping is loaded, or was before, and the access tries its page again. -/
theorem goesOn_of_afterMiss {k₁ : Kernel σ} (haccess : call.request.isAccess = true)
    (hrun : k₁.afterMiss call = .ok (.continues call', k'))
    (hfollows : ∀ stage : Stage, stage.goesOn = true →
      Stage.Follows k.config.pageSize (k.pageOf call) k.paging k₁.paging call.stage stage) :
    k.GoesOn call k' call' := by
  obtain ⟨request, stage, moved⟩ := call
  cases request with
  | read a | write a v => exact goesOn_of_proceed hrun (hfollows _ rfl)
  | copyOut a count | copyIn a data => exact goesOn_of_proceed hrun (hfollows _ rfl)
  | _ => cases haccess

omit [Extent σ] [Extent.Reliable σ] in
/-- The tables were unlocked after a part of a fault. -/
theorem goesOn_of_handled {fault : Faulting} {page : Nat} {k₁ : Kernel σ}
    {outcome : Except PagingError Paging.MissResult} (haccess : request.isAccess = true)
    (hpage : page = k.pageOf ⟨request, .faulting fault, moved⟩)
    (hcached : ∀ wakeUps, outcome = .ok (.loaded wakeUps) → k₁.paging.Cached page)
    (hrun : afterFault ⟨request, .faulting fault, moved⟩ (outcome.map (Faulting.after page), k₁) =
      .ok (.continues call', k')) : k.GoesOn ⟨request, .faulting fault, moved⟩ k' call' := by
  subst hpage
  cases outcome with
  | error cause => exact goesOn_of_fail hrun .fails
  | ok result =>
      cases result with
      | needsSlot victim => exact goesOn_of_proceed hrun .waits
      | loaded wakeUps =>
          cases wakeUps with
          | zero =>
              exact goesOn_of_afterMiss haccess hrun fun _ hnext => .loaded hnext (hcached _ rfl)
          | succ wakeUps => exact goesOn_of_proceed hrun (.loaded rfl (hcached _ rfl))

/-- A part of a miss. -/
theorem fault_goesOn {fault : Faulting} {r : Except PagingError (Option Faulting)} {k₁ : Kernel σ}
    (h : k.Calling m n place p ⟨request, .faulting fault, moved⟩ callers)
    (haccess : request.isAccess = true)
    (habout : (Stage.faulting fault).About k.config.pageSize
      (k.pageOf ⟨request, .faulting fault, moved⟩))
    (hfault : k.faultStep (threadOf n) p fault = some (.ok (r, k₁)))
    (hrun : afterFault ⟨request, .faulting fault, moved⟩ (r, k₁) = .ok (.continues call', k')) :
    k.GoesOn ⟨request, .faulting fault, moved⟩ k' call' := by
  cases fault with
  | missing a =>
      obtain ⟨outcome, paging, hact, rfl, rfl⟩ := missing_ok h.sound.region_eq hfault
      refine goesOn_of_handled haccess habout (fun wakeUps heq => ?_) hrun
      subst heq
      rw [← h.sound.pageSize_eq]
      exact Paging.cached_of_handleMiss hact
  | resuming page victim =>
      obtain ⟨outcome, paging, hact, rfl, rfl⟩ := resuming_ok h.sound.region_eq hfault
      refine goesOn_of_handled haccess habout (fun wakeUps heq => ?_) hrun
      subst heq
      exact Paging.cached_of_resumeFault hact
  | waiting page victim phase =>
      obtain ⟨next, -, rfl⟩ := waiting_ok hfault
      obtain rfl : page = k.pageOf ⟨request, .begun, moved⟩ := habout
      cases next with
      | none => exact goesOn_of_proceed hrun .resumes
      | some phase' => exact goesOn_of_proceed hrun .waits
  | notifying left phase =>
      obtain ⟨next, hnotify, rfl⟩ := notifying_ok hfault
      obtain ⟨-, hpaging, -⟩ := notifyStep_ok hnotify
      -- only the last one to be woken lets the access go on
      cases next with
      | some phase' => exact goesOn_of_proceed hrun (.notifies rfl hpaging)
      | none =>
          cases left with
          | zero => exact goesOn_of_afterMiss haccess hrun fun _ hnext => .notifies hnext hpaging
          | succ left => exact goesOn_of_proceed hrun (.notifies rfl hpaging)

/-- The processor makes the access. -/
theorem access_goesOn (h : k.Calling m n place p ⟨request, .accessing, moved⟩ callers)
    (hrun : k.access ⟨request, .accessing, moved⟩ = .ok (.continues call', k')) :
    k.GoesOn ⟨request, .accessing, moved⟩ k' call' := by
  have hbyte : request.isByte = true := h.fits.stage
  have hpaging := h.paging_bare rfl rfl rfl
  have hsize := h.sound.pageSize_eq
  cases request with
  | read a =>
      obtain rfl : moved = [] := h.fits.moved_nil rfl
      obtain ⟨r, proc, hload, -, -, hcase⟩ := hpaging.loadByte_run a
      obtain ⟨⟨r', proc'⟩, hload', hrun⟩ := ok_of_bind hrun
      obtain ⟨rfl, rfl⟩ := Prod.mk.inj (Except.ok.inj (hload.symm.trans hload'))
      -- a miss leaves the bad address behind, and the byte is the answer
      rcases hcase with ⟨rfl, hbad, hun, -⟩ | ⟨byte, u, rfl, -⟩
      · rw [hsize] at hun
        exact goesOn_of_proceed hrun
          (.misses rfl (congrArg _ hbad) fun hcached => hcached.not_uncached hun)
      · cases hrun
  | write a v =>
      obtain rfl : moved = [] := h.fits.moved_nil rfl
      obtain ⟨r, proc, hstore, -, hcase⟩ := hpaging.storeByte_run a v
      obtain ⟨⟨r', proc'⟩, hstore', hrun⟩ := ok_of_bind hrun
      obtain ⟨rfl, rfl⟩ := Prod.mk.inj (Except.ok.inj (hstore.symm.trans hstore'))
      rcases hcase with ⟨rfl, hbad, hun, -, -⟩ | ⟨u, -, -, ⟨rfl, -⟩ | ⟨rfl, -⟩⟩
      · rw [hsize] at hun
        exact goesOn_of_proceed hrun
          (.misses rfl (congrArg _ hbad) fun hcached => hcached.not_uncached hun)
      · exact goesOn_of_fail hrun .refused
      · cases hrun
  | _ => cases hbyte

/-- A copy pins its next page. -/
theorem pin_goesOn (h : k.Calling m n place p ⟨request, .pinning, moved⟩ callers)
    (hrun : k.pinNext (threadOf n) p ⟨request, .pinning, moved⟩ =
      some (.ok (.continues call', k'))) :
    k.GoesOn ⟨request, .pinning, moved⟩ k' call' := by
  rw [pinNext] at hrun
  split at hrun
  · cases hrun
  · rename_i hmore
    rw [not_or, Nat.not_le, Nat.not_le] at hmore
    obtain ⟨⟨r, k1⟩, hlocked, hrun⟩ := step_of_map hrun fun halt => ⟨halt, rfl⟩
    obtain ⟨paging, hact, rfl⟩ := locked_ok h.sound.region_eq hlocked
    rcases (h.paging_bare rfl rfl rfl).pinForCopy_run h.live_or hmore.2 request.isWriting with
      ⟨r', s', hpin, hpinning⟩ | ⟨frame, hhalt, -⟩
    · obtain ⟨rfl, rfl⟩ := Prod.mk.inj (Except.ok.inj (hact.symm.trans hpin))
      cases hpinning with
      | pinned => exact goesOn_of_proceed hrun .pinned
      | readOnly | ended => cases hrun
      | absent _ hun =>
          exact goesOn_of_proceed hrun (.misses rfl (Address.page_join_page _ _)
            fun hcached => hcached.not_uncached hun)
    · rw [hhalt] at hact
      cases hact

omit [Extent σ] [Extent.Reliable σ] in
/-- A copy moves the bytes of a page. -/
theorem move_goesOn {frame : Nat}
    (hrun : k.moveBytes ⟨request, .moving frame, moved⟩ frame = .ok (.continues call', k')) :
    k.GoesOn ⟨request, .moving frame, moved⟩ k' call' := by
  obtain ⟨bytes, -, hrun⟩ := ok_of_bind hrun
  split at hrun
  · obtain ⟨processor, -, hrun⟩ := ok_of_bind hrun
    obtain ⟨heq, rfl⟩ := Prod.mk.inj (Except.ok.inj hrun)
    obtain rfl := CallResult.continues.inj heq
    exact ⟨rfl, fun hne => absurd rfl (hne frame), .moved⟩
  · obtain ⟨heq, rfl⟩ := Prod.mk.inj (Except.ok.inj hrun)
    obtain rfl := CallResult.continues.inj heq
    exact ⟨rfl, fun hne => absurd rfl (hne frame), .moved⟩

/-- Where an access goes on, it goes on to a stage that follows. -/
theorem goesOn (h : k.Calling m n place p call callers) (haccess : call.request.isAccess = true)
    (habout : call.stage.About k.config.pageSize (k.pageOf call))
    (hrun : k.callStep (threadOf n) place p call = some (.ok (.continues call', k'))) :
    k.GoesOn call k' call' := by
  obtain ⟨request, stage, moved⟩ := call
  cases stage with
  | begun =>
      cases request with
      | read a | write a v | copyOut a count | copyIn a data =>
          obtain hrun := Option.some.inj hrun
          split at hrun
          · cases hrun
          · exact goesOn_of_proceed hrun (.begins rfl)
      | _ => cases haccess
  | accessing => exact h.access_goesOn (Option.some.inj hrun)
  | faulting fault =>
      obtain ⟨⟨r, k₁⟩, hfault, hrun⟩ := step_of_map hrun fun halt => ⟨halt, rfl⟩
      exact h.fault_goesOn haccess habout hfault hrun
  | pinning => exact h.pin_goesOn hrun
  | moving frame => exact move_goesOn (Option.some.inj hrun)
  | unpinning frame =>
      obtain ⟨paging, -, hrun⟩ := lockedOrHalt_ok h.sound.region_eq hrun
      exact goesOn_of_proceed hrun .unpinned
  | killing cause =>
      change k.endProcess (threadOf n) place p _ (some cause) = _ at hrun
      rw [endProcess] at hrun
      split at hrun
      · cases hrun
      · obtain ⟨paging, -, hrun⟩ := lockedOrHalt_ok h.sound.region_eq hrun
        exact goesOn_of_proceed hrun .ends
  | mourning cause phase =>
      obtain ⟨⟨next, k₁⟩, -, hrun⟩ := step_of_map hrun fun halt => ⟨halt, rfl⟩
      cases next with
      | some phase' => exact goesOn_of_proceed hrun .mourns
      | none =>
          cases cause with
          | some cause => cases hrun
          | none =>
              obtain rfl : request = .exit := h.fits.stage.2 rfl
              cases haccess
  -- the other stages are not those of an access
  | yielding | returning | flushing =>
      obtain rfl : request = .yield := h.fits.stage
      cases haccess
  | parting =>
      rcases h.fits.stage with ⟨hexit, -⟩ | hleave
      · obtain rfl : request = .exit := hexit
        cases haccess
      · obtain rfl : request = .leave := hleave
        cases haccess
  | leaving failure =>
      rcases h.fits.stage.2 with ⟨hexit, -⟩ | hleave
      · obtain rfl : request = .exit := hexit
        cases haccess
      · obtain rfl : request = .leave := hleave
        cases haccess

end Calling

omit [Extent σ] [Extent.Reliable σ] in
theorem phase_of_setPhase {phase : Phase} {s : Session}
    (h : (k.setPhase n phase).session n = some s) : s.phase = phase := by
  have h : (k.setPhase n phase).sessions[n]? = some s := h
  rw [getElem?_setPhase, if_pos rfl] at h
  obtain ⟨t, -, rfl⟩ := Option.map_eq_some_iff.1 h
  rfl

namespace Sound

/-- A step inside an access that is not the answer. -/
theorem goesOn (h : k.Sound m callers) (hs : k.session n = some ⟨i, .busy call⟩)
    (haccess : call.request.isAccess = true)
    (habout : call.stage.About k.config.pageSize (k.pageOf call))
    (hrun : k.perform (.advance n) = some (.ok (none, k')))
    (hbusy : k'.session n = some ⟨i, .busy call'⟩) : k.GoesOn call k' call' := by
  obtain ⟨r, hr, hadvances⟩ : ∃ r, r = none ∧ k.Advances n r k' :=
    ⟨none, rfl, advances_of_step hrun⟩
  cases hadvances with
  | starts hs' | enters hs' => cases hs.symm.trans hs'
  | @calls _ _ p result hs' hp hcall =>
      obtain ⟨rfl, hphase⟩ := Session.mk.inj (Option.some.inj (hs.symm.trans hs'))
      obtain rfl := Phase.busy.inj hphase
      obtain ⟨after, k₁⟩ := result
      cases after with
      | continues call₁ =>
          obtain rfl := Phase.busy.inj (phase_of_setPhase hbusy)
          obtain ⟨hrequest, hmoved, hfollows⟩ := (h.calling hs hp).goesOn haccess habout hcall
          exact ⟨hrequest, hmoved, hfollows⟩
      | answered response => cases hr
      | ended response => cases phase_of_setPhase hbusy

/-- A thread that does not have the processor leaves it and the tables alone. -/
theorem paging_kept_of_away (h : k.Sound m callers) {s : Session} (hs : k.session n = some s)
    (haway : s.phase.cpuUse ≠ .holding) {r : Option (Response σ)}
    (hrun : k.perform (.advance n) = some (.ok (r, k'))) : k'.paging = k.paging := by
  cases advances_of_step hrun with
  | starts _ _ htake =>
      obtain ⟨next', cpu, -, -, rfl⟩ := takeCpu_ok htake
      rfl
  | enters hs' =>
      obtain rfl := Option.some.inj (hs.symm.trans hs')
      exact absurd rfl haway
  | @calls _ call p result hs' _ hcall =>
      obtain rfl := Option.some.inj (hs.symm.trans hs')
      obtain ⟨after, k₁⟩ := result
      show k₁.paging = k.paging
      obtain ⟨request, stage, moved⟩ := call
      -- a thread is away while it waits for a slot, or for the processor after it has yielded
      cases stage with
      | faulting fault =>
          cases fault with
          | waiting page victim phase =>
              obtain ⟨⟨r, k₂⟩, hfault, hcall⟩ := step_of_map hcall fun halt => ⟨halt, rfl⟩
              have hafter : k₁ = k₂ :=
                afterFault_ok (show Calling.afterFault _ (r, k₂) = _ from hcall)
              obtain ⟨next, hwait, -⟩ := waiting_ok hfault
              rcases waitStep_ok h.cpu (cpuUse_eq hs) hwait with
                ⟨rfl, -⟩ | ⟨phase', -, -, hpaging, -⟩
              · exact absurd rfl haway
              · rw [← hpaging]
                exact congrArg Kernel.paging hafter
          | _ => exact absurd rfl haway
      | returning phase =>
          obtain ⟨⟨stage, k₂⟩, htake, hcall⟩ := step_of_map hcall fun halt => ⟨halt, rfl⟩
          obtain ⟨-, rfl⟩ := Prod.mk.inj (Except.ok.inj hcall)
          obtain ⟨next, cpu, -, -, rfl⟩ := takeCpu_ok htake
          rfl
      | _ => exact absurd rfl haway

/-- Nobody else touches the processor's memory and cache while a thread has it. -/
theorem processor_kept (h : k.Sound m callers) {s : Session} (hs : k.session n = some s)
    (hhold : s.phase.cpuUse = .holding) {e : Event} (he : e.isOrdinary = true)
    (hne : e ≠ .advance n) {r : Option (Response σ)} (hrun : k.perform e = some (.ok (r, k'))) :
    k'.paging.processor = k.paging.processor := by
  cases e with
  | spawn image =>
      rw [perform] at hrun
      split at hrun
      · rename_i place k₁ hspawn
        obtain ⟨-, rfl⟩ := Prod.mk.inj (Except.ok.inj (Option.some.inj hrun))
        obtain ⟨-, -, -, rfl⟩ := spawn_ok hspawn
        rfl
      · rename_i cause k₁ hspawn
        obtain ⟨-, rfl⟩ := Prod.mk.inj (Except.ok.inj (Option.some.inj hrun))
        obtain ⟨-, rfl⟩ := spawn_refused hspawn
        rfl
      · cases hrun
  | start place =>
      rw [perform] at hrun
      split at hrun
      · obtain ⟨-, rfl⟩ := Prod.mk.inj (Except.ok.inj (Option.some.inj hrun))
        rfl
      · cases hrun
  | ask j request =>
      rw [perform] at hrun
      split at hrun
      · obtain ⟨-, rfl⟩ := Prod.mk.inj (Except.ok.inj (Option.some.inj hrun))
        rfl
      · cases hrun
  | advance j =>
      cases ht : k.session j with
      | none =>
          rw [show k.perform (.advance j) = k.step j from rfl, Kernel.step, ht] at hrun
          cases hrun
      | some t =>
          -- there is one processor, so the other thread is away from it
          have haway := h.others_away hs hhold (fun hj => hne (congrArg _ hj)) ht
          rw [h.paging_kept_of_away ht haway hrun]
  | pin frame | unpin frame => cases he

end Sound

end Kernel

end DemandPaging
