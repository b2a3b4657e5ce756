import DemandPaging.Proofs.Kernel.StepKinds
import DemandPaging.Proofs.Kernel.Waking

/-!
# Every step is accounted for

Whatever programs bring about keeps the wait for swap slots in order, and is a step of the ledger
(`Sound.perform_accounted`). There are two ways for a thread to cheat those who wait, both when it
goes on after a wait of its own: it may find its process gone (`FindsGone`), and it may give its
frame back (`GivesBack`).
-/

namespace DemandPaging.Kernel

variable {σ : Type}

/-- A thread has waited for a slot, and is about to go on with a page of a process. -/
def Resumes (k : Kernel σ) (n : Nat) (p : UserProcess) (page : Nat) : Prop :=
  ∃ place call victim, k.session n = some ⟨place, .busy call⟩ ∧ k.process place = some p ∧
    call.stage = .faulting (.resuming page victim)

/-- The event is that a thread goes on after its wait for a slot, and its process has ended. -/
def FindsGone (k : Kernel σ) (e : Event) : Prop :=
  ∃ n p page, e = .advance n ∧ k.Resumes n p page ∧ p.exited = true

/-- The event is that a thread goes on after its wait for a slot and gives its frame back, for its
process has ended, or the page is already in another frame. -/
def GivesBack (k : Kernel σ) (e : Event) (k' : Kernel σ) : Prop :=
  ∃ n p page, e = .advance n ∧ k.Resumes n p page ∧
    (p.exited = true ∨ ∃ f, k.paging.frameTable.owner f = some ⟨p.pid, page⟩) ∧
    ∀ f, ¬ k'.WaitsWith n f

/-- A step inside a request is accounted for. -/
def Accounts (k : Kernel σ) (n : Nat) (result : After σ) : Prop :=
  Accounted (k.FindsGone (.advance n)) (k.GivesBack (.advance n)
    (result.2.setPhase n result.1.phase)) k (result.2.setPhase n result.1.phase)

variable {k k' : Kernel σ} {n place : Nat} {p : UserProcess} {call : Call} {result : After σ}

namespace Calling

variable [Extent σ] [Extent.Reliable σ] {m : FlatMachine} {request : Request} {moved : List UInt8}
  {callers : Multiset Nat}

variable (hw : k.SlotWaits)
include hw

/-! ## Faults -/

section Faults

variable {r : Except PagingError (Option Faulting)}

/-- A miss is handled for a process that is alive, so whoever has to wait has a process. -/
theorem missing_accounts {a : Nat}
    (h : k.Calling m n place p ⟨request, .faulting (.missing a), moved⟩ callers)
    (hfault : k.faultStep (threadOf n) p (.missing a) = some (.ok (r, k')))
    (hrun : afterFault ⟨request, .faulting (.missing a), moved⟩ (r, k') = .ok result) :
    k.Accounts n result := by
  obtain ⟨_, paging, hact, rfl, rfl⟩ := missing_ok h.sound.region_eq hfault
  obtain ⟨r', s', hmiss, hcase⟩ :=
    (h.paging_bare rfl rfl rfl).handleMiss_run h.live_or a (h.holds rfl)
  obtain ⟨rfl, rfl⟩ := Prod.mk.inj (Except.ok.inj (hact.symm.trans hmiss))
  rcases hcase with ⟨rfl, -⟩ | ⟨-, hsettled, hcase⟩
  · -- the lack of a victim halts the machine
    cases hrun
  · obtain ⟨after, k1⟩ := result
    obtain ⟨rfl, hafter⟩ := handled_ok hrun
    refine hw.settled h.session ⟨rfl, rfl, rfl, rfl⟩ rfl (.inl rfl) hafter hsettled
      (fun _ _ => .inl ⟨rfl, trivial⟩) (fun _ hwanted => absurd trivial hwanted) ?_
    intro victim hr _
    rcases hcase with ⟨-, hlive⟩ | ⟨hr', -⟩
    · obtain ⟨-, hexited⟩ := h.eq_of_live (hlive _ hr).1
      have hs : ({ k with paging } : Kernel σ).sessions[n]? = some _ := h.session
      exact ⟨_, p, getElem?_setPhase_self hs after.phase, h.process, hexited⟩
    · rw [hr] at hr'
      cases hr'

/-- A thread goes on after its wait. If its process has ended it gives its frame back, and the slot
that it was woken for is lost; if the page is already in a frame it gives its own frame back. -/
theorem resuming_accounts {page victim : Nat}
    (h : k.Calling m n place p ⟨request, .faulting (.resuming page victim), moved⟩ callers)
    (hfault : k.faultStep (threadOf n) p (.resuming page victim) = some (.ok (r, k')))
    (hrun : afterFault ⟨request, .faulting (.resuming page victim), moved⟩ (r, k') = .ok result) :
    k.Accounts n result := by
  obtain ⟨_, paging, hact, rfl, rfl⟩ := resuming_ok h.sound.region_eq hfault
  obtain ⟨r', s', hresume, hhandled, -, hsettled⟩ :=
    (h.paging_apart rfl rfl).resumeFault_run (h.victim_notMem rfl) h.live_or h.fits.stage.2
  obtain ⟨rfl, rfl⟩ := Prod.mk.inj (Except.ok.inj (hact.symm.trans hresume))
  obtain ⟨after, k1⟩ := result
  obtain ⟨rfl, hafter⟩ := handled_ok hrun
  have hresumes : k.Resumes n p page := ⟨place, _, victim, h.session, h.process, rfl⟩
  refine hw.settled h.session ⟨rfl, rfl, rfl, rfl⟩ rfl (.inr ⟨victim, rfl⟩) hafter hsettled
    (fun cause hr => .inr ?_) (fun hnone hunwanted => ?_) nofun
  · obtain rfl := hr
    exact ⟨n, p, page, rfl, hresumes, h.exited_of_live_eq hhandled.2.1⟩
  · refine ⟨n, p, page, rfl, hresumes, ?_, ?_⟩
    · rcases h.live_or with hlive | hend
      · refine .inr (not_forall_not.1 fun habsent => hunwanted ⟨hlive, habsent⟩)
      · exact .inl (h.exited_of_live_eq hend)
    · rintro f ⟨t, ht, hvictim⟩
      have hs : ({ k with paging } : Kernel σ).sessions[n]? = some _ := h.session
      obtain rfl := Option.some.inj ((getElem?_setPhase_self hs after.phase).symm.trans ht)
      rw [← Phase.victim?_slotPart, hafter, hnone] at hvictim
      cases hvictim

/-- A step of a thread that handles a miss. -/
theorem fault_accounts {phase : Faulting}
    (h : k.Calling m n place p ⟨request, .faulting phase, moved⟩ callers)
    (hfault : k.faultStep (threadOf n) p phase = some (.ok (r, k')))
    (hrun : afterFault ⟨request, .faulting phase, moved⟩ (r, k') = .ok result) :
    k.Accounts n result := by
  cases phase with
  | missing a => exact h.missing_accounts hw hfault hrun
  | resuming page victim => exact h.resuming_accounts hw hfault hrun
  | waiting page victim phase =>
      obtain ⟨next, hwait, rfl⟩ := waiting_ok hfault
      obtain rfl := Except.ok.inj hrun
      refine hw.wait h.session rfl hwait ?_
      cases next <;> rfl
  | notifying left phase =>
      obtain ⟨next, hnotify, rfl⟩ := notifying_ok hfault
      obtain ⟨after, k2⟩ := result
      obtain ⟨rfl, hafter⟩ := notified_ok hrun
      exact hw.notify h.sound.cpu h.session rfl hnotify hafter

end Faults

/-- A step of a thread inside a request. -/
theorem step_accounts (h : k.Calling m n place p call callers)
    (hrun : k.callStep (threadOf n) place p call = some (.ok result)) : k.Accounts n result := by
  cases h.step_kind hrun with
  | aside hold haside =>
      exact hw.aside h.session haside.waits hold haside.apart haside.still
  | faults hstage hfault hafter =>
      obtain ⟨request, stage, moved⟩ := call
      obtain rfl : stage = _ := hstage
      exact h.fault_accounts hw hfault hafter
  | ends hold _ _ _ hreclaimed =>
      exact hw.mourned h.session ⟨rfl, rfl, rfl, rfl⟩ hold rfl fun _ => hreclaimed.laden
  | mourns hstage hnotify hafter =>
      obtain ⟨request, stage, moved⟩ := call
      obtain rfl : stage = _ := hstage
      exact hw.notify h.sound.cpu h.session rfl hnotify hafter

end Calling

/-! ## New processes, threads and requests -/

/-- A change that leaves all threads where they are, and that nobody who waits can notice. -/
theorem SlotWaits.same (hw : k.SlotWaits) (hsame : k.SameWaits k')
    (hstill : k.paging.Still k'.paging) {gone back : Prop} : Accounted gone back k k' := by
  have hwaits : ∀ i f, k'.WaitsWith i f → k.WaitsWith i f := by
    rintro i f ⟨s, hs, hf⟩
    exact ⟨s, (congrArg (fun l => l[i]?) hsame.sessions_eq).symm.trans hs, hf⟩
  refine ⟨⟨?_, ?_, ?_, fun n f hf => hstill.laden (hw.laden n f (hwaits n f hf))⟩, ?_,
    fun i f hf => .inl ⟨f, hwaits i f hf⟩⟩
  · rw [swapUse, byThread_congr _ _ hsame.sessions_eq, hsame.swapLock_eq]
    exact hw.swap
  · rw [tickets, byThread_congr _ _ hsame.sessions_eq, hsame.slotFreed_eq]
    exact hw.queue
  · rw [hsame.waiting_eq, hsame.sessions_eq]
    exact hw.waiting_eq
  · have hledger : k'.ledger = k.ledger := by
      have hstanding : k'.standing k.woken = k.standing k.woken :=
        funext fun n => congrFun (byThread_congr _ _ hsame.sessions_eq) (threadOf n)
      rw [ledger, ledger, hsame.woken_eq, hsame.sessions_eq, hstanding, hstill.ledger_eq]
    rw [hledger]
    exact .still _

/-- A new thread has nothing to do with the wait. -/
theorem SlotWaits.start (hw : k.SlotWaits) (place : Nat) {gone back : Prop} :
    Accounted gone back k (k.start place) := by
  have hwaits : ∀ i f, (k.start place).WaitsWith i f → k.WaitsWith i f := by
    rintro i f ⟨s, hs, hf⟩
    rcases Sound.getElem?_start hs with hs | ⟨-, rfl⟩
    · exact ⟨s, hs, hf⟩
    · cases hf
  refine ⟨⟨?_, ?_, ?_, fun n f hf => hw.laden n f (hwaits n f hf)⟩, ?_,
    fun i f hf => .inl ⟨f, hwaits i f hf⟩⟩
  · rw [swapUse, Sound.byThread_start _ LockUse.away rfl]
    exact hw.swap
  · rw [tickets, Sound.byThread_start _ none rfl]
    exact hw.queue
  · exact hw.waiting_eq.trans (Sound.sum_start _ rfl).symm
  · have hlength : (k.start place).sessions.length = k.sessions.length + 1 := List.length_append
    have hstanding : (k.start place).standing k.woken = k.standing k.woken :=
      funext fun n => congrFun
        (Sound.byThread_start _ _ rfl place) (threadOf n)
    have hnew : k.standing k.woken k.sessions.length = .owing 0 := by
      show (k.sessions[k.sessions.length]?.map _).getD _ = _
      rw [List.getElem?_eq_none (Nat.le_refl _)]
      rfl
    have hledger : (k.start place).ledger =
        { k.ledger with standings := .owing 0 ::ₘ k.ledger.standings } := by
      show k.paging.ledger (((Multiset.range (k.start place).sessions.length)).map
        ((k.start place).standing k.woken)) = _
      rw [hlength, hstanding, Multiset.range_succ, Multiset.map_cons, hnew]
      rfl
    rw [hledger]
    exact .arrive _

namespace Sound

variable [Extent σ] [Extent.Reliable σ] {m : FlatMachine} {callers : Multiset Nat}

/-- A step of a thread is accounted for. -/
theorem step_accounted (h : k.Sound m callers) (hw : k.SlotWaits) {r : Option (Response σ)}
    (hrun : k.step n = some (.ok (r, k'))) :
    Accounted (k.FindsGone (.advance n)) (k.GivesBack (.advance n) k') k k' := by
  cases advances_of_step hrun with
  | starts hs _ htake =>
      obtain ⟨next', cpu, -, rfl, rfl⟩ := takeCpu_ok htake
      refine hw.aside hs ⟨rfl, rfl, rfl, rfl⟩ rfl ?_ (.refl _)
      cases next' <;> rfl
  | enters hs => exact hw.aside hs ⟨rfl, rfl, rfl, rfl⟩ rfl rfl (.of_eq rfl rfl rfl)
  | calls hs hp hcall => exact (h.calling hs hp).step_accounts hw hcall

/-- What programs can bring about is accounted for. -/
theorem perform_accounted (h : k.Sound m callers) (hw : k.SlotWaits) {e : Event}
    (he : e.isOrdinary = true) {r : Option (Response σ)}
    (hrun : k.perform e = some (.ok (r, k'))) :
    Accounted (k.FindsGone e) (k.GivesBack e k') k k' := by
  cases e with
  | spawn image =>
      rw [perform] at hrun
      split at hrun
      · rename_i place k1 hspawn
        obtain ⟨rfl, rfl⟩ := Prod.mk.inj (Except.ok.inj (Option.some.inj hrun))
        obtain ⟨-, hnext, -, rfl⟩ := spawn_ok hspawn
        obtain ⟨-, hfresh⟩ := h.next_fresh hnext
        obtain ⟨running, -, hpaging⟩ := h.paging
        have hsame : k.SameWaits (k.added (k.newcomer image)) := ⟨rfl, rfl, rfl, rfl⟩
        exact hw.same hsame (hpaging.still_added (k.newcomer image) hfresh)
      · rename_i cause k1 hspawn
        obtain ⟨rfl, rfl⟩ := Prod.mk.inj (Except.ok.inj (Option.some.inj hrun))
        obtain ⟨-, rfl⟩ := spawn_refused hspawn
        exact hw.same (.refl _) (.refl _)
      · cases hrun
  | start i =>
      rw [perform] at hrun
      split at hrun
      · obtain ⟨rfl, rfl⟩ := Prod.mk.inj (Except.ok.inj (Option.some.inj hrun))
        exact hw.start i
      · cases hrun
  | ask n request =>
      rw [perform] at hrun
      split at hrun
      · rename_i hready
        obtain ⟨s, hs, hready⟩ := Option.map_eq_some_iff.1 hready
        obtain ⟨rfl, rfl⟩ := Prod.mk.inj (Except.ok.inj (Option.some.inj hrun))
        exact hw.aside hs (.refl k) (by rw [hready]; rfl) rfl (.refl _)
      · cases hrun
  | advance n => exact h.step_accounted hw hrun
  | pin frame => cases he
  | unpin frame => cases he

end Sound

end DemandPaging.Kernel
