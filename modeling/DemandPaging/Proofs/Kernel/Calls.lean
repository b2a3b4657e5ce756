import DemandPaging.Kernel.Step
import DemandPaging.Proofs.Kernel.Locks

/-!
# Steps inside a request

`Kernel.Simulated` says that a step of the kernel is right: the flat machine can make the same step
with the same answer, and what holds of the kernel still holds. `Kernel.Calling` gathers what is
known of a thread inside a request, and its lemmas say what is left to be shown of a step that
leaves the tables alone, and of one that changes them.
-/

namespace DemandPaging

variable {σ : Type}

/-- The phase after a step inside a request. -/
def CallResult.phase : CallResult σ → Phase
  | continues call => .busy call
  | answered _ => .ready
  | ended _ => .ended

/-- The answer that a step inside a request gives. -/
def CallResult.response : CallResult σ → Option (Response σ)
  | continues _ => none
  | answered response => some response
  | ended response => response

/-- A thread that is about the same as before. -/
theorem FlatMachine.setErrand_self {m : FlatMachine} {n i : Nat} {errand : Errand}
    (h : m.threads[n]? = some ⟨i, errand⟩) : m.setErrand n errand = m := by
  have hthreads : (m.threads.modify n fun t => { t with errand }) = m.threads := by
    apply List.ext_getElem?
    intro j
    rw [List.getElem?_modify]
    by_cases hj : n = j
    · rw [← hj, h]
      simp
    · simp [hj]
  rw [setErrand, hthreads]

namespace Kernel

/-- What a step of a thread can be: a part of taking the processor for the first time, the way into
its process, or a step inside a request. -/
inductive Advances [Extent σ] (k : Kernel σ) (n : Nat) : Option (Response σ) → Kernel σ → Prop where
  | starts {place : Nat} {phase : Acquiring} {p : UserProcess} {next : Phase} {k₁ : Kernel σ}
      (hs : k.session n = some ⟨place, .starting phase⟩) (hp : k.process place = some p)
      (htake : k.takeCpu (threadOf n) phase Phase.starting .entering = some (.ok (next, k₁))) :
      Advances k n none (k₁.setPhase n next)
  | enters {place : Nat} {p : UserProcess} (hs : k.session n = some ⟨place, .entering⟩)
      (hp : k.process place = some p) : Advances k n none (k.flush.setPhase n .ready)
  | calls {place : Nat} {call : Call} {p : UserProcess} {result : After σ}
      (hs : k.session n = some ⟨place, .busy call⟩) (hp : k.process place = some p)
      (hcall : k.callStep (threadOf n) place p call = some (.ok result)) :
      Advances k n result.1.response (result.2.setPhase n result.1.phase)

theorem advances_of_step [Extent σ] {k k' : Kernel σ} {n : Nat} {r : Option (Response σ)}
    (hrun : k.step n = some (.ok (r, k'))) : k.Advances n r k' := by
  obtain ⟨⟨place, phase⟩, hs, hrun⟩ := Option.bind_eq_some_iff.1 hrun
  obtain ⟨p, hp, hrun⟩ := Option.bind_eq_some_iff.1 hrun
  cases phase with
  | starting phase =>
      obtain ⟨⟨next, k₁⟩, htake, hrun⟩ := step_of_map hrun fun halt => ⟨halt, rfl⟩
      obtain ⟨rfl, rfl⟩ := Prod.mk.inj (Except.ok.inj hrun)
      exact .starts hs hp htake
  | entering =>
      obtain ⟨rfl, rfl⟩ := Prod.mk.inj (Except.ok.inj (Option.some.inj hrun))
      exact .enters hs hp
  | busy call =>
      obtain ⟨⟨after, k₁⟩, hcall, hrun⟩ := step_of_map hrun fun halt => ⟨halt, rfl⟩
      cases after with
      | continues call' | answered response | ended response =>
          obtain ⟨rfl, rfl⟩ := Prod.mk.inj (Except.ok.inj hrun)
          exact .calls hs hp hcall
  | ready => cases hrun
  | ended => cases hrun

variable [Extent σ] [Extent.Reliable σ]

/-- The flat machine can make the same step, and what holds of the kernel still holds. Where the
step changes the memory of pages that there were, all pages stay where they are. -/
def Simulated (k : Kernel σ) (m : FlatMachine) (e : Event) (r : Option (Response σ))
    (k' : Kernel σ) (callers : Multiset Nat := 0) : Prop :=
  ∃ m', FlatMachine.Step m e r m' ∧ k'.Sound m' callers ∧
    ((∀ id entry, k.paging.tables.find? id = some entry → m'.page id = m.page id) ∨
      k'.paging.tables = k.paging.tables)

/-- A step inside a request is right. -/
def Reaches (k : Kernel σ) (m : FlatMachine) (n : Nat) (result : After σ)
    (callers : Multiset Nat := 0) : Prop :=
  k.Simulated m (.advance n) result.1.response (result.2.setPhase n result.1.phase) callers

/-- What is known of a thread inside a request. -/
structure Calling (k : Kernel σ) (m : FlatMachine) (n place : Nat) (p : UserProcess) (call : Call)
    (callers : Multiset Nat := 0) : Prop where
  sound : k.Sound m callers
  session : k.sessions[n]? = some ⟨place, .busy call⟩
  process : k.processes[place]? = some p
  fits : call.Fits k.config.pageSize p

variable {k k' : Kernel σ} {m m' : FlatMachine} {n place : Nat} {p : UserProcess} {call : Call}
  {callers : Multiset Nat}

omit [Extent σ] [Extent.Reliable σ] in
/-- An action on the tables that must not fail. -/
theorem lockedOrHalt_ok (hfree : k.region = {}) {thread : ThreadId} {act : PagingM σ Unit}
    {next : Kernel σ → Except Halt (After σ)} {result : After σ}
    (h : k.lockedOrHalt thread act next = some (.ok result)) :
    ∃ paging, act k.paging = .ok (.ok (), paging) ∧ next { k with paging } = .ok result := by
  obtain ⟨⟨r, k1⟩, hlocked, h⟩ := step_of_map h fun halt => ⟨halt, rfl⟩
  cases r with
  | error cause => cases h
  | ok =>
      obtain ⟨paging, hact, rfl⟩ := locked_ok hfree hlocked
      exact ⟨paging, hact, h⟩

/-- A step that changes what a thread is about, and no memory. -/
theorem Simulated.of_step {e : Event} {r : Option (Response σ)} {errand : Errand}
    (hstep : FlatMachine.Step m e r (m.setErrand n errand))
    (h : k'.Sound (m.setErrand n errand) callers) : k.Simulated m e r k' callers :=
  ⟨_, hstep, h, .inl fun _ _ _ => rfl⟩

/-- The processor's lock serves a thread that goes on as before. -/
theorem Sound.serves_same (h : k.Sound m callers) {s : Session} (hs : k.sessions[n]? = some s)
    (hcpu : k'.cpu = k.cpu) {u : LockUse} (hu : u = s.phase.cpuUse) :
    k'.cpu.Serves (Function.update k.cpuUse (threadOf n) u) := by
  rw [hu, ← cpuUse_eq hs, Function.update_eq_self, hcpu]
  exact h.cpu

/-- A thread's call fits its process, as the invariant has it of all threads. -/
theorem Sound.calling (h : k.Sound m callers) (hs : k.sessions[n]? = some ⟨place, .busy call⟩)
    (hp : k.processes[place]? = some p) : k.Calling m n place p call callers := by
  obtain ⟨q, hq, hfits⟩ := h.fits n _ hs
  obtain rfl := Option.some.inj (hp.symm.trans hq)
  exact ⟨h, hs, hp, hfits⟩

namespace Calling

variable (h : k.Calling m n place p call callers)
include h

theorem thread : m.threads[n]? = some ⟨place, (Phase.busy call).errand⟩ :=
  h.sound.thread h.session

/-- A step that nobody notices, since the thread goes on being about the same. -/
theorem unnoticed {errand : Errand} (herrand : errand = (Phase.busy call).errand) :
    FlatMachine.Step m (.advance n) (none : Option (Response σ)) (m.setErrand n errand) := by
  rw [herrand, FlatMachine.setErrand_self h.thread]
  exact .unnoticed

theorem flat : ∃ q, m.processes[place]? = some q ∧ q.process = p :=
  h.sound.flat_of_process h.process

/-- The pages of the process are those of the flat machine. -/
theorem page_eq {q : FlatProcess} (hq : m.processes[place]? = some q) (v : Nat) :
    m.page ⟨q.process.pid, v⟩ = q.load (v * k.config.pageSize) k.config.pageSize := by
  rw [h.sound.numbered.page_eq hq, h.sound.config_eq]

theorem pageSize_pos : 0 < k.config.pageSize := by
  obtain ⟨running, -, hpaging⟩ := h.sound.paging
  exact h.sound.pageSize_eq ▸ hpaging.sized.pageSize_pos

theorem live_or : k.live p.pid = some p ∨ k.live p.pid = none := h.sound.live_or h.process

theorem live_eq : k.live p.pid = if p.exited then none else some p := h.sound.live_eq h.process

theorem exited_of_live_eq (hend : k.live p.pid = none) : p.exited = true := by
  rw [h.live_eq] at hend
  split at hend
  · assumption
  · cases hend

/-- Whoever is alive under the number of the process is the process. -/
theorem eq_of_live {u : UserProcess} (hu : k.live p.pid = some u) :
    u = p ∧ p.exited = false := by
  rw [h.live_eq] at hu
  split at hu
  · cases hu
  · rename_i hlive
    exact ⟨(Option.some.inj hu).symm, Bool.not_eq_true _ ▸ hlive⟩

/-- A thread that has the processor and uses the cache. -/
theorem paging (huses : call.stage.usesCache = true) :
    k.paging.Sound k.live (some p.pid)
      (call.stage.victims + call.stage.copied + (k.othersVictims n + callers)) m.page := by
  have hhold : (Phase.busy call).cpuUse = .holding := Phase.holding_of_usesCache huses
  obtain ⟨hsound, -⟩ := h.sound.holder h.session h.process hhold
  -- the stage decides whether the cache is used, not the rest of the call
  rw [if_pos (show (Phase.busy call).usesCache = true from huses)] at hsound
  exact hsound

/-- A thread that has the processor while the cache is empty. -/
theorem paging_apart (hhold : call.stage.cpuUse = .holding)
    (huses : call.stage.usesCache = false) :
    k.paging.Sound k.live none
      (call.stage.victims + call.stage.copied + (k.othersVictims n + callers)) m.page := by
  obtain ⟨hsound, -⟩ := h.sound.holder h.session h.process hhold
  rw [show (Phase.busy call).usesCache = false from huses] at hsound
  exact hsound

/-- A thread that uses the cache, and pins nothing. -/
theorem paging_bare (huses : call.stage.usesCache = true) (hvictims : call.stage.victims = 0)
    (hcopied : call.stage.copied = 0) :
    k.paging.Sound k.live (some p.pid) (k.othersVictims n + callers) m.page := by
  have hpaging := h.paging huses
  rw [hvictims, hcopied, zero_add, zero_add] at hpaging
  exact hpaging

theorem holds (huses : call.stage.usesCache = true) : call.stage.Holds k.paging p call :=
  (h.sound.holder h.session h.process (Phase.holding_of_usesCache huses)).2 huses

theorem others_exclusive : Exclusive (k.othersVictims n) callers :=
  h.sound.exclusive.mono (othersVictims_le k n)

/-- The victim of a thread is the thread's alone, so no other pin is on its frame. -/
theorem victim_notMem {victim : Nat} (hvictims : call.stage.victims = {victim}) :
    victim ∉ k.othersVictims n + callers := by
  obtain ⟨hnodup, hnot⟩ := h.sound.exclusive
  rw [victims_eq h.session, show (Phase.busy call).victims = {victim} from hvictims,
    Multiset.singleton_add] at hnodup hnot
  rw [Multiset.mem_add, not_or]
  exact ⟨(Multiset.nodup_cons.1 hnodup).1, hnot victim (Multiset.mem_cons_self _ _)⟩

/-- A thread that keeps no victim of its own stands in nobody's way. -/
theorem exclusive_of_bare {victims : Multiset Nat} (hvictims : victims = 0) :
    Exclusive (victims + k.othersVictims n) callers := by
  rw [hvictims, zero_add]
  exact h.others_exclusive

/-- A call that goes on at another stage fits if the stage does. -/
theorem fits_at {stage : Stage} (hstage : stage.Fits k.config.pageSize p { call with stage }) :
    (Phase.busy { call with stage }).Fits k.config.pageSize p :=
  ⟨h.fits.ordinary, h.fits.moved_le, h.fits.moved_nil, hstage⟩

/-- The request goes on, and nothing has changed that matters. -/
theorem proceed_still (hhold : call.stage.cpuUse = .holding) (hsame : k.SameThreads k')
    (hpaging : k'.paging = k.paging) (hcpu : k'.cpu = k.cpu) {stage : Stage}
    (hfits : stage.Fits k.config.pageSize p { call with stage })
    (hhold' : stage.cpuUse = .holding) (huses : stage.usesCache = true)
    (hvictims : stage.victims = call.stage.victims) (hcopied : stage.copied = call.stage.copied)
    (hholds : stage.Holds k.paging p { call with stage })
    (hstep : FlatMachine.Step m (.advance n) (none : Option (Response σ))
      (m.setErrand n (Phase.busy { call with stage }).errand)) :
    k.Reaches m n (.continues { call with stage }, k') callers := by
  refine .of_step hstep ?_
  exact h.sound.advance_still _ h.session hhold hsame hpaging h.process (h.fits_at hfits)
    (h.sound.serves_same h.session hcpu (hhold'.trans hhold.symm)) (fun _ => huses) hvictims hcopied
    (fun _ => hholds)

/-- The request is answered, and nothing has changed that matters. -/
theorem reply_still (hhold : call.stage.cpuUse = .holding) (hsame : k.SameThreads k')
    (hpaging : k'.paging = k.paging) (hcpu : k'.cpu = k.cpu) (hvictims : call.stage.victims = 0)
    (hcopied : call.stage.copied = 0) {response : Response σ}
    (hstep : FlatMachine.Step m (.advance n) (some response) (m.setErrand n .idle)) :
    k.Reaches m n (.answered response, k') callers := by
  refine .of_step hstep ?_
  exact h.sound.advance_still .ready h.session hhold hsame hpaging h.process trivial
    (h.sound.serves_same h.session hcpu hhold.symm) (fun _ => rfl) hvictims.symm hcopied.symm
    (fun _ => trivial)

/-- The request goes on, and only the locks are different. -/
theorem proceed_aside (hsame : k.SameThreads k') (hpaging : k'.paging = k.paging) {stage : Stage}
    (hfits : stage.Fits k.config.pageSize p { call with stage })
    (hcpu : k'.cpu.Serves (Function.update k.cpuUse (threadOf n) stage.cpuUse))
    (huses : call.stage.usesCache = false) (huses' : stage.usesCache = false)
    (hvictims : stage.victims = call.stage.victims) (hcopied : stage.copied = call.stage.copied)
    (herrand : (Phase.busy { call with stage }).errand = (Phase.busy call).errand) :
    k.Reaches m n (.continues { call with stage }, k') callers := by
  refine .of_step (h.unnoticed herrand) ?_
  exact h.sound.advance_aside _ h.session hsame hpaging h.process (h.fits_at hfits) hcpu huses
    huses' hvictims hcopied

/-- The request goes on with other tables. -/
theorem proceed_holder (hhold : call.stage.cpuUse = .holding) (hsame : k.SameThreads k')
    (hcpu : k'.cpu = k.cpu) {stage : Stage}
    (hfits : stage.Fits k.config.pageSize p { call with stage })
    (hhold' : stage.cpuUse = .holding)
    (hvictims : Exclusive (stage.victims + k.othersVictims n) callers)
    (hsize : k'.paging.processor.pageSize = k.paging.processor.pageSize)
    (hpaging : k'.paging.Sound k.live (if stage.usesCache then some p.pid else none)
      (stage.victims + stage.copied + (k.othersVictims n + callers)) m.page)
    (hholds : stage.usesCache = true → stage.Holds k'.paging p { call with stage })
    (hstep : FlatMachine.Step m (.advance n) (none : Option (Response σ))
      (m.setErrand n (Phase.busy { call with stage }).errand)) :
    k.Reaches m n (.continues { call with stage }, k') callers := by
  refine .of_step hstep ?_
  exact h.sound.advance_holder _ h.session hhold hsame.follows (hsame.shows h.sound.toShows)
    (hsame.processes_eq ▸ h.process) (h.fits_at hfits) hvictims
    (h.sound.serves_same h.session hcpu (hhold'.trans hhold.symm)) hsize
    (hsame.live_eq ▸ hpaging) hholds

/-- The request goes on with other tables, at a stage that pins nothing. -/
theorem proceed_bare (hhold : call.stage.cpuUse = .holding) (hsame : k.SameThreads k')
    (hcpu : k'.cpu = k.cpu) {stage : Stage}
    (hfits : stage.Fits k.config.pageSize p { call with stage }) (huses : stage.usesCache = true)
    (hvictims : stage.victims = 0) (hcopied : stage.copied = 0)
    (hsize : k'.paging.processor.pageSize = k.paging.processor.pageSize)
    (hpaging : k'.paging.Sound k.live (some p.pid) (k.othersVictims n + callers) m.page)
    (hholds : stage.Holds k'.paging p { call with stage })
    (hstep : FlatMachine.Step m (.advance n) (none : Option (Response σ))
      (m.setErrand n (Phase.busy { call with stage }).errand)) :
    k.Reaches m n (.continues { call with stage }, k') callers := by
  -- a stage that uses the cache has the processor
  have hhold' : (Phase.busy { call with stage }).cpuUse = .holding :=
    Phase.holding_of_usesCache huses
  refine h.proceed_holder hhold hsame hcpu hfits hhold' (h.exclusive_of_bare hvictims) hsize ?_
    (fun _ => hholds) hstep
  rw [if_pos huses, hvictims, hcopied, zero_add, zero_add]
  exact hpaging

/-- The request is answered, with other tables. -/
theorem reply_holder (hhold : call.stage.cpuUse = .holding) (hsame : k.SameThreads k')
    (hcpu : k'.cpu = k.cpu) (hsize : k'.paging.processor.pageSize = k.paging.processor.pageSize)
    (hpaging : k'.paging.Sound k.live (some p.pid) (k.othersVictims n + callers) m.page)
    {response : Response σ}
    (hstep : FlatMachine.Step m (.advance n) (some response) (m.setErrand n .idle)) :
    k.Reaches m n (.answered response, k') callers := by
  refine .of_step hstep ?_
  refine h.sound.advance_holder .ready h.session hhold hsame.follows
    (hsame.shows h.sound.toShows) (hsame.processes_eq ▸ h.process) trivial (h.exclusive_of_bare rfl)
    (h.sound.serves_same h.session hcpu hhold.symm) hsize ?_ (fun _ => trivial)
  rw [show Phase.pins .ready = 0 from rfl, zero_add]
  exact hsame.live_eq ▸ hpaging

/-- A thread stores some bytes of a page, and all pages stay where they are. -/
theorem store_holder (phase : Phase) (hhold : call.stage.cpuUse = .holding)
    (hsame : k.SameThreads k') (hcpu : k'.cpu = k.cpu)
    (htables : k'.paging.tables = k.paging.tables)
    (hsize : k'.paging.processor.pageSize = k.paging.processor.pageSize)
    (hfits : phase.Fits k.config.pageSize p) (hhold' : phase.cpuUse = .holding)
    (huses : phase.usesCache = true) (hholds : phase.Holds k'.paging p)
    (hvictims : phase.victims = 0) {q : FlatProcess} (hq : m.processes[place]? = some q)
    {a : Nat} {bytes : List UInt8}
    (hfit : Address.offset k.config.pageSize a + bytes.length ≤ k.config.pageSize)
    (hpaging : k'.paging.Sound k.live (some p.pid) (phase.pins + (k.othersVictims n + callers))
      (Function.update m.page ⟨p.pid, Address.page k.config.pageSize a⟩
        (Extent.patch (m.page ⟨p.pid, Address.page k.config.pageSize a⟩)
          (Address.offset k.config.pageSize a) bytes)))
    {r : Option (Response σ)} (hstep : FlatMachine.Step m (.advance n) r
      ((m.setProcess place (q.store a bytes)).setErrand n phase.errand)) :
    k.Simulated m (.advance n) r (k'.setPhase n phase) callers := by
  have hprocess : q.process = p := by
    obtain ⟨q', hq', hp⟩ := h.flat
    rw [hq] at hq'
    rw [Option.some.inj hq', hp]
  have hpage := h.sound.numbered.page_store hq a (by rw [h.sound.config_eq]; exact hfit)
  rw [hprocess, h.sound.config_eq] at hpage
  have hshows : k'.Shows (m.setProcess place (q.store a bytes)) := by
    refine hsame.shows (h.sound.toShows.setProcess hq rfl)
  refine ⟨_, hstep, ?_, .inr htables⟩
  refine h.sound.advance_holder phase h.session hhold hsame.follows hshows
    (hsame.processes_eq ▸ h.process) hfits (h.exclusive_of_bare hvictims)
    (h.sound.serves_same h.session hcpu (hhold'.trans hhold.symm)) hsize ?_ (fun _ => hholds)
  rw [if_pos huses, hsame.live_eq, hpage]
  exact hpaging

end Calling

end Kernel

end DemandPaging
