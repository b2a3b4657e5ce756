import DemandPaging.Proofs.Kernel.Accesses
import DemandPaging.Proofs.Kernel.Endings
import DemandPaging.Proofs.Paging.Layout

/-!
# Why accesses are refused

An access is refused for one of few causes (`Request.FailsWith`), and only when its process ends or
has ended. A thread looks at its process when it begins and whenever it has slept, and keeps the
processor from then on, so that nobody else can end the process (`Stage.Justified`).

Little is needed for that, and all of it holds whatever callers do to frames, slots of the cache and
the swap extent (`Kernel.Orderly`): the processor's lock serves the threads, and processes have page
tables for all of their pages as long as they live.
-/

namespace DemandPaging

/-- The errors that an access of the process with this number can be answered with. A copy ends
early rather than leave the address space or write to a read-only section. -/
inductive Request.FailsWith (pid : Pid) : Request → PagingError → Prop where
  | gone {request : Request} (haccess : request.isAccess = true) :
      FailsWith pid request (.noSuchProcess pid)
  | loadOutside {a : Nat} : FailsWith pid (.read a) (.segmentationFault a)
  | storeOutside {a : Nat} {v : UInt8} : FailsWith pid (.write a v) (.segmentationFault a)
  | readOnly {a : Nat} {v : UInt8} : FailsWith pid (.write a v) (.readOnlyViolation a)

namespace Request.FailsWith

variable {pid : Pid} {request : Request} {cause : PagingError}

/-- An error that is answered is one that ends the process. -/
theorem reach_eq (h : request.FailsWith pid cause) : cause.reach = .endsProcess := by
  cases h <;> rfl

theorem eq_of_isCopy (h : request.FailsWith pid cause) (hcopy : request.isCopy = true) :
    cause = .noSuchProcess pid := by
  cases h with
  | gone => rfl
  | loadOutside | storeOutside | readOnly => cases hcopy

/-- A load or a store outside the address space. -/
theorem outside (h : request.isByte = true) :
    request.FailsWith pid (.segmentationFault request.address) := by
  cases request with
  | read a => exact .loadOutside
  | write a v => exact .storeOutside
  | _ => cases h

end Request.FailsWith

/-! ## What a thread knows of its process -/

/-- A request has come to this stage for a reason. -/
def Stage.Justified (pageSize : Nat) (p : UserProcess) (request : Request) : Stage → Prop
  | begun => True
  | accessing => p.exited = false ∧ request.isByte = true
  | pinning | moving _ | unpinning _ => p.exited = false ∧ request.isCopy = true
  -- the process may end while the thread sleeps
  | faulting (.waiting page _ _) | faulting (.resuming page _) => page < p.numPages
  -- a trap can be handled, and an end announced, for other reasons than an access
  | faulting (.missing address) => request.isAccess = true → p.exited = false ∧
      (request.isByte = true ∧ address = request.address ∨
        request.isCopy = true ∧ Address.page pageSize address < p.numPages)
  | faulting (.notifying ..) => request.isAccess = true → p.exited = false
  | killing cause => request.isAccess = true → request.FailsWith p.pid cause
  | mourning cause _ => request.isAccess = true →
      p.exited = true ∧ ∃ c, cause = some c ∧ request.FailsWith p.pid c
  | yielding | returning _ | flushing | parting | leaving _ => request.isAccess = false

/-- Which phases a thread of a process can have come to. -/
def Phase.Justified (pageSize : Nat) (p : UserProcess) : Phase → Prop
  | busy call => call.stage.Justified pageSize p call.request
  | _ => True

/-- What an answer says of the process: that it has ended and why, or that it is alive. -/
structure Response.Tells {σ : Type} (p : UserProcess) (request : Request)
    (response : Response σ) : Prop where
  failed_iff : (∃ cause, response = .failed cause) ↔ p.exited = true
  cause : ∀ cause, response = .failed cause → request.FailsWith p.pid cause

/-- What a step inside a request may lead to: it goes on at a stage for a reason, or is answered as
the process is. -/
def CallResult.Justified {σ : Type} (pageSize : Nat) (p : UserProcess) (request : Request) :
    CallResult σ → Prop
  | continues call => call.request = request ∧ call.stage.Justified pageSize p request
  | answered response => request.isAccess = true → response.Tells p request
  | ended _ => request.isAccess = false

section Basic

variable {σ : Type} {pageSize : Nat} {p : UserProcess} {request : Request}

theorem Response.Tells.granted {response : Response σ} (halive : p.exited = false)
    (hgranted : ∀ cause, response ≠ .failed cause) : response.Tells p request := by
  refine ⟨⟨?_, fun hend => Bool.noConfusion (hend.symm.trans halive)⟩, ?_⟩
  · rintro ⟨cause, hcause⟩
    exact absurd hcause (hgranted cause)
  · exact fun cause hcause => absurd hcause (hgranted cause)

theorem Response.Tells.refused {cause : PagingError} (hend : p.exited = true)
    (hfails : request.FailsWith p.pid cause) : (failed cause : Response σ).Tells p request :=
  ⟨⟨fun _ => hend, fun _ => ⟨cause, rfl⟩⟩, fun _ h => Response.failed.inj h ▸ hfails⟩

/-- Whoever relies on its process has the processor, and the others need not care about its end. -/
theorem Phase.Justified.ended {phase : Phase} (h : phase.Justified pageSize p)
    (haway : phase.cpuUse ≠ .holding) : phase.Justified pageSize { p with exited := true } := by
  cases phase with
  | busy call =>
      obtain ⟨request, stage, moved⟩ := call
      cases stage with
      | faulting phase =>
          cases phase with
          | missing | notifying => exact absurd rfl haway
          | waiting | resuming => exact h
      | mourning => exact fun haccess => ⟨rfl, (h haccess).2⟩
      | returning => exact h
      | _ => exact absurd rfl haway
  | _ => trivial

end Basic

namespace Kernel

variable {σ : Type}

/-- Processes have their numbers in order, and page tables for all of their pages as long as they
live. -/
structure Housed (k : Kernel σ) : Prop where
  pageSize_eq : k.paging.processor.pageSize = k.config.pageSize
  next_eq : k.pids.next = UInt16.ofNat (k.processes.length + 1)
  length_lt : k.processes.length < 2 ^ 16
  pid_toNat : ∀ (i : Nat) (p : UserProcess), k.processes[i]? = some p → p.pid.toNat = i + 1
  numPages_eq : ∀ (i : Nat) (p : UserProcess), k.processes[i]? = some p →
    k.paging.layout.numPages p.pid = if p.exited then none else some p.numPages

/-- Processes are housed, the processor's lock serves the threads, and these have come to their
stages for a reason. -/
structure Orderly (k : Kernel σ) : Prop extends Housed k where
  region_eq : k.region = {}
  cpu : k.cpu.Serves k.cpuUse
  justified : ∀ (n : Nat) (s : Session), k.sessions[n]? = some s →
    ∃ p, k.processes[s.process]? = some p ∧ s.phase.Justified k.config.pageSize p

variable {k k' : Kernel σ} {n place : Nat} {p : UserProcess} {call : Call} {result : After σ}

namespace Housed

theorem exited_iff (h : k.Housed) (hp : k.processes[place]? = some p) :
    p.exited = true ↔ k.paging.layout.numPages p.pid = none := by
  rw [h.numPages_eq place p hp]
  cases p.exited <;> simp

/-- The page tables of a process have all of its pages. -/
theorem eq_numPages (h : k.Housed) (hp : k.processes[place]? = some p) {m : Nat}
    (hm : k.paging.layout.numPages p.pid = some m) : m = p.numPages := by
  rw [h.numPages_eq place p hp] at hm
  split at hm
  · cases hm
  · exact (Option.some.inj hm).symm

/-- A process that is alive has the pages inside its address space. -/
theorem has_iff (h : k.Housed) (hp : k.processes[place]? = some p) {page : Nat} :
    k.paging.layout.Has ⟨p.pid, page⟩ ↔ p.exited = false ∧ page < p.numPages := by
  constructor
  · rintro ⟨m, hm, hlt⟩
    refine ⟨?_, h.eq_numPages hp hm ▸ hlt⟩
    rw [← Bool.not_eq_true, h.exited_iff hp, hm]
    exact Option.some_ne_none m
  · rintro ⟨halive, hlt⟩
    refine ⟨p.numPages, ?_, hlt⟩
    rw [h.numPages_eq place p hp, halive]
    rfl

end Housed

/-- The processor's lock serves a thread that goes on as before. -/
theorem Orderly.serves_same (h : k.Orderly) {s : Session} (hs : k.sessions[n]? = some s)
    {u : LockUse} (hu : u = s.phase.cpuUse) :
    k.cpu.Serves (Function.update k.cpuUse (threadOf n) u) := by
  rw [hu, ← cpuUse_eq hs, Function.update_eq_self]
  exact h.cpu

/-! ## Steps inside a request -/

/-- What a step changes at most when no process ends and nobody takes or gives up the processor. -/
structure Steady (k k' : Kernel σ) : Prop where
  threads : k.SameThreads k'
  layout_eq : k'.paging.layout = k.paging.layout
  cpu_eq : k'.cpu = k.cpu

namespace Steady

theorem refl (k : Kernel σ) : k.Steady k := ⟨.refl k, rfl, rfl⟩

theorem withPaging {paging : Paging σ} (h : paging.layout = k.paging.layout) :
    k.Steady { k with paging } := ⟨.withPaging k paging, h, rfl⟩

theorem withProcessor {processor : Processor}
    (h : processor.pageSize = k.paging.processor.pageSize) : k.Steady (k.withProcessor processor) :=
  ⟨.withProcessor k processor, Paging.layout_withProcessor rfl h, rfl⟩

/-- A thread wakes others. -/
theorem of_notifyStep {thread : ThreadId} {everyone : Bool} {phase : Notifying}
    {next : Option Notifying} (h : k.notifyStep thread everyone phase = some (.ok (next, k'))) :
    k.Steady k' := by
  obtain ⟨hsame, hpaging, hcpu⟩ := notifyStep_ok h
  exact ⟨hsame, congrArg Paging.layout hpaging, hcpu⟩

/-- The tables are locked for an action that must not fail. -/
theorem of_lockedOrHalt {thread : ThreadId} {act : PagingM σ Unit}
    {next : Kernel σ → Except Halt (After σ)} {errors : PagingError → Prop} {results : Unit → Prop}
    (hfree : k.region = {}) (hact : Paging.Within k.paging.layout errors results act)
    (h : k.lockedOrHalt thread act next = some (.ok result)) :
    ∃ k', k.Steady k' ∧ next k' = .ok result := by
  obtain ⟨paging, hrun, h⟩ := lockedOrHalt_ok hfree h
  exact ⟨_, .withPaging (hact _ _ _ rfl hrun).1, h⟩

/-- The tables are locked for something that is done to the frame table. -/
theorem of_changeFrames {thread : ThreadId} {change : FrameTable → Except Halt FrameTable}
    {next : Kernel σ → Except Halt (After σ)} (hfree : k.region = {})
    (h : k.lockedOrHalt thread (Paging.changeFrames change) next = some (.ok result)) :
    ∃ k', k.Steady k' ∧ next k' = .ok result := by
  have hact : Paging.Within (σ := σ) k.paging.layout (fun _ => False) (fun _ => True)
      (Paging.changeFrames change) := Paging.changeFrames_within change
  exact of_lockedOrHalt hfree hact h

end Steady

/-- What a step inside a request does: it leaves the processes as they are, or ends the one that it
is about. -/
inductive Outcome (k : Kernel σ) (n place : Nat) (p : UserProcess) (call : Call) :
    After σ → Prop where
  | goes {result : After σ} (hsame : k.SameThreads result.2)
      (hlayout : result.2.paging.layout = k.paging.layout)
      (hcpu : result.2.cpu.Serves (Function.update k.cpuUse (threadOf n) result.1.phase.cpuUse))
      (hresult : result.1.Justified k.config.pageSize p call.request) :
      Outcome k n place p call result
  | ends {cause : Option PagingError} {paging : Paging σ} (hhold : call.stage.cpuUse = .holding)
      (hlayout : paging.layout = k.paging.layout.without p.pid)
      (hcause : call.request.isAccess = true →
        ∃ c, cause = some c ∧ call.request.FailsWith p.pid c) :
      Outcome k n place p call
        (.continues { call with stage := .mourning cause .checking },
          markExited { k with paging } place)

/-- What is known of a thread inside a request. -/
structure Inside (k : Kernel σ) (n place : Nat) (p : UserProcess) (call : Call) : Prop where
  orderly : k.Orderly
  session : k.sessions[n]? = some ⟨place, .busy call⟩
  process : k.processes[place]? = some p
  justified : call.stage.Justified k.config.pageSize p call.request

/-- A thread inside a request. -/
theorem Orderly.inside (h : k.Orderly) (hs : k.sessions[n]? = some ⟨place, .busy call⟩)
    (hp : k.processes[place]? = some p) : k.Inside n place p call := by
  obtain ⟨q, hq, hphase⟩ := h.justified n _ hs
  obtain rfl := Option.some.inj (hp.symm.trans hq)
  exact ⟨h, hs, hp, hphase⟩

namespace Inside

/-- A step of a thread that keeps the processor. -/
theorem keeps (h : k.Inside n place p call) (hhold : call.stage.cpuUse = .holding)
    (hsteady : k.Steady result.2) (hhold' : result.1.phase.cpuUse = .holding)
    (hresult : result.1.Justified k.config.pageSize p call.request) :
    k.Outcome n place p call result := by
  refine .goes hsteady.threads hsteady.layout_eq ?_ hresult
  rw [hsteady.cpu_eq]
  exact h.orderly.serves_same h.session (hhold'.trans hhold.symm)

variable {request : Request} {moved : List UInt8}

/-! ### Accesses -/

/-- A trap leads to a miss or to the end of the process, with the address that the processor
kept. -/
theorem trapped_cases {trap : Trap} (hrun : k.trapped call trap = .ok result) :
    trap = .miss ∧ result = (.continues { call with
        stage := .faulting (.missing k.paging.processor.badAddress) }, k) ∨
      trap = .readOnly ∧ result = (.continues { call with
        stage := .killing (.readOnlyViolation k.paging.processor.badAddress) }, k) := by
  cases trap with
  | miss => exact .inl ⟨rfl, (Except.ok.inj hrun).symm⟩
  | readOnly => exact .inr ⟨rfl, (fail_ok hrun).2⟩
  | badFrame => cases (fail_ok hrun).1

/-- The processor makes the access, or stops at its address. -/
theorem access_outcome (h : k.Inside n place p ⟨request, .accessing, moved⟩)
    (hrun : k.access ⟨request, .accessing, moved⟩ = .ok result) :
    k.Outcome n place p ⟨request, .accessing, moved⟩ result := by
  cases request with
  | read a =>
      obtain ⟨halive, -⟩ := h.justified
      obtain ⟨⟨r, processor⟩, hload, hrun⟩ := ok_of_bind hrun
      obtain ⟨hsize, htrap⟩ := Paging.loadByte_result hload
      have hsteady := Steady.withProcessor hsize
      cases r with
      | ok byte =>
          obtain rfl := Except.ok.inj hrun
          exact h.keeps rfl hsteady rfl fun _ => .granted halive fun _ h => by cases h
      | error trap =>
          obtain ⟨haddress, hread⟩ := htrap trap rfl
          rcases trapped_cases hrun with ⟨rfl, rfl⟩ | ⟨rfl, -⟩
          · exact h.keeps rfl hsteady rfl ⟨rfl, fun _ => ⟨halive, .inl ⟨rfl, haddress⟩⟩⟩
          · exact absurd rfl hread
  | write a v =>
      obtain ⟨halive, -⟩ := h.justified
      obtain ⟨⟨r, processor⟩, hstore, hrun⟩ := ok_of_bind hrun
      obtain ⟨hsize, htrap⟩ := Paging.storeByte_result hstore
      have hsteady := Steady.withProcessor hsize
      cases r with
      | ok _ =>
          obtain rfl := Except.ok.inj hrun
          exact h.keeps rfl hsteady rfl fun _ => .granted halive fun _ h => by cases h
      | error trap =>
          have haddress := htrap trap rfl
          rcases trapped_cases hrun with ⟨rfl, rfl⟩ | ⟨rfl, rfl⟩
          · exact h.keeps rfl hsteady rfl ⟨rfl, fun _ => ⟨halive, .inl ⟨rfl, haddress⟩⟩⟩
          · refine h.keeps rfl hsteady rfl ⟨rfl, fun _ => ?_⟩
            have haddress : processor.badAddress = a := haddress
            show Request.FailsWith p.pid (.write a v) (.readOnlyViolation processor.badAddress)
            rw [haddress]
            exact .readOnly
  | _ => cases h.justified.2

/-! ### Copies -/

/-- A copy that goes on is about a page inside the address space, so it never fails. -/
theorem pin_outcome (h : k.Inside n place p ⟨request, .pinning, moved⟩)
    (hrun : k.pinNext (threadOf n) p ⟨request, .pinning, moved⟩ = some (.ok result)) :
    k.Outcome n place p ⟨request, .pinning, moved⟩ result := by
  obtain ⟨halive, hcopy⟩ := h.justified
  have hanswer : (copyAnswer ⟨request, .pinning, moved⟩ : Response σ).Tells p request := by
    refine .granted halive fun cause => ?_
    rw [copyAnswer]
    split <;> exact fun h => by cases h
  rw [pinNext] at hrun
  split at hrun
  · obtain rfl := Except.ok.inj (Option.some.inj hrun)
    exact h.keeps rfl (.refl k) rfl fun _ => hanswer
  · rename_i hmore
    rw [not_or, Nat.not_le, Nat.not_le] at hmore
    obtain ⟨⟨r, k1⟩, hlocked, hrun⟩ := step_of_map hrun fun halt => ⟨halt, rfl⟩
    obtain ⟨paging, hact, rfl⟩ := locked_ok h.orderly.region_eq hlocked
    have hhas := (h.orderly.has_iff h.process).2 ⟨halive, hmore.2⟩
    have hpin : Paging.Within (σ := σ) k.paging.layout (fun _ => False) (fun _ => True)
        (Paging.pinForCopy ⟨p.pid, _⟩ request.isWriting) := Paging.pinForCopy_within hhas _
    obtain ⟨hlayout, -, herror⟩ := hpin _ _ _ rfl hact
    cases r with
    | error cause => exact (herror cause rfl).elim
    | ok pinned =>
        cases pinned with
        | readOnly =>
            obtain rfl := Except.ok.inj hrun
            exact h.keeps rfl (.withPaging hlayout) rfl fun _ => hanswer
        | pinned frame =>
            obtain rfl := Except.ok.inj hrun
            exact h.keeps rfl (.withPaging hlayout) rfl ⟨rfl, halive, hcopy⟩
        | absent =>
            obtain rfl := Except.ok.inj hrun
            refine h.keeps rfl (.withPaging hlayout) rfl ⟨rfl, fun _ => ⟨halive, .inr ⟨hcopy, ?_⟩⟩⟩
            rw [Address.page_join_page]
            exact hmore.2

/-- Bytes are moved. -/
theorem move_outcome {frame : Nat} (h : k.Inside n place p ⟨request, .moving frame, moved⟩)
    (hrun : k.moveBytes ⟨request, .moving frame, moved⟩ frame = .ok result) :
    k.Outcome n place p ⟨request, .moving frame, moved⟩ result := by
  obtain ⟨bytes, -, hrun⟩ := ok_of_bind hrun
  split at hrun
  · obtain ⟨processor, hset, hrun⟩ := ok_of_bind hrun
    obtain rfl := Except.ok.inj hrun
    exact h.keeps rfl (.withProcessor (Paging.setFrame_pageSize hset)) rfl ⟨rfl, h.justified⟩
  · obtain rfl := Except.ok.inj hrun
    exact h.keeps rfl (.refl k) rfl ⟨rfl, h.justified⟩

/-! ### The end of a process -/

/-- What follows the end: an access is answered with its cause, and another request goes on. -/
theorem afterEnd_outcome (h : k.Inside n place p call) (hhold : call.stage.cpuUse = .holding)
    (hsteady : k.Steady k') (hend : call.request.isAccess = true → p.exited = true)
    {cause : Option PagingError} (hcause : call.request.isAccess = true →
      ∃ c, cause = some c ∧ call.request.FailsWith p.pid c)
    (hrun : k'.afterEnd call cause = .ok result) : k.Outcome n place p call result := by
  cases cause with
  | some cause =>
      obtain rfl := Except.ok.inj hrun
      refine h.keeps hhold hsteady rfl fun haccess => ?_
      obtain ⟨c, heq, hfails⟩ := hcause haccess
      obtain rfl := Option.some.inj heq
      exact .refused (hend haccess) hfails
  | none =>
      obtain rfl := Except.ok.inj hrun
      refine h.keeps hhold hsteady rfl ⟨rfl, Bool.eq_false_iff.2 fun haccess => ?_⟩
      obtain ⟨c, heq, -⟩ := hcause haccess
      cases heq

/-- A process ends, unless it has ended before. -/
theorem end_outcome (h : k.Inside n place p call) (hhold : call.stage.cpuUse = .holding)
    {cause : Option PagingError} (hcause : call.request.isAccess = true →
      ∃ c, cause = some c ∧ call.request.FailsWith p.pid c)
    (hrun : k.endProcess (threadOf n) place p call cause = some (.ok result)) :
    k.Outcome n place p call result := by
  rw [endProcess] at hrun
  split at hrun
  · rename_i hend
    exact h.afterEnd_outcome hhold (.refl k) (fun _ => hend) hcause (Option.some.inj hrun)
  · obtain ⟨paging, hact, hrun⟩ := lockedOrHalt_ok h.orderly.region_eq hrun
    obtain rfl := Except.ok.inj hrun
    exact .ends hhold (Paging.reclaim_layout hact).2 hcause

/-! ### The first step -/

/-- A request begins with a look at the process, if it is an access. -/
theorem begin_outcome (h : k.Inside n place p ⟨request, .begun, moved⟩)
    (hrun : k.beginCall (threadOf n) place p ⟨request, .begun, moved⟩ = some (.ok result)) :
    k.Outcome n place p ⟨request, .begun, moved⟩ result := by
  cases request with
  | read | write | copyOut | copyIn =>
      have hrun := Option.some.inj hrun
      split at hrun
      · rename_i hend
        obtain rfl := Except.ok.inj hrun
        exact h.keeps rfl (.refl k) rfl fun haccess => .refused hend (.gone haccess)
      · rename_i halive
        obtain rfl := Except.ok.inj hrun
        exact h.keeps rfl (.refl k) rfl ⟨rfl, Bool.not_eq_true _ ▸ halive, rfl⟩
  | handle trap =>
      rcases trapped_cases (Option.some.inj hrun) with ⟨-, rfl⟩ | ⟨-, rfl⟩ <;>
        exact h.keeps rfl (.refl k) rfl ⟨rfl, fun haccess => by cases haccess⟩
  | save =>
      obtain ⟨k1, hsteady, hrun⟩ :=
        Steady.of_lockedOrHalt h.orderly.region_eq Paging.saveCache_within hrun
      obtain rfl := Except.ok.inj hrun
      exact h.keeps rfl hsteady rfl fun haccess => by cases haccess
  | restore =>
      obtain rfl := Except.ok.inj (Option.some.inj hrun)
      exact h.keeps rfl (.withProcessor rfl) rfl fun haccess => by cases haccess
  | yield =>
      obtain ⟨k1, hsteady, hrun⟩ :=
        Steady.of_lockedOrHalt h.orderly.region_eq Paging.saveCache_within hrun
      obtain rfl := Except.ok.inj hrun
      exact h.keeps rfl hsteady rfl ⟨rfl, rfl⟩
  | pin frame | unpin frame =>
      obtain ⟨k1, hsteady, hrun⟩ := Steady.of_changeFrames h.orderly.region_eq hrun
      obtain rfl := Except.ok.inj hrun
      exact h.keeps rfl hsteady rfl fun haccess => by cases haccess
  | inspect frame =>
      obtain ⟨bytes, -, hrun⟩ := ok_of_bind (Option.some.inj hrun)
      obtain rfl := Except.ok.inj hrun
      exact h.keeps rfl (.refl k) rfl fun haccess => by cases haccess
  | poke slot page frame flags =>
      obtain ⟨entry, -, hrun⟩ := ok_of_bind (Option.some.inj hrun)
      obtain ⟨processor, hset, hrun⟩ := ok_of_bind hrun
      obtain rfl := Except.ok.inj hrun
      exact h.keeps rfl (.withProcessor (Paging.setCacheEntry_pageSize hset)) rfl
        fun haccess => by cases haccess
  | look =>
      obtain rfl := Except.ok.inj (Option.some.inj hrun)
      exact h.keeps rfl (.refl k) rfl fun haccess => by cases haccess
  | exit => exact h.end_outcome rfl (fun haccess => by cases haccess) hrun
  | leave =>
      obtain rfl := Except.ok.inj (Option.some.inj hrun)
      exact h.keeps rfl (.refl k) rfl ⟨rfl, rfl⟩

/-! ### Misses -/

/-- What follows when a miss is handled for a process that is alive. -/
theorem afterMiss_outcome (h : k.Inside n place p call) (hhold : call.stage.cpuUse = .holding)
    (halive : call.request.isAccess = true → p.exited = false) (hsteady : k.Steady k')
    (hrun : k'.afterMiss call = .ok result) : k.Outcome n place p call result := by
  obtain ⟨request, stage, moved⟩ := call
  cases request with
  | read | write =>
      obtain rfl := Except.ok.inj hrun
      exact h.keeps hhold hsteady rfl ⟨rfl, halive rfl, rfl⟩
  | copyOut | copyIn =>
      obtain rfl := Except.ok.inj hrun
      exact h.keeps hhold hsteady rfl ⟨rfl, halive rfl, rfl⟩
  | _ =>
      obtain rfl := Except.ok.inj hrun
      exact h.keeps hhold hsteady rfl fun haccess => by cases haccess

/-- What follows when the tables were unlocked after a part of a miss. -/
theorem handled_outcome (h : k.Inside n place p call) (hhold : call.stage.cpuUse = .holding)
    {page : Nat} {r : Except PagingError Paging.MissResult} (hsteady : k.Steady k')
    (hloaded : ∀ wakeUps, r = .ok (.loaded wakeUps) → call.request.isAccess = true →
      p.exited = false)
    (hwaits : ∀ victim, r = .ok (.needsSlot victim) → page < p.numPages)
    (hfails : ∀ cause, r = .error cause → cause.reach = .endsProcess →
      call.request.isAccess = true → call.request.FailsWith p.pid cause)
    (hrun : Calling.afterFault call (r.map (Faulting.after page), k') = .ok result) :
    k.Outcome n place p call result := by
  cases r with
  | error cause =>
      obtain ⟨hreach, rfl⟩ := fail_ok hrun
      exact h.keeps hhold hsteady rfl ⟨rfl, fun haccess => hfails cause rfl hreach haccess⟩
  | ok outcome =>
      cases outcome with
      | loaded wakeUps =>
          cases wakeUps with
          | zero => exact h.afterMiss_outcome hhold (hloaded 0 rfl) hsteady hrun
          | succ wakeUps =>
              obtain rfl := Except.ok.inj hrun
              exact h.keeps hhold hsteady rfl ⟨rfl, hloaded _ rfl⟩
      | needsSlot victim =>
          obtain rfl := Except.ok.inj hrun
          exact h.keeps hhold hsteady rfl ⟨rfl, hwaits victim rfl⟩

variable [Extent σ]

/-- A miss of a page. -/
theorem missing_outcome {a : Nat} (h : k.Inside n place p ⟨request, .faulting (.missing a), moved⟩)
    {r : Except PagingError (Option Faulting)}
    (hfault : k.faultStep (threadOf n) p (.missing a) = some (.ok (r, k')))
    (hrun : Calling.afterFault ⟨request, .faulting (.missing a), moved⟩ (r, k') = .ok result) :
    k.Outcome n place p ⟨request, .faulting (.missing a), moved⟩ result := by
  obtain ⟨outcome, paging, hact, rfl, rfl⟩ := missing_ok h.orderly.region_eq hfault
  obtain ⟨hlayout, hok, herror⟩ := Paging.handleMiss_within p a _ _ _ rfl hact
  have hpageSize : k.paging.layout.pageSize = k.config.pageSize := h.orderly.pageSize_eq
  rw [hpageSize, h.orderly.has_iff h.process] at hok
  refine h.handled_outcome rfl (.withPaging hlayout) (fun _ heq _ => (hok _ heq).1)
    (fun _ heq => (hok _ heq).2) (fun cause heq hreach haccess => ?_) hrun
  obtain ⟨halive, hasked⟩ := h.justified haccess
  cases herror cause heq with
  | meets hmeets =>
      have hpid : k.paging.layout.numPages p.pid ≠ none := by
        rw [Ne, ← h.orderly.exited_iff h.process, halive]
        exact Bool.false_ne_true
      cases hreach.symm.trans (hmeets.reach_eq hpid)
  | outside hoff =>
      rw [hpageSize, h.orderly.has_iff h.process] at hoff
      rcases hasked with ⟨hbyte, hasked⟩ | ⟨-, hlt⟩
      · exact hasked ▸ .outside hbyte
      · exact absurd ⟨halive, hlt⟩ hoff

/-- A thread that has slept looks at its process before it goes on. -/
theorem resuming_outcome {page victim : Nat}
    (h : k.Inside n place p ⟨request, .faulting (.resuming page victim), moved⟩)
    {r : Except PagingError (Option Faulting)}
    (hfault : k.faultStep (threadOf n) p (.resuming page victim) = some (.ok (r, k')))
    (hrun : Calling.afterFault ⟨request, .faulting (.resuming page victim), moved⟩ (r, k') =
      .ok result) :
    k.Outcome n place p ⟨request, .faulting (.resuming page victim), moved⟩ result := by
  obtain ⟨outcome, paging, hact, rfl, rfl⟩ := resuming_ok h.orderly.region_eq hfault
  have hpage : page < p.numPages := h.justified
  have hspans : k.paging.layout.Spans ⟨p.pid, page⟩ :=
    fun m hm => h.orderly.eq_numPages h.process hm ▸ hpage
  obtain ⟨hlayout, hok, herror⟩ := Paging.resumeFault_within p hspans victim _ _ _ rfl hact
  refine h.handled_outcome rfl (.withPaging hlayout) (fun wakeUps heq _ => ?_) (fun _ _ => hpage)
    (fun cause heq hreach haccess => ?_) hrun
  · have hpid := hok _ heq wakeUps rfl
    rwa [Ne, ← h.orderly.exited_iff h.process, Bool.not_eq_true] at hpid
  · cases herror cause heq with
    | fatal hfatal => cases hreach.symm.trans hfatal
    | gone => exact .gone haccess

/-- A part of a miss. -/
theorem fault_outcome {phase : Faulting} (h : k.Inside n place p ⟨request, .faulting phase, moved⟩)
    {r : Except PagingError (Option Faulting)}
    (hfault : k.faultStep (threadOf n) p phase = some (.ok (r, k')))
    (hrun : Calling.afterFault ⟨request, .faulting phase, moved⟩ (r, k') = .ok result) :
    k.Outcome n place p ⟨request, .faulting phase, moved⟩ result := by
  cases phase with
  | missing a => exact h.missing_outcome hfault hrun
  | resuming page victim => exact h.resuming_outcome hfault hrun
  | waiting page victim phase =>
      obtain ⟨next, hwait, rfl⟩ := waiting_ok hfault
      obtain rfl := Except.ok.inj hrun
      have hpage : page < p.numPages := h.justified
      rcases waitStep_ok h.orderly.cpu (cpuUse_eq h.session) hwait with
        ⟨rfl, rfl, rfl⟩ | ⟨phase', rfl, hsame, hpaging, hcpu⟩
      · exact h.keeps rfl (.withProcessor rfl) rfl ⟨rfl, hpage⟩
      · exact .goes hsame (congrArg _ hpaging) hcpu ⟨rfl, hpage⟩
  | notifying left phase =>
      obtain ⟨next, hnotify, rfl⟩ := notifying_ok hfault
      have hsteady := Steady.of_notifyStep hnotify
      cases next with
      | some phase' =>
          obtain rfl := Except.ok.inj hrun
          exact h.keeps rfl hsteady rfl ⟨rfl, h.justified⟩
      | none =>
          cases left with
          | zero => exact h.afterMiss_outcome rfl h.justified hsteady hrun
          | succ left =>
              obtain rfl := Except.ok.inj hrun
              exact h.keeps rfl hsteady rfl ⟨rfl, h.justified⟩

/-! ### All steps -/

/-- A thread is about to end, and saves what the cache knows. -/
theorem part_outcome (h : k.Inside n place p ⟨request, .parting, moved⟩)
    (hrun : k.callStep (threadOf n) place p ⟨request, .parting, moved⟩ = some (.ok result)) :
    k.Outcome n place p ⟨request, .parting, moved⟩ result := by
  change (if p.exited then some (k.proceed _ (.leaving none)) else _) = _ at hrun
  split at hrun
  · obtain rfl := Except.ok.inj (Option.some.inj hrun)
    exact h.keeps rfl (.refl k) rfl ⟨rfl, h.justified⟩
  · obtain ⟨⟨r, k1⟩, hlocked, hrun⟩ := step_of_map hrun fun halt => ⟨halt, rfl⟩
    obtain ⟨paging, hact, rfl⟩ := locked_ok h.orderly.region_eq hlocked
    obtain ⟨hlayout, -⟩ := Paging.saveCache_within _ _ _ rfl hact
    cases r <;> obtain rfl := Except.ok.inj hrun <;>
      exact h.keeps rfl (.withPaging hlayout) rfl ⟨rfl, h.justified⟩

/-- Whatever a thread does in a step inside a request. -/
theorem step_outcome (h : k.Inside n place p call)
    (hrun : k.callStep (threadOf n) place p call = some (.ok result)) :
    k.Outcome n place p call result := by
  obtain ⟨request, stage, moved⟩ := call
  cases stage with
  | begun => exact h.begin_outcome hrun
  | accessing => exact h.access_outcome (Option.some.inj hrun)
  | faulting phase =>
      obtain ⟨⟨r, k1⟩, hfault, hrun⟩ := step_of_map hrun fun halt => ⟨halt, rfl⟩
      exact h.fault_outcome hfault hrun
  | pinning => exact h.pin_outcome hrun
  | moving frame => exact h.move_outcome (Option.some.inj hrun)
  | unpinning frame =>
      obtain ⟨k1, hsteady, hrun⟩ := Steady.of_changeFrames h.orderly.region_eq hrun
      obtain rfl := Except.ok.inj hrun
      exact h.keeps rfl hsteady rfl ⟨rfl, h.justified⟩
  | killing cause =>
      exact h.end_outcome rfl (fun haccess => ⟨cause, rfl, h.justified haccess⟩) hrun
  | mourning cause phase =>
      obtain ⟨⟨next, k1⟩, hnotify, hrun⟩ := step_of_map hrun fun halt => ⟨halt, rfl⟩
      have hsteady := Steady.of_notifyStep hnotify
      cases next with
      | none =>
          exact h.afterEnd_outcome rfl hsteady (fun haccess => (h.justified haccess).1)
            (fun haccess => (h.justified haccess).2) hrun
      | some phase' =>
          obtain rfl := Except.ok.inj hrun
          exact h.keeps rfl hsteady rfl ⟨rfl, h.justified⟩
  | yielding =>
      obtain ⟨k1, hleave, hrun⟩ := ok_of_bind (Option.some.inj hrun)
      obtain rfl := Except.ok.inj hrun
      obtain ⟨cpu, hrelease, rfl⟩ := leaveCpu_ok hleave
      exact .goes (.withCpu k cpu) rfl
        (h.orderly.cpu.release (cpuUse_eq h.session) hrelease) ⟨rfl, h.justified⟩
  | returning phase =>
      obtain ⟨⟨stage, k1⟩, htake, hrun⟩ := step_of_map hrun fun halt => ⟨halt, rfl⟩
      obtain rfl := Except.ok.inj hrun
      obtain ⟨next, cpu, hacquire, rfl, rfl⟩ := takeCpu_ok htake
      have hcpu := h.orderly.cpu.acquire (cpuUse_eq h.session) hacquire
      cases next with
      | none => exact .goes (.withCpu k cpu) rfl hcpu ⟨rfl, h.justified⟩
      | some phase' => exact .goes (.withCpu k cpu) rfl hcpu ⟨rfl, h.justified⟩
  | flushing =>
      obtain rfl := Except.ok.inj (Option.some.inj hrun)
      refine h.keeps rfl (.withProcessor rfl) rfl fun haccess => ?_
      cases haccess.symm.trans h.justified
  | parting => exact h.part_outcome hrun
  | leaving failure =>
      obtain ⟨k1, hleave, hrun⟩ := ok_of_bind (Option.some.inj hrun)
      obtain ⟨cpu, hrelease, rfl⟩ := leaveCpu_ok hleave
      cases failure with
      | some cause => cases hrun
      | none =>
          obtain rfl := Except.ok.inj hrun
          exact .goes (.withCpu k cpu) rfl
            (h.orderly.cpu.release (cpuUse_eq h.session) hrelease) h.justified

end Inside

end Kernel

end DemandPaging
