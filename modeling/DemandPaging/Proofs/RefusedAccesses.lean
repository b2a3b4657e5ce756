import DemandPaging.Proofs.Kernel.Refusals
import DemandPaging.Proofs.Kernel.Standstill

/-!
# An error means that the process is dead

Whoever loads, stores or copies gets an error if and only if the process has ended by then, be it
because of this access, by another thread while this one slept, or before the access began. And a
process has page tables as long as it lives. So it is whatever happens on the machine, in any order
and on any extent: frames may be pinned and unpinned, traps handled, and entries put into the
mapping cache, for none of that touches what accesses rely on (`Kernel.Orderly`).
-/

namespace DemandPaging.Kernel

variable {σ : Type} {k k' : Kernel σ} {n place : Nat} {p : UserProcess} {call : Call}

/-! ## What every event preserves -/

namespace Housed

theorem congr (h : k.Housed) (hconfig : k'.config = k.config) (hpids : k'.pids.next = k.pids.next)
    (hprocesses : k'.processes = k.processes) (hlayout : k'.paging.layout = k.paging.layout) :
    k'.Housed := by
  refine ⟨?_, ?_, ?_, ?_, ?_⟩
  · exact ((congrArg Layout.pageSize hlayout).trans h.pageSize_eq).trans
      (congrArg Config.pageSize hconfig).symm
  · rw [hpids, hprocesses]
    exact h.next_eq
  · rw [hprocesses]
    exact h.length_lt
  · rw [hprocesses]
    exact h.pid_toNat
  · rw [hprocesses, hlayout]
    exact h.numPages_eq

/-- A process ends, and its page tables are gone. -/
theorem ended (h : k.Housed) (hp : k.processes[place]? = some p) {paging : Paging σ}
    (hlayout : paging.layout = k.paging.layout.without p.pid) :
    (markExited { k with paging } place).Housed := by
  have hprocess : ∀ (i : Nat) (q : UserProcess),
      (markExited { k with paging } place).processes[i]? = some q →
      i = place ∧ q = { p with exited := true } ∨ i ≠ place ∧ k.processes[i]? = some q := by
    intro i q hq
    rw [getElem?_markExited] at hq
    split at hq
    · rename_i hi
      refine .inl ⟨hi, ?_⟩
      rw [show ({ k with paging } : Kernel σ).processes = k.processes from rfl, hp] at hq
      exact (Option.some.inj hq).symm
    · rename_i hi
      exact .inr ⟨hi, hq⟩
  have hlength : (markExited { k with paging } place).processes.length = k.processes.length :=
    List.length_modify ..
  refine ⟨(congrArg Layout.pageSize hlayout).trans h.pageSize_eq, ?_, ?_, ?_, ?_⟩
  · rw [hlength]
    exact h.next_eq
  · rw [hlength]
    exact h.length_lt
  · intro i q hq
    rcases hprocess i q hq with ⟨rfl, rfl⟩ | ⟨-, hq⟩
    · exact h.pid_toNat i p hp
    · exact h.pid_toNat i q hq
  · intro i q hq
    have hnumPages : ∀ pid, paging.layout.numPages pid =
        Function.update k.paging.layout.numPages p.pid none pid :=
      congrFun (congrArg Layout.numPages hlayout)
    show paging.layout.numPages q.pid = _
    rw [hnumPages]
    rcases hprocess i q hq with ⟨rfl, rfl⟩ | ⟨hi, hq⟩
    · exact Function.update_self ..
    · -- processes have different numbers
      have hpid : q.pid ≠ p.pid := by
        intro heq
        have := h.pid_toNat i q hq
        rw [heq, h.pid_toNat place p hp] at this
        exact hi (Nat.succ.inj this).symm
      rw [Function.update_of_ne hpid]
      exact h.numPages_eq i q hq

end Housed

namespace Orderly

/-- A thread goes on in another phase. -/
theorem advance (h : k.Orderly) {s : Session} (hs : k.sessions[n]? = some s)
    (hp : k.processes[s.process]? = some p) (hsame : k.SameThreads k')
    (hlayout : k'.paging.layout = k.paging.layout) {phase : Phase}
    (hcpu : k'.cpu.Serves (Function.update k.cpuUse (threadOf n) phase.cpuUse))
    (hphase : phase.Justified k.config.pageSize p) : (k'.setPhase n phase).Orderly := by
  have hs' : k'.sessions[n]? = some s := hsame.sessions_eq ▸ hs
  refine ⟨h.toHoused.congr hsame.config_eq hsame.next_eq hsame.processes_eq hlayout,
    hsame.region_eq.trans h.region_eq, ?_, fun i t ht => ?_⟩
  · rw [cpuUse_setPhase hs', cpuUse_eq_byThread, byThread_congr _ _ hsame.sessions_eq,
      ← cpuUse_eq_byThread]
    exact hcpu
  · show ∃ q, k'.processes[t.process]? = some q ∧ t.phase.Justified k'.config.pageSize q
    rw [hsame.processes_eq, hsame.config_eq]
    rw [getElem?_setPhase] at ht
    split at ht
    · rw [hs'] at ht
      obtain rfl := Option.some.inj ht
      exact ⟨p, hp, hphase⟩
    · rw [hsame.sessions_eq] at ht
      exact h.justified i t ht

/-- A thread ends its process, and is about to wake all who wait. Nobody else has the processor. -/
theorem ended (h : k.Orderly) (hs : k.sessions[n]? = some ⟨place, .busy call⟩)
    (hp : k.processes[place]? = some p) (hhold : call.stage.cpuUse = .holding)
    {cause : Option PagingError} (hcause : call.request.isAccess = true →
      ∃ c, cause = some c ∧ call.request.FailsWith p.pid c)
    {paging : Paging σ} (hlayout : paging.layout = k.paging.layout.without p.pid) :
    ((markExited { k with paging } place).setPhase n
      (.busy { call with stage := .mourning cause .checking })).Orderly := by
  have hs' : (markExited { k with paging } place).sessions[n]? = some ⟨place, .busy call⟩ := hs
  have hp' : (markExited { k with paging } place).processes[place]? =
      some { p with exited := true } :=
    (getElem?_markExited { k with paging } place place).trans
      ((if_pos rfl).trans (congrArg (Option.map _) hp))
  refine ⟨(h.toHoused.ended hp hlayout).congr rfl rfl rfl rfl, h.region_eq, ?_, fun i t ht => ?_⟩
  · rw [cpuUse_setPhase hs', cpuUse_eq_byThread,
      show (markExited { k with paging } place).byThread Phase.cpuUse .away =
        k.byThread Phase.cpuUse .away from byThread_congr _ _ rfl, ← cpuUse_eq_byThread]
    exact h.serves_same hs hhold.symm
  · rw [getElem?_setPhase] at ht
    split at ht
    · rw [hs'] at ht
      obtain rfl := Option.some.inj ht
      exact ⟨_, hp', fun haccess => ⟨rfl, hcause haccess⟩⟩
    · rename_i hi
      have ht : k.sessions[i]? = some t := ht
      obtain ⟨q, hq, hphase⟩ := h.justified i t ht
      by_cases hplace : t.process = place
      · rw [hplace, hp] at hq
        obtain rfl := Option.some.inj hq
        have haway : t.phase.cpuUse ≠ .holding := fun heq => hi (Nat.succ.inj
          (h.cpu.holder_unique ((cpuUse_eq ht).trans heq) ((cpuUse_eq hs).trans hhold)))
        exact ⟨_, hplace ▸ hp', hphase.ended haway⟩
      · exact ⟨q, (getElem?_markExited { k with paging } place t.process).trans
          ((if_neg hplace).trans hq), hphase⟩

/-- Something happens that is about no thread. -/
theorem steady (h : k.Orderly) (hsteady : k.Steady k') : k'.Orderly := by
  obtain ⟨hsame, hlayout, hcpu⟩ := hsteady
  refine ⟨h.toHoused.congr hsame.config_eq hsame.next_eq hsame.processes_eq hlayout,
    hsame.region_eq.trans h.region_eq, ?_, fun i t ht => ?_⟩
  · rw [hcpu, cpuUse_eq_byThread, byThread_congr _ _ hsame.sessions_eq, ← cpuUse_eq_byThread]
    exact h.cpu
  · rw [hsame.processes_eq, hsame.config_eq]
    exact h.justified i t (hsame.sessions_eq ▸ ht)

/-- A process is added. -/
theorem added (h : k.Orderly) (hnext : k.pids.next ≠ 0) {u : UserProcess}
    (hpid : u.pid = k.pids.next) (hlive : u.exited = false) : (k.added u).Orderly := by
  have hnum := toNat_next h.next_eq h.length_lt hnext
  have hold : ∀ {i : Nat} {q : UserProcess}, k.processes[i]? = some q →
      (k.added u).processes[i]? = some q :=
    fun hq => (List.getElem?_append_left (List.getElem?_eq_some_iff.1 hq).1).trans hq
  have hprocess : ∀ (i : Nat) (q : UserProcess), (k.added u).processes[i]? = some q →
      k.processes[i]? = some q ∧ q.pid ≠ u.pid ∨ i = k.processes.length ∧ q = u := by
    intro i q hq
    have hq : (k.processes ++ [u])[i]? = some q := hq
    rcases Nat.lt_or_ge i k.processes.length with hi | hi
    · rw [List.getElem?_append_left hi] at hq
      refine .inl ⟨hq, fun heq => ?_⟩
      have := h.pid_toNat i q hq
      rw [heq, hpid] at this
      omega
    · rw [List.getElem?_append_right hi] at hq
      have hlast := (List.getElem?_eq_some_iff.1 hq).1
      rw [List.length_singleton] at hlast
      exact .inr ⟨by omega, List.mem_singleton.1 (List.mem_of_getElem? hq)⟩
  have hnumPages : ∀ pid, (k.added u).paging.layout.numPages pid =
      if pid = u.pid then some u.numPages else k.paging.layout.numPages pid := by
    intro pid
    refine (PageTables.sizeOf?_insert ..).trans ?_
    rw [PageTable.numPages_create]
    rfl
  refine ⟨⟨h.pageSize_eq, next_added h.next_eq u, ?_, ?_, ?_⟩, h.region_eq, h.cpu, ?_⟩
  · show (k.processes ++ [u]).length < 2 ^ 16
    have := k.pids.next.toNat_lt
    rw [List.length_append, List.length_singleton]
    omega
  · intro i q hq
    rcases hprocess i q hq with ⟨hq, -⟩ | ⟨rfl, rfl⟩
    · exact h.pid_toNat i q hq
    · rw [hpid, hnum]
  · intro i q hq
    rw [hnumPages]
    rcases hprocess i q hq with ⟨hq, hne⟩ | ⟨-, rfl⟩
    · rw [if_neg hne]
      exact h.numPages_eq i q hq
    · rw [if_pos rfl, hlive]
      rfl
  · intro i s hs
    obtain ⟨q, hq, hphase⟩ := h.justified i s hs
    exact ⟨q, hold hq, hphase⟩

/-- A thread is added. -/
theorem start (h : k.Orderly) (hp : k.processes[place]? = some p) : (k.start place).Orderly := by
  refine ⟨h.toHoused.congr rfl rfl rfl rfl, h.region_eq, ?_, fun i s hs => ?_⟩
  · rw [cpuUse_eq_byThread, Sound.byThread_start _ LockUse.away rfl, ← cpuUse_eq_byThread]
    exact h.cpu
  · rcases Sound.getElem?_start hs with hs | ⟨-, rfl⟩
    · exact h.justified i s hs
    · exact ⟨p, hp, trivial⟩

variable [Extent σ] {e : Event} {r : Option (Response σ)}

/-- A thread takes a step inside a request. -/
theorem call_step (h : k.Orderly) (hs : k.sessions[n]? = some ⟨place, .busy call⟩)
    (hp : k.processes[place]? = some p) {result : After σ}
    (hrun : k.callStep (threadOf n) place p call = some (.ok result)) :
    (result.2.setPhase n result.1.phase).Orderly := by
  cases (h.inside hs hp).step_outcome hrun with
  | goes hsame hlayout hcpu hresult =>
      refine h.advance hs hp hsame hlayout hcpu ?_
      obtain ⟨after, k1⟩ := result
      cases after with
      | continues call' =>
          obtain ⟨hrequest, hstage⟩ := hresult
          show call'.stage.Justified k.config.pageSize p call'.request
          rw [hrequest]
          exact hstage
      | answered | ended => trivial
  | ends hhold hlayout hcause => exact h.ended hs hp hhold hcause hlayout

/-- A thread takes a step. -/
theorem step (h : k.Orderly) (hrun : k.step n = some (.ok (r, k'))) : k'.Orderly := by
  cases advances_of_step hrun with
  | starts hs hp htake =>
      obtain ⟨next', cpu, hacquire, rfl, rfl⟩ := takeCpu_ok htake
      have hcpu := h.cpu.acquire (cpuUse_eq hs) hacquire
      cases next' <;> exact h.advance hs hp (.withCpu k cpu) rfl hcpu trivial
  | enters hs hp =>
      exact h.advance hs hp (.flush k) (Paging.layout_withProcessor rfl rfl)
        (h.serves_same hs rfl) trivial
  | calls hs hp hcall => exact h.call_step hs hp hcall

omit [Extent σ] in
/-- The console pins a frame, or takes a pin off. -/
theorem changeFromConsole (h : k.Orderly) {change : FrameTable → Except Halt FrameTable}
    (hrun : k.changeFromConsole change = some (.ok (r, k'))) : k'.Orderly := by
  obtain ⟨⟨result, k1⟩, hlocked, hrun⟩ := step_of_map hrun fun halt => ⟨halt, rfl⟩
  obtain ⟨paging, hact, rfl⟩ := locked_ok h.region_eq hlocked
  have hchange : Paging.Within (σ := σ) k.paging.layout (fun _ => False) (fun _ => True)
      (Paging.changeFrames change) := Paging.changeFrames_within change
  obtain ⟨hlayout, -, -⟩ := hchange _ _ _ rfl hact
  cases result <;>
    (obtain ⟨-, rfl⟩ := Prod.mk.inj (Except.ok.inj hrun); exact h.steady (.withPaging hlayout))

/-- Whatever happens next. -/
theorem perform (h : k.Orderly) (hrun : k.perform e = some (.ok (r, k'))) : k'.Orderly := by
  cases e with
  | spawn image =>
      rw [Kernel.perform] at hrun
      split at hrun
      · rename_i place k1 hspawn
        obtain ⟨-, rfl⟩ := Prod.mk.inj (Except.ok.inj (Option.some.inj hrun))
        obtain ⟨-, hnext, -, rfl⟩ := spawn_ok hspawn
        exact h.added hnext rfl rfl
      · rename_i cause k1 hspawn
        obtain ⟨-, rfl⟩ := Prod.mk.inj (Except.ok.inj (Option.some.inj hrun))
        obtain ⟨-, rfl⟩ := spawn_refused hspawn
        exact h
      · cases hrun
  | start place =>
      rw [Kernel.perform] at hrun
      split at hrun
      · rename_i hsome
        obtain ⟨-, rfl⟩ := Prod.mk.inj (Except.ok.inj (Option.some.inj hrun))
        obtain ⟨p, hp⟩ := Option.isSome_iff_exists.1 hsome
        exact h.start hp
      · cases hrun
  | ask n request =>
      rw [Kernel.perform] at hrun
      split at hrun
      · rename_i hready
        obtain ⟨-, rfl⟩ := Prod.mk.inj (Except.ok.inj (Option.some.inj hrun))
        obtain ⟨s, hs, hready⟩ := Option.map_eq_some_iff.1 hready
        obtain ⟨p, hp, -⟩ := h.justified n s hs
        exact h.advance hs hp (.refl k) rfl (h.serves_same hs (by rw [hready]; rfl)) trivial
      · cases hrun
  | advance n => exact h.step hrun
  | pin frame | unpin frame => exact h.changeFromConsole hrun

/-- Whatever happens, in any order. -/
theorem performAll (h : k.Orderly) {events : List Event}
    {trace : List (Event × Option (Response σ))} (hrun : k.performAll events = some (trace, k')) :
    k'.Orderly := by
  induction events generalizing k trace with
  | nil =>
      obtain ⟨-, rfl⟩ := Prod.mk.inj (Option.some.inj hrun)
      exact h
  | cons e rest ih =>
      obtain ⟨r, k₁, trace₁, hperform, hrest, -⟩ := exists_of_performAll_cons hrun
      exact ih (h.perform hperform) hrest

/-- A kernel that has just been booted has no processes and no threads. -/
theorem of_boot {c : Config} {extent : σ} (hboot : boot c extent = .ok (.ok k)) : k.Orderly := by
  obtain ⟨-, paging, hfresh, rfl⟩ := exists_of_boot hboot
  refine ⟨⟨freshPaging_pageSize hfresh, rfl, Nat.two_pow_pos 16, ?_, ?_⟩, rfl, ?_, ?_⟩
  · intro i p hp
    cases hp
  · intro i p hp
    cases hp
  · rw [cpuUse_of_sessions_nil rfl]
    exact .fresh
  · intro n s hs
    cases hs

end Orderly

/-! ## What threads are told -/

section Answers

variable [Extent σ] {c : Config} {extent : σ} {k₀ : Kernel σ} {events : List Event}
  {trace : List (Event × Option (Response σ))} {response : Response σ}

/-- The answer to an access says whether the process has ended. -/
theorem Orderly.answer_tells (h : k.Orderly) {s : Session} (hs : k.session n = some s)
    (hphase : s.phase = .busy call) (haccess : call.request.isAccess = true)
    (hrun : k.step n = some (.ok (some response, k'))) :
    ∃ p, k'.process s.process = some p ∧ response.Tells p call.request := by
  obtain ⟨⟨place, phase⟩, hs', hrun⟩ := Option.bind_eq_some_iff.1 hrun
  obtain ⟨p, hp, hrun⟩ := Option.bind_eq_some_iff.1 hrun
  obtain rfl := Option.some.inj (hs.symm.trans hs')
  obtain rfl : phase = .busy call := hphase
  obtain ⟨⟨after, k1⟩, hcall, hrun⟩ := step_of_map hrun fun halt => ⟨halt, rfl⟩
  cases (h.inside hs hp).step_outcome hcall with
  | goes hsame hlayout hcpu hresult =>
      cases after with
      | continues call' => cases hrun
      | answered response' =>
          obtain ⟨hresponse, rfl⟩ := Prod.mk.inj (Except.ok.inj hrun)
          obtain rfl := Option.some.inj hresponse
          exact ⟨p, (congrArg (·[place]?) hsame.processes_eq).trans hp, hresult haccess⟩
      | ended response' =>
          -- a thread does not end in the middle of an access
          cases haccess.symm.trans hresult
  | ends => cases hrun

/-- Whatever happens on the machine, the answer to an access is an error if and only if the process
has ended by then, and the error is one that ends processes: a copy finds no process, and a load or
a store may also be outside the address space or write to a read-only section. Processes that have
ended are those without page tables. -/
theorem refused_iff_exited (hboot : boot c extent = .ok (.ok k₀))
    (hrun : k₀.performAll events = some (trace, k)) :
    (∀ n s call response k', k.session n = some s → s.phase = .busy call →
      call.request.isAccess = true → k.perform (.advance n) = some (.ok (some response, k')) →
      ∃ p, k'.process s.process = some p ∧
        ((∃ cause, response = .failed cause) ↔ p.exited = true) ∧
        ∀ cause, response = .failed cause →
          call.request.FailsWith p.pid cause ∧ cause.reach = .endsProcess ∧
            (call.request.isCopy = true → cause = .noSuchProcess p.pid)) ∧
      ∀ i p, k.process i = some p → (p.exited = true ↔ k.paging.tables[p.pid]? = none) := by
  have horderly := (Orderly.of_boot hboot).performAll hrun
  constructor
  · intro n s call response k' hs hphase haccess hstep
    obtain ⟨p, hp, hfailed, hcause⟩ := horderly.answer_tells hs hphase haccess hstep
    refine ⟨p, hp, hfailed, fun cause heq => ?_⟩
    have hfails := hcause cause heq
    exact ⟨hfails, hfails.reach_eq, hfails.eq_of_isCopy⟩
  · intro i p hp
    exact (horderly.exited_iff hp).trans Option.map_eq_none_iff

end Answers

/-- A thread sleeps for a swap slot to load a byte, and another one ends the process of both while
the console keeps the frame pinned. The first thread is woken, and is about to look at its
process. -/
def bereftEvents : List Event :=
  sleeperEvents ++ [.start 0, .advance 1, .advance 1, .pin 0] ++ turn 1 .exit 7 ++ [.unpin 0] ++
    List.replicate 7 (.advance 0)

/-- Whether the next step of the first thread answers its load with the lack of a process. -/
def failsNext (k : Kernel MemoryExtent) : Bool :=
  match k.perform (.advance 0), k.session 0 with
  | some (.ok (some (.failed cause), _)), some ⟨_, .busy call⟩ =>
      decide (cause = .noSuchProcess 1 ∧ call.request = .read 0)
  | _, _ => false

/-- A load that began while the process was alive fails, since the process has ended meanwhile. -/
theorem refused_iff_exited_bereft : ∃ (k₀ k k' : Kernel MemoryExtent)
    (trace : List (Event × Option (Response MemoryExtent))) (s : Session) (call : Call)
    (p : UserProcess),
    boot smallConfig (⟨.zeros 1⟩ : MemoryExtent) = .ok (.ok k₀) ∧
      k₀.performAll bereftEvents = some (trace, k) ∧
      k.session 0 = some s ∧ s.phase = .busy call ∧ call.request = .read 0 ∧
      k.perform (.advance 0) = some (.ok (some (.failed (.noSuchProcess 1)), k')) ∧
      k'.process s.process = some p ∧ p.exited = true := by
  have hlast : holdsAfter smallConfig bereftEvents failsNext = true := by decide +kernel
  obtain ⟨k₀, k, trace, hboot, hall, hfails⟩ := exists_of_holdsOn hlast
  rw [failsNext] at hfails
  split at hfails
  · rename_i cause k' place call hperform hs
    obtain ⟨rfl, hrequest⟩ := of_decide_eq_true hfails
    have haccess : call.request.isAccess = true := congrArg Request.isAccess hrequest
    obtain ⟨p, hp, hfailed, -⟩ :=
      (refused_iff_exited hboot hall).1 0 _ call _ k' hs rfl haccess hperform
    exact ⟨k₀, k, k', trace, _, call, p, hboot, hall, hs, rfl, hrequest, hperform, hp,
      hfailed.1 ⟨_, rfl⟩⟩
  · cases hfails

end DemandPaging.Kernel
