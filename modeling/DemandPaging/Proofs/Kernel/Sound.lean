import DemandPaging.Proofs.FlatPages
import DemandPaging.Proofs.Kernel.Phase
import DemandPaging.Proofs.Paging.Lifetime
import Mathlib.Algebra.BigOperators.Group.List.Basic

/-!
# What holds of the kernel

`Kernel.Sound` is the invariant of the kernel between the steps of its threads, and its relation to
the flat machine at once. It says who has the processor, that every thread is where its request can
be, that no two threads want to push the same page out, and that the memory manager is sound for the
live processes, the pins of all threads, and the memory of the flat machine.

Whatever a thread does goes through one of two lemmas: `Sound.advance_holder` for a thread that has
the processor and may have changed the tables, and `Sound.advance_aside` for a step that leaves them
alone.
-/

namespace DemandPaging

/-! ## One element of a list and the others -/

theorem perm_cons_eraseIdx {α : Type} {l : List α} {n : Nat} {x : α} (h : l[n]? = some x) :
    l.Perm (x :: l.eraseIdx n) := by
  obtain ⟨hlt, rfl⟩ := List.getElem?_eq_some_iff.1 h
  exact (List.getElem_cons_eraseIdx_perm hlt).symm

/-- One summand and the others. -/
theorem sum_map_eq {α M : Type} [AddCommMonoid M] (g : α → M) {l : List α} {n : Nat} {x : α}
    (h : l[n]? = some x) : (l.map g).sum = g x + ((l.eraseIdx n).map g).sum := by
  rw [((perm_cons_eraseIdx h).map g).sum_eq, List.map_cons, List.sum_cons]

/-- Whatever is in a sum of multisets is in one of them. -/
theorem mem_sum_map_iff {α β : Type} {g : α → Multiset β} {l : List α} {b : β} :
    b ∈ (l.map g).sum ↔ ∃ x ∈ l, b ∈ g x := by
  induction l with
  | nil => simp
  | cons x rest ih => simp [ih]

/-- The others stay when one element changes. -/
theorem eraseIdx_modify {α : Type} (f : α → α) (l : List α) (n : Nat) :
    (l.modify n f).eraseIdx n = l.eraseIdx n := by
  induction l generalizing n with
  | nil => cases n <;> rfl
  | cons y rest ih =>
      cases n with
      | zero => rfl
      | succ n =>
          rw [List.modify_succ_cons, List.eraseIdx_cons_succ, List.eraseIdx_cons_succ, ih]

namespace Kernel

variable {σ : Type}

/-- The processes that have not ended, by number. -/
def live (k : Kernel σ) : Paging.Population := fun pid =>
  k.processes.find? fun p => p.pid = pid && !p.exited

/-- What every thread has, in the phase that it is in. Whoever is no session has `away`. -/
def byThread {α : Type} (k : Kernel σ) (f : Phase → α) (away : α) : ThreadId → α
  | 0 => away
  | n + 1 => (k.sessions[n]?.map fun s => f s.phase).getD away

/-- What every thread is doing with the processor. -/
def cpuUse (k : Kernel σ) : ThreadId → LockUse
  | 0 => .away
  | n + 1 => (k.sessions[n]?.map fun s => s.phase.cpuUse).getD .away

/-- The pins that all threads have on frames. -/
def pins (k : Kernel σ) : Multiset Nat := (k.sessions.map fun s => s.phase.pins).sum

/-- The frames whose pages threads want to push out. -/
def victims (k : Kernel σ) : Multiset Nat := (k.sessions.map fun s => s.phase.victims).sum

/-- The victims of all sessions but one. -/
def othersVictims (k : Kernel σ) (n : Nat) : Multiset Nat :=
  ((k.sessions.eraseIdx n).map fun s => s.phase.victims).sum

/-- A thread keeps a frame pinned as its victim: it waits for a swap slot, or has waited for one and
is about to go on. -/
def WaitsWith (k : Kernel σ) (n f : Nat) : Prop :=
  ∃ s, k.session n = some s ∧ s.phase.victim? = some f

/-- Which process may have entries in the mapping cache: that of a thread that uses the cache and
finds what it relies on, or none if there is no such thread. -/
def Runs (k : Kernel σ) : Option Pid → Prop
  | none => ∀ (n : Nat) (s : Session), k.sessions[n]? = some s → s.phase.usesCache = false
  | some pid => ∃ (n : Nat) (s : Session) (p : UserProcess), k.sessions[n]? = some s ∧
      k.processes[s.process]? = some p ∧ p.pid = pid ∧ s.phase.usesCache = true ∧
      s.phase.Holds k.paging p

/-- The flat machine has the processes and the threads of the kernel. -/
structure Shows (k : Kernel σ) (m : FlatMachine) : Prop where
  config_eq : m.config = k.config
  processes_eq : m.processes.map FlatProcess.process = k.processes
  threads_eq : m.threads = k.sessions.map Session.flat
  numbered : m.Numbered

/-- The victims of threads are different frames, and none of them is pinned by a caller. -/
structure Exclusive (victims callers : Multiset Nat) : Prop where
  nodup : victims.Nodup
  notMem : ∀ f ∈ victims, f ∉ callers

/-- One more victim, which nobody has pinned. -/
theorem Exclusive.cons {victims callers : Multiset Nat} {f : Nat} (h : Exclusive victims callers)
    (hf : f ∉ victims + callers) : Exclusive (f ::ₘ victims) callers := by
  rw [Multiset.mem_add, not_or] at hf
  refine ⟨Multiset.nodup_cons.2 ⟨hf.1, h.nodup⟩, fun g hg => ?_⟩
  rcases Multiset.mem_cons.1 hg with rfl | hg
  · exact hf.2
  · exact h.notMem g hg

theorem Exclusive.mono {victims victims' callers : Multiset Nat} (h : Exclusive victims callers)
    (hle : victims' ≤ victims) : Exclusive victims' callers :=
  ⟨Multiset.nodup_of_le hle h.nodup, fun f hf => h.notMem f (Multiset.mem_of_le hle hf)⟩

/-- What holds of the kernel, and what the memory of the flat machine has to do with it. Besides the
threads there may be callers that have pinned frames. -/
structure Sound [Extent σ] [Extent.Reliable σ] (k : Kernel σ) (m : FlatMachine)
    (callers : Multiset Nat := 0) : Prop extends Shows k m where
  pageSize_eq : k.paging.processor.pageSize = k.config.pageSize
  next_eq : k.pids.next = UInt16.ofNat (k.processes.length + 1)
  length_lt : k.processes.length < 2 ^ 16
  image_pageSize : ∀ (i : Nat) (p : UserProcess), k.processes[i]? = some p →
    p.image.pageSize = k.config.pageSize
  -- nobody is inside the critical region between two steps
  region_eq : k.region = {}
  -- what the threads are doing with the processor is what its lock says
  cpu : k.cpu.Serves k.cpuUse
  fits : ∀ (n : Nat) (s : Session), k.sessions[n]? = some s →
    ∃ p : UserProcess, k.processes[s.process]? = some p ∧ s.phase.Fits k.config.pageSize p
  -- no two threads wait with the same victim
  exclusive : Exclusive k.victims callers
  paging : ∃ running, k.Runs running ∧ k.paging.Sound k.live running (k.pins + callers) m.page

/-- A thread of the process with this place has the processor. -/
def OnProcessor (k : Kernel σ) (i : Nat) : Prop :=
  ∃ (n : Nat) (s : Session), k.cpu.holder = some (threadOf n) ∧ k.sessions[n]? = some s ∧
    s.process = i

/-- What a step may change besides the tables and the locks: a process may have ended. -/
structure Follows (k k' : Kernel σ) : Prop where
  config_eq : k'.config = k.config
  next_eq : k'.pids.next = k.pids.next
  sessions_eq : k'.sessions = k.sessions
  region_eq : k'.region = k.region
  length_eq : k'.processes.length = k.processes.length
  ended_or_eq : ∀ (i : Nat) (p : UserProcess), k.processes[i]? = some p →
    k'.processes[i]? = some p ∨ k'.processes[i]? = some { p with exited := true }

variable {k k' : Kernel σ} {n : Nat} {s : Session} {p : UserProcess}

/-- What a step changes that no process ends by: the tables and the locks. -/
structure SameThreads (k k' : Kernel σ) : Prop where
  config_eq : k'.config = k.config
  next_eq : k'.pids.next = k.pids.next
  processes_eq : k'.processes = k.processes
  sessions_eq : k'.sessions = k.sessions
  region_eq : k'.region = k.region

namespace SameThreads

theorem refl (k : Kernel σ) : k.SameThreads k := ⟨rfl, rfl, rfl, rfl, rfl⟩

theorem withProcessor (k : Kernel σ) (processor : Processor) :
    k.SameThreads (k.withProcessor processor) := ⟨rfl, rfl, rfl, rfl, rfl⟩

theorem flush (k : Kernel σ) : k.SameThreads k.flush := ⟨rfl, rfl, rfl, rfl, rfl⟩

theorem withPaging (k : Kernel σ) (paging : Paging σ) : k.SameThreads { k with paging } :=
  ⟨rfl, rfl, rfl, rfl, rfl⟩

theorem withCpu (k : Kernel σ) (cpu : SleepLock) : k.SameThreads { k with cpu } :=
  ⟨rfl, rfl, rfl, rfl, rfl⟩

theorem follows (h : k.SameThreads k') : k.Follows k' :=
  ⟨h.config_eq, h.next_eq, h.sessions_eq, h.region_eq, congrArg List.length h.processes_eq,
    fun i p hp => .inl (by rw [h.processes_eq]; exact hp)⟩

theorem live_eq (h : k.SameThreads k') : k'.live = k.live := by
  funext pid
  rw [live, live, h.processes_eq]

theorem shows {m : FlatMachine} (h : k.SameThreads k') (hshows : k.Shows m) :
    k'.Shows m :=
  ⟨h.config_eq ▸ hshows.config_eq, h.processes_eq ▸ hshows.processes_eq,
    h.sessions_eq ▸ hshows.threads_eq, hshows.numbered⟩

end SameThreads

/-! ## Sessions -/

theorem getElem?_setPhase (k : Kernel σ) (n : Nat) (phase : Phase) (i : Nat) :
    (k.setPhase n phase).sessions[i]? =
      if i = n then k.sessions[n]?.map fun s => { s with phase } else k.sessions[i]? := by
  show (k.sessions.modify n fun s => { s with phase })[i]? = _
  by_cases h : i = n
  · rw [if_pos h, h, List.getElem?_modify_eq]
    rfl
  · rw [if_neg h, List.getElem?_modify_ne _ _ (Ne.symm h)]

/-- The session that a step is about. -/
theorem getElem?_setPhase_self (hs : k.sessions[n]? = some s) (phase : Phase) :
    (k.setPhase n phase).sessions[n]? = some { s with phase } := by
  rw [getElem?_setPhase, if_pos rfl, hs]
  rfl

/-- Only the last phase that a thread is led into counts. -/
theorem setPhase_setPhase (k : Kernel σ) (n : Nat) (phase phase' : Phase) :
    (k.setPhase n phase).setPhase n phase' = k.setPhase n phase' := by
  have hsessions : ((k.setPhase n phase).setPhase n phase').sessions =
      (k.setPhase n phase').sessions := List.modify_modify_eq ..
  exact congrArg (fun sessions => { k with sessions }) hsessions

theorem setPhase_eq (hs : k.session n = some s) :
    k.setPhase n s.phase = k := by
  have hsessions : (k.setPhase n s.phase).sessions = k.sessions := by
    apply List.ext_getElem?
    intro i
    rw [getElem?_setPhase]
    split
    · rename_i hi
      rw [hi, show k.sessions[n]? = some s from hs]
      rfl
    · rfl
  exact congrArg (fun sessions => { k with sessions }) hsessions

theorem byThread_eq {α : Type} (f : Phase → α) (away : α) (hs : k.sessions[n]? = some s) :
    k.byThread f away (threadOf n) = f s.phase := by
  show (k.sessions[n]?.map _).getD _ = _
  rw [hs]
  rfl

theorem byThread_setPhase {α : Type} (f : Phase → α) (away : α) (hs : k.sessions[n]? = some s)
    (phase : Phase) : (k.setPhase n phase).byThread f away =
      Function.update (k.byThread f away) (threadOf n) (f phase) := by
  funext t
  cases t with
  | zero => rw [Function.update_of_ne (by simp [threadOf])]; rfl
  | succ i =>
      by_cases hi : i = n
      · subst hi
        show (k.setPhase i phase).byThread f away (threadOf i) =
          Function.update (k.byThread f away) (threadOf i) (f phase) (threadOf i)
        rw [Function.update_self, byThread_eq f away (getElem?_setPhase_self hs phase)]
      · rw [Function.update_of_ne (by simpa [threadOf] using hi)]
        show ((k.setPhase n phase).sessions[i]?.map _).getD _ = (k.sessions[i]?.map _).getD _
        rw [getElem?_setPhase, if_neg hi]

/-- Whoever has something else than `away` is a session. -/
theorem exists_of_byThread {α : Type} {f : Phase → α} {away x : α} {t : ThreadId}
    (h : k.byThread f away t = x) (hx : x ≠ away) :
    ∃ i s, t = threadOf i ∧ k.sessions[i]? = some s ∧ f s.phase = x := by
  cases t with
  | zero => exact absurd h.symm hx
  | succ i =>
      cases hs : k.sessions[i]? with
      | none =>
          have h : (k.sessions[i]?.map _).getD away = x := h
          rw [hs] at h
          exact absurd h.symm hx
      | some s => exact ⟨i, s, rfl, hs, (byThread_eq f away hs).symm.trans h⟩

theorem byThread_congr {α : Type} (f : Phase → α) (away : α)
    (hsessions : k'.sessions = k.sessions) : k'.byThread f away = k.byThread f away := by
  funext t
  cases t with
  | zero => rfl
  | succ i => rw [byThread, byThread, hsessions]

theorem cpuUse_eq_byThread (k : Kernel σ) : k.cpuUse = k.byThread Phase.cpuUse .away := by
  funext t
  cases t <;> rfl

theorem cpuUse_eq (hs : k.sessions[n]? = some s) : k.cpuUse (threadOf n) = s.phase.cpuUse := by
  rw [cpuUse_eq_byThread, byThread_eq _ _ hs]

theorem cpuUse_setPhase (hs : k.sessions[n]? = some s) (phase : Phase) :
    (k.setPhase n phase).cpuUse = Function.update k.cpuUse (threadOf n) phase.cpuUse := by
  rw [cpuUse_eq_byThread, cpuUse_eq_byThread, byThread_setPhase _ _ hs]

theorem victims_eq (hs : k.sessions[n]? = some s) :
    k.victims = s.phase.victims + k.othersVictims n := sum_map_eq _ hs

theorem othersVictims_le (k : Kernel σ) (n : Nat) : k.othersVictims n ≤ k.victims := by
  cases hs : k.sessions[n]? with
  | none =>
      rw [othersVictims, List.eraseIdx_of_length_le (List.getElem?_eq_none_iff.1 hs)]
      exact le_rfl
  | some s =>
      rw [victims_eq hs]
      exact Multiset.le_add_left _ _

theorem othersVictims_setPhase (k : Kernel σ) (n : Nat) (phase : Phase) :
    (k.setPhase n phase).othersVictims n = k.othersVictims n := by
  rw [othersVictims, setPhase, eraseIdx_modify, othersVictims]

/-- A victim is one that some thread waits with. -/
theorem mem_victims_iff {f : Nat} : f ∈ k.victims ↔ ∃ n, k.WaitsWith n f := by
  rw [victims, mem_sum_map_iff]
  constructor
  · rintro ⟨s, hs, hf⟩
    obtain ⟨n, hs⟩ := List.mem_iff_getElem?.1 hs
    exact ⟨n, s, hs, Phase.mem_victims_iff.1 hf⟩
  · rintro ⟨n, s, hs, hf⟩
    exact ⟨s, List.mem_of_getElem? hs, Phase.mem_victims_iff.2 hf⟩

/-- The victims of the others are those that other threads wait with. -/
theorem mem_othersVictims_iff {f : Nat} :
    f ∈ k.othersVictims n ↔ ∃ i, i ≠ n ∧ k.WaitsWith i f := by
  rw [othersVictims, mem_sum_map_iff]
  constructor
  · rintro ⟨s, hs, hf⟩
    obtain ⟨i, hi, hs⟩ := List.mem_eraseIdx_iff_getElem?.1 hs
    exact ⟨i, hi, s, hs, Phase.mem_victims_iff.1 hf⟩
  · rintro ⟨i, hi, s, hs, hf⟩
    exact ⟨s, List.mem_eraseIdx_iff_getElem?.2 ⟨i, hi, hs⟩, Phase.mem_victims_iff.2 hf⟩

/-- The pins of the holder of the processor, and those of the others, who pin victims alone. -/
theorem pins_eq (hs : k.sessions[n]? = some s)
    (hothers : ∀ (i : Nat) (t : Session), i ≠ n → k.sessions[i]? = some t →
      t.phase.cpuUse ≠ .holding) : k.pins = s.phase.pins + k.othersVictims n := by
  rw [pins, sum_map_eq _ hs, othersVictims]
  congr 2
  -- pins for a copy are held only by a thread that has the processor
  refine List.map_congr_left fun t ht => ?_
  obtain ⟨i, hi, ht⟩ := List.mem_eraseIdx_iff_getElem?.1 ht
  exact Phase.pins_eq_victims (hothers i t hi ht)

namespace Shows

variable {m m' : FlatMachine}

/-! ## Processes -/

/-- The process of the flat machine that a process is. -/
theorem flat_of_process (h : k.Shows m) {i : Nat} (hp : k.processes[i]? = some p) :
    ∃ q, m.processes[i]? = some q ∧ q.process = p := by
  rw [← h.processes_eq, List.getElem?_map, Option.map_eq_some_iff] at hp
  exact hp

theorem pid_toNat (h : k.Shows m) {i : Nat} (hp : k.processes[i]? = some p) :
    p.pid.toNat = i + 1 := by
  obtain ⟨q, hq, rfl⟩ := h.flat_of_process hp
  exact h.numbered i q hq

theorem live_eq_some_iff (h : k.Shows m) {pid : Pid} :
    k.live pid = some p ↔
      p.pid = pid ∧ p.exited = false ∧ ∃ i : Nat, k.processes[i]? = some p := by
  constructor
  · intro hp
    have hmem := List.mem_of_find?_eq_some hp
    have hpid := List.find?_some hp
    simp only [Bool.and_eq_true, decide_eq_true_eq, Bool.not_eq_true'] at hpid
    exact ⟨hpid.1, hpid.2, List.mem_iff_getElem?.1 hmem⟩
  · rintro ⟨rfl, hlive, i, hp⟩
    obtain ⟨hlt, hget⟩ := List.getElem?_eq_some_iff.1 hp
    refine List.find?_eq_some_iff_getElem.2 ⟨by simp [hlive], i, hlt, hget, fun j hj => ?_⟩
    -- numbers are places, so no process further down has this one
    have hq := h.pid_toNat (List.getElem?_eq_getElem (Nat.lt_trans hj hlt))
    have hpid := h.pid_toNat hp
    have hne : k.processes[j].pid ≠ p.pid := by
      intro heq
      rw [heq] at hq
      omega
    simp [hne]

/-- A process that has ended is not alive, nor is there another one with its number. -/
theorem live_eq (h : k.Shows m) {i : Nat} (hp : k.processes[i]? = some p) :
    k.live p.pid = if p.exited then none else some p := by
  split
  · rename_i hexited
    rw [Option.eq_none_iff_forall_ne_some]
    intro q hq
    obtain ⟨hpid, hlive, j, hq⟩ := h.live_eq_some_iff.1 hq
    have h1 := h.pid_toNat hp
    have h2 := h.pid_toNat hq
    rw [hpid, h1] at h2
    obtain rfl : i = j := by omega
    rw [hp] at hq
    obtain rfl := Option.some.inj hq
    rw [hexited] at hlive
    exact Bool.noConfusion hlive
  · rename_i hlive
    exact h.live_eq_some_iff.2 ⟨rfl, Bool.not_eq_true _ ▸ hlive, i, hp⟩

/-- What the memory manager is told of a process: it is alive, or there is none with its number. -/
theorem live_or (h : k.Shows m) {i : Nat} (hp : k.processes[i]? = some p) :
    k.live p.pid = some p ∨ k.live p.pid = none := by
  rw [h.live_eq hp]
  cases p.exited
  · exact .inl rfl
  · exact .inr rfl

/-! ## Threads -/

/-- The thread of the flat machine that a session is. -/
theorem thread (h : k.Shows m) (hs : k.sessions[n]? = some s) :
    m.threads[n]? = some ⟨s.process, s.phase.errand⟩ := by
  rw [h.threads_eq, List.getElem?_map, hs]
  rfl

theorem setPhase (h : k.Shows m) (n : Nat) (phase : Phase) :
    (k.setPhase n phase).Shows (m.setErrand n phase.errand) := by
  refine ⟨h.config_eq, h.processes_eq, ?_, h.numbered⟩
  show m.threads.modify n _ = (k.sessions.modify n _).map _
  rw [h.threads_eq]
  apply List.ext_getElem?
  intro i
  rw [List.getElem?_map, List.getElem?_modify, List.getElem?_modify, List.getElem?_map]
  cases k.sessions[i]? with
  | none => rfl
  | some t =>
      by_cases hi : n = i
      · simp [hi, Session.flat]
      · simp [hi]

/-- A process of the flat machine may have another memory. -/
theorem setProcess (h : k.Shows m) {i : Nat} {q q' : FlatProcess} (hq : m.processes[i]? = some q)
    (hprocess : q'.process = q.process) : k.Shows (m.setProcess i q') := by
  have hprocesses := (FlatMachine.map_process_setProcess hq hprocess).trans h.processes_eq
  exact ⟨h.config_eq, hprocesses, h.threads_eq,
    (h.numbered.setProcess hq (congrArg UserProcess.pid hprocess)).1⟩

end Shows

namespace Sound

variable [Extent σ] [Extent.Reliable σ] {m m' : FlatMachine} {callers : Multiset Nat}

/-! ## The holder of the processor -/

/-- The holder is the only thread that uses the processor. -/
theorem others_away (h : k.Sound m callers) (hs : k.sessions[n]? = some s)
    (hhold : s.phase.cpuUse = .holding) {i : Nat} {t : Session} (hi : i ≠ n)
    (ht : k.sessions[i]? = some t) : t.phase.cpuUse ≠ .holding := by
  intro heq
  have := h.cpu.holder_unique ((cpuUse_eq ht).trans heq) ((cpuUse_eq hs).trans hhold)
  exact hi (Nat.succ.inj this)

/-- What the holder of the processor finds. -/
theorem holder (h : k.Sound m callers) (hs : k.sessions[n]? = some s)
    (hp : k.processes[s.process]? = some p) (hhold : s.phase.cpuUse = .holding) :
    k.paging.Sound k.live (if s.phase.usesCache then some p.pid else none)
        (s.phase.pins + (k.othersVictims n + callers)) m.page ∧
      (s.phase.usesCache = true → s.phase.Holds k.paging p) := by
  obtain ⟨running, hruns, hpaging⟩ := h.paging
  rw [pins_eq hs fun i t => h.others_away hs hhold, add_assoc] at hpaging
  cases running with
  | none =>
      have huses := hruns n s hs
      rw [huses]
      exact ⟨hpaging, nofun⟩
  | some pid =>
      obtain ⟨i, t, q, ht, hq, rfl, huses, hholds⟩ := hruns
      -- the thread that uses the cache has the processor, so it is this one
      have hi : i = n := by
        by_contra hi
        exact h.others_away hs hhold hi ht (Phase.holding_of_usesCache huses)
      subst hi
      rw [hs] at ht
      obtain rfl := Option.some.inj ht
      rw [hp] at hq
      obtain rfl := Option.some.inj hq
      rw [huses]
      exact ⟨hpaging, fun _ => hholds⟩

/-! ## The process on the processor -/

/-- Only a process on the processor may have entries in the mapping cache. -/
theorem running (h : k.Sound m callers) :
    ∃ running, k.paging.Sound k.live running (k.pins + callers) m.page ∧
      ∀ pid, running = some pid → ∃ (i : Nat) (p : UserProcess), k.processes[i]? = some p ∧
        p.pid = pid ∧ k.OnProcessor i := by
  obtain ⟨running, hruns, hpaging⟩ := h.paging
  refine ⟨running, hpaging, ?_⟩
  rintro pid rfl
  obtain ⟨n, s, p, hs, hp, hpid, huses, -⟩ := hruns
  have hhold := (cpuUse_eq hs).trans (Phase.holding_of_usesCache huses)
  exact ⟨s.process, p, hp, hpid, n, s, h.cpu.holder_eq _ hhold, hs, rfl⟩

/-- What holds of the memory manager while a thread of a process has the processor. -/
theorem on_processor (h : k.Sound m callers) {i : Nat} (hon : k.OnProcessor i)
    (hp : k.processes[i]? = some p) :
    k.paging.Sound k.live (some p.pid) (k.pins + callers) m.page := by
  obtain ⟨running, hpaging, hrunning⟩ := h.running
  cases running with
  | none => exact hpaging.switch_of_none _
  | some pid =>
      obtain ⟨j, q, hq, rfl, n', s', hholder', hs', rfl⟩ := hrunning pid rfl
      obtain ⟨n, s, hholder, hs, rfl⟩ := hon
      obtain rfl : n = n' := Nat.succ.inj (Option.some.inj (hholder.symm.trans hholder'))
      obtain rfl := Option.some.inj (hs.symm.trans hs')
      obtain rfl := Option.some.inj (hp.symm.trans hq)
      exact hpaging

/-! ## Steps -/

/-- A step that leads a thread into a phase. -/
theorem advance (h : k.Sound m callers) (phase : Phase) (hs : k.sessions[n]? = some s)
    (hfollows : k.Follows k') (hshows : k'.Shows m') (hp : k'.processes[s.process]? = some p)
    (hfits : phase.Fits k.config.pageSize p)
    (hvictims : Exclusive (phase.victims + k.othersVictims n) callers)
    (hcpu : k'.cpu.Serves (Function.update k.cpuUse (threadOf n) phase.cpuUse))
    (hsize : k'.paging.processor.pageSize = k.paging.processor.pageSize)
    (hpaging : ∃ running, (k'.setPhase n phase).Runs running ∧
      k'.paging.Sound k'.live running ((k'.setPhase n phase).pins + callers) m'.page) :
    (k'.setPhase n phase).Sound (m'.setErrand n phase.errand) callers := by
  have hs' : k'.sessions[n]? = some s := by rw [hfollows.sessions_eq]; exact hs
  -- the sessions are as they were but for the phase of this one
  have huse : k'.cpuUse = k.cpuUse := by
    rw [cpuUse_eq_byThread, cpuUse_eq_byThread, byThread_congr _ _ hfollows.sessions_eq]
  have hothers : k'.othersVictims n = k.othersVictims n := by
    rw [othersVictims, othersVictims, hfollows.sessions_eq]
  have hconfig : k'.config = k.config := hfollows.config_eq
  refine ⟨hshows.setPhase n phase, ?_, ?_, ?_, ?_, hfollows.region_eq.trans h.region_eq, ?_, ?_,
    ?_, hpaging⟩
  · exact hsize.trans (h.pageSize_eq.trans (congrArg Config.pageSize hconfig.symm))
  · show k'.pids.next = UInt16.ofNat (k'.processes.length + 1)
    rw [hfollows.next_eq, hfollows.length_eq]
    exact h.next_eq
  · exact hfollows.length_eq ▸ h.length_lt
  · -- images never change
    intro i q hq
    show q.image.pageSize = k'.config.pageSize
    have hlt := (List.getElem?_eq_some_iff.1 hq).1
    obtain ⟨q0, hq0⟩ : ∃ q0, k.processes[i]? = some q0 :=
      ⟨_, List.getElem?_eq_getElem (hfollows.length_eq ▸ hlt)⟩
    have hsame : q.image = q0.image := by
      rcases hfollows.ended_or_eq i _ hq0 with hq' | hq'
      all_goals
        obtain rfl := Option.some.inj (hq.symm.trans hq')
        rfl
    rw [hsame, hconfig]
    exact h.image_pageSize i _ hq0
  · show k'.cpu.Serves _
    rw [cpuUse_setPhase hs', huse]
    exact hcpu
  · -- the other threads are where they were, and a process that ended keeps its requests
    intro i t ht
    show ∃ q, k'.processes[t.process]? = some q ∧ t.phase.Fits k'.config.pageSize q
    rw [getElem?_setPhase] at ht
    rw [hconfig]
    split at ht
    · rw [hs'] at ht
      obtain rfl := Option.some.inj ht
      exact ⟨p, hp, hfits⟩
    · rw [hfollows.sessions_eq] at ht
      obtain ⟨q, hq, hfit⟩ := h.fits i t ht
      rcases hfollows.ended_or_eq _ q hq with hq' | hq'
      · exact ⟨q, hq', hfit⟩
      · exact ⟨_, hq', hfit.ended⟩
  · rw [victims_eq (getElem?_setPhase_self hs' phase), othersVictims_setPhase, hothers]
    exact hvictims

/-- A step of the holder of the processor, who may have changed the tables. -/
theorem advance_holder (h : k.Sound m callers) (phase : Phase) (hs : k.sessions[n]? = some s)
    (hhold : s.phase.cpuUse = .holding) (hfollows : k.Follows k') (hshows : k'.Shows m')
    (hp : k'.processes[s.process]? = some p) (hfits : phase.Fits k.config.pageSize p)
    (hvictims : Exclusive (phase.victims + k.othersVictims n) callers)
    (hcpu : k'.cpu.Serves (Function.update k.cpuUse (threadOf n) phase.cpuUse))
    (hsize : k'.paging.processor.pageSize = k.paging.processor.pageSize)
    (hpaging : k'.paging.Sound k'.live (if phase.usesCache then some p.pid else none)
      (phase.pins + (k.othersVictims n + callers)) m'.page)
    (hholds : phase.usesCache = true → phase.Holds k'.paging p) :
    (k'.setPhase n phase).Sound (m'.setErrand n phase.errand) callers := by
  have hs' : k'.sessions[n]? = some s := by rw [hfollows.sessions_eq]; exact hs
  have hself := getElem?_setPhase_self hs' phase
  -- while one thread has the processor no other one uses the cache
  have hothers : ∀ (i : Nat) (t : Session), i ≠ n → (k'.setPhase n phase).sessions[i]? = some t →
      t.phase.cpuUse ≠ .holding := by
    intro i t hi ht
    rw [getElem?_setPhase, if_neg hi, hfollows.sessions_eq] at ht
    exact h.others_away hs hhold hi ht
  refine h.advance phase hs hfollows hshows hp hfits hvictims hcpu hsize
    ⟨if phase.usesCache then some p.pid else none, ?_, ?_⟩
  · by_cases huses : phase.usesCache = true
    · rw [if_pos huses]
      exact ⟨n, _, p, hself, hp, rfl, huses, hholds huses⟩
    · rw [if_neg huses]
      intro i t ht
      by_cases hi : i = n
      · subst hi
        rw [hself] at ht
        obtain rfl := Option.some.inj ht
        exact Bool.not_eq_true _ ▸ huses
      · rw [← Bool.not_eq_true]
        exact fun hu => hothers i t hi ht (Phase.holding_of_usesCache hu)
  · rw [pins_eq hself hothers, add_assoc, othersVictims_setPhase, othersVictims,
      hfollows.sessions_eq]
    exact hpaging

/-- A step of the holder that changes neither the tables nor its pins. -/
theorem advance_still (h : k.Sound m callers) (phase : Phase) (hs : k.sessions[n]? = some s)
    (hhold : s.phase.cpuUse = .holding) (hsame : k.SameThreads k') (hpaging : k'.paging = k.paging)
    (hp : k.processes[s.process]? = some p) (hfits : phase.Fits k.config.pageSize p)
    (hcpu : k'.cpu.Serves (Function.update k.cpuUse (threadOf n) phase.cpuUse))
    (huses : s.phase.usesCache = true → phase.usesCache = true)
    (hvictims : phase.victims = s.phase.victims) (hcopied : phase.copied = s.phase.copied)
    (hholds : phase.usesCache = true → phase.Holds k.paging p) :
    (k'.setPhase n phase).Sound (m.setErrand n phase.errand) callers := by
  obtain ⟨hsound, -⟩ := h.holder hs hp hhold
  refine h.advance_holder phase hs hhold hsame.follows (hsame.shows h.toShows)
    (hsame.processes_eq ▸ hp) hfits ?_ hcpu (by rw [hpaging]) ?_ (hpaging ▸ hholds)
  · rw [hvictims, ← victims_eq hs]
    exact h.exclusive
  · rw [hpaging, hsame.live_eq, Phase.pins, hvictims, hcopied, ← Phase.pins]
    by_cases hu : s.phase.usesCache = true
    · rw [if_pos (huses hu)]
      rw [if_pos hu] at hsound
      exact hsound
    · rw [if_neg hu] at hsound
      exact hsound.switch_of_none _

/-- A step of a thread that does not use the cache, and leaves the tables alone. -/
theorem advance_aside (h : k.Sound m callers) (phase : Phase) (hs : k.sessions[n]? = some s)
    (hsame : k.SameThreads k') (hpaging : k'.paging = k.paging)
    (hp : k.processes[s.process]? = some p) (hfits : phase.Fits k.config.pageSize p)
    (hcpu : k'.cpu.Serves (Function.update k.cpuUse (threadOf n) phase.cpuUse))
    (huses : s.phase.usesCache = false) (huses' : phase.usesCache = false)
    (hvictims : phase.victims = s.phase.victims) (hcopied : phase.copied = s.phase.copied) :
    (k'.setPhase n phase).Sound (m.setErrand n phase.errand) callers := by
  have hs' : k'.sessions[n]? = some s := by rw [hsame.sessions_eq]; exact hs
  have hself := getElem?_setPhase_self hs' phase
  obtain ⟨running, hruns, hsound⟩ := h.paging
  refine h.advance phase hs hsame.follows (hsame.shows h.toShows) (hsame.processes_eq ▸ hp) hfits
    ?_ hcpu (by rw [hpaging]) ⟨running, ?_, ?_⟩
  · rw [hvictims, ← victims_eq hs]
    exact h.exclusive
  · cases running with
    | none =>
        intro i t ht
        by_cases hi : i = n
        · subst hi
          rw [hself] at ht
          obtain rfl := Option.some.inj ht
          exact huses'
        · rw [getElem?_setPhase, if_neg hi, hsame.sessions_eq] at ht
          exact hruns i t ht
    | some pid =>
        obtain ⟨i, t, q, ht, hq, hpid, hu, hholds⟩ := hruns
        -- this thread does not use the cache, so it is another one that does
        have hi : i ≠ n := by
          rintro rfl
          rw [hs] at ht
          obtain rfl := Option.some.inj ht
          rw [huses] at hu
          exact Bool.noConfusion hu
        refine ⟨i, t, q, ?_, hsame.processes_eq ▸ hq, hpid, hu, hpaging ▸ hholds⟩
        rw [getElem?_setPhase, if_neg hi, hsame.sessions_eq]
        exact ht
  · have hpins : (k'.setPhase n phase).pins = k.pins := by
      rw [pins, pins, sum_map_eq _ hself, sum_map_eq _ hs, setPhase, eraseIdx_modify,
        hsame.sessions_eq]
      show phase.pins + _ = s.phase.pins + _
      rw [Phase.pins, Phase.pins, hvictims, hcopied]
    rw [hsame.live_eq, hpaging, hpins]
    exact hsound

end Sound

end Kernel

end DemandPaging
