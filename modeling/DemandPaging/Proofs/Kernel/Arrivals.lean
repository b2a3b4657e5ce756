import DemandPaging.Kernel.Event
import DemandPaging.Proofs.Kernel.Calls
import DemandPaging.Proofs.Paging.Lifetime

/-!
# New processes, threads and requests

A new process has the pages of its image and a number that no process had before. A new thread does
not yet have the processor. A thread that is given a request has it already.
-/

namespace DemandPaging.Kernel

variable {σ : Type} [Extent σ] [Extent.Reliable σ] {k k' : Kernel σ} {m : FlatMachine}
  {n : Nat} {p : UserProcess} {callers : Multiset Nat}

namespace Sound

/-! ## Requests and threads -/

/-- A thread is given a request. -/
theorem ask_run (h : k.Sound m callers) {s : Session} (hs : k.sessions[n]? = some s)
    (hready : s.phase = .ready) {request : Request} (hordinary : request.isOrdinary = true) :
    k.Simulated m (.ask n request) (none : Option (Response σ)) (k.accept n request)
      callers := by
  obtain ⟨place, phase⟩ := s
  obtain rfl : phase = .ready := hready
  obtain ⟨p, hp, -⟩ := h.fits n _ hs
  refine .of_step (.ask (h.thread hs)) ?_
  exact h.advance_still (.busy { request }) hs rfl (.refl k) rfl hp
    ⟨hordinary, Nat.zero_le _, fun _ => rfl, trivial⟩ (h.serves_same hs rfl rfl) (fun _ => rfl)
    rfl rfl (fun _ => trivial)

omit [Extent σ] [Extent.Reliable σ] in
/-- The sessions when one was added. -/
theorem getElem?_start {i j : Nat} {s : Session} (hs : (k.start i).sessions[j]? = some s) :
    k.sessions[j]? = some s ∨ k.sessions[j]? = none ∧ s = { process := i } := by
  have hs : (k.sessions ++ [{ process := i }])[j]? = some s := hs
  rcases Nat.lt_or_ge j k.sessions.length with hj | hj
  · exact .inl ((List.getElem?_append_left hj).symm.trans hs)
  · rw [List.getElem?_append_right hj] at hs
    exact .inr ⟨List.getElem?_eq_none hj, List.mem_singleton.1 (List.mem_of_getElem? hs)⟩

omit [Extent σ] [Extent.Reliable σ] in
/-- A new thread is about as much as a thread that there is not. -/
theorem byThread_start {α : Type} (f : Phase → α) (away : α) (h : f (.starting .asking) = away)
    (i : Nat) : (k.start i).byThread f away = k.byThread f away := by
  funext t
  cases t with
  | zero => rfl
  | succ j =>
      show ((k.start i).sessions[j]?.map _).getD _ = (k.sessions[j]?.map _).getD _
      cases hs : (k.start i).sessions[j]? with
      | none =>
          have hj : (k.sessions ++ [({ process := i } : Session)]).length ≤ j :=
            List.getElem?_eq_none_iff.1 hs
          rw [List.length_append] at hj
          rw [List.getElem?_eq_none (by omega)]
      | some s =>
          rcases getElem?_start hs with hs' | ⟨hs', rfl⟩
          · rw [hs']
          · rw [hs']
            exact h

omit [Extent σ] [Extent.Reliable σ] in
/-- A new thread adds nothing of which it has nothing. -/
theorem sum_start {M : Type} [AddCommMonoid M] (g : Session → M) {i : Nat}
    (h : g { process := i } = 0) :
    ((k.start i).sessions.map g).sum = (k.sessions.map g).sum := by
  show ((k.sessions ++ [_]).map g).sum = _
  rw [List.map_append, List.sum_append, List.map_singleton, List.sum_singleton, h, add_zero]

/-- A thread is added. -/
theorem add_run (h : k.Sound m callers) {i : Nat} (hp : k.processes[i]? = some p) :
    k.Simulated m (.start i) (none : Option (Response σ)) (k.start i) callers := by
  have hlt : i < m.processes.length := by
    obtain ⟨q, hq, -⟩ := h.flat_of_process hp
    exact (List.getElem?_eq_some_iff.1 hq).1
  refine ⟨_, .start hlt, ⟨⟨h.config_eq, h.processes_eq, ?_, h.numbered⟩, h.pageSize_eq, h.next_eq,
    h.length_lt, h.image_pageSize, h.region_eq, ?_, ?_, ?_, ?_⟩, .inr rfl⟩
  · show m.threads ++ _ = (k.sessions ++ _).map _
    rw [h.threads_eq, List.map_append]
    rfl
  · rw [cpuUse_eq_byThread, byThread_start _ LockUse.away rfl, ← cpuUse_eq_byThread]
    exact h.cpu
  · intro j s hs
    rcases getElem?_start hs with hs | ⟨-, rfl⟩
    · exact h.fits j s hs
    · exact ⟨p, hp, trivial⟩
  · rw [victims, sum_start _ rfl]
    exact h.exclusive
  · obtain ⟨running, hruns, hsound⟩ := h.paging
    refine ⟨running, ?_, ?_⟩
    · cases running with
      | none =>
          intro j s hs
          rcases getElem?_start hs with hs | ⟨-, rfl⟩
          · exact hruns j s hs
          · rfl
      | some pid =>
          obtain ⟨j, s, q, hs, hrest⟩ := hruns
          exact ⟨j, s, q,
            (List.getElem?_append_left (List.getElem?_eq_some_iff.1 hs).1).trans hs, hrest⟩
    · rw [pins, sum_start _ rfl]
      exact hsound

end Sound

/-! ## Processes -/

/-- The process that an image becomes. -/
def newcomer (k : Kernel σ) (image : Image) : UserProcess :=
  { pid := k.pids.next
    image
    numPages := UserProcess.addressSpace image k.config.stackPages }

/-- The kernel with a process added. -/
def added (k : Kernel σ) (u : UserProcess) : Kernel σ :=
  { k with
    pids := ⟨k.pids.next + 1⟩
    paging := { k.paging with
      tables := k.paging.tables.insert u.pid (PageTable.create u.numPages) }
    processes := k.processes ++ [u] }

omit [Extent σ] [Extent.Reliable σ] in
/-- How a process is added: with the next number, for an image that fits the machine. -/
theorem spawn_ok {image : Image} {place : Nat} (hrun : k.spawn image = (.ok (.ok place), k')) :
    imageFault k.config image = none ∧ k.pids.next ≠ 0 ∧ place = k.processes.length ∧
      k' = k.added (k.newcomer image) := by
  rw [spawn] at hrun
  split at hrun
  · cases hrun
  · rename_i hfault
    by_cases hnext : k.pids.next = 0
    · simp only [PidCounter.allocate, if_pos hnext] at hrun
      cases hrun
    · simp only [PidCounter.allocate, if_neg hnext] at hrun
      cases hadd : PageTables.add k.paging.tables k.pids.next
          (UserProcess.addressSpace image k.config.stackPages) with
      | error halt =>
          rw [hadd] at hrun
          cases hrun
      | ok tables =>
          rw [hadd] at hrun
          obtain ⟨hplace, rfl⟩ := Prod.mk.inj hrun
          refine ⟨hfault, hnext, (Except.ok.inj (Except.ok.inj hplace)).symm, ?_⟩
          obtain ⟨-, -, hadd⟩ := ok_of_bind hadd
          split at hadd
          · cases hadd
          · obtain rfl := Except.ok.inj hadd
            rfl

omit [Extent σ] [Extent.Reliable σ] in
theorem spawn_refused {image : Image} {cause : PagingError}
    (hrun : k.spawn image = (.ok (.error cause), k')) :
    imageFault k.config image = some cause ∧ k' = k := by
  rw [spawn] at hrun
  split at hrun
  · rename_i hfault
    obtain ⟨hcause, rfl⟩ := Prod.mk.inj hrun
    obtain rfl := Except.error.inj (Except.ok.inj hcause)
    exact ⟨hfault, rfl⟩
  · dsimp only at hrun
    split at hrun
    · cases hrun
    · split at hrun
      · cases hrun
      · cases hrun

omit [Extent σ] [Extent.Reliable σ] in
theorem imageFault_eq_none {c : Config} {image : Image} (h : imageFault c image = none) :
    image.pageSize = c.pageSize ∧
      UserProcess.addressSpace image c.stackPages ≤ Address.maxPageNumber + 1 := by
  rw [imageFault] at h
  split at h
  · cases h
  · rename_i hsize
    dsimp only at h
    split at h
    · cases h
    · rename_i hlarge
      exact ⟨not_not.1 hsize, Nat.not_lt.1 hlarge⟩

omit [Extent σ] [Extent.Reliable σ] in
/-- Who is alive when a process was added. -/
theorem live_added {u : UserProcess} (hfresh : k.live u.pid = none) (hlive : u.exited = false) :
    (k.added u).live = Paging.Population.set k.live u.pid (some u) := by
  funext pid
  show (k.processes ++ [u]).find? _ = _
  rw [List.find?_append]
  by_cases hpid : pid = u.pid
  · subst hpid
    rw [Paging.Population.set, Function.update_self]
    have hnone : k.processes.find? (fun p => p.pid = u.pid && !p.exited) = none := hfresh
    rw [hnone, Option.none_or, List.find?_singleton, hlive]
    simp
  · rw [Paging.Population.set, Function.update_of_ne hpid, List.find?_singleton]
    have hne : ¬ u.pid = pid := Ne.symm hpid
    simp only [hne, decide_false, Bool.false_and, Bool.false_eq_true, if_false, Option.or_none]
    rfl

omit [Extent σ] [Extent.Reliable σ] in
/-- A next number that is not zero has not come round yet. -/
theorem toNat_next (heq : k.pids.next = UInt16.ofNat (k.processes.length + 1))
    (hlt : k.processes.length < 2 ^ 16) (hnext : k.pids.next ≠ 0) :
    k.pids.next.toNat = k.processes.length + 1 := by
  have hne : k.pids.next.toNat ≠ 0 := fun h0 => hnext (UInt16.toNat_inj.1 h0)
  rw [heq, UInt16.toNat_ofNat'] at hne ⊢
  omega

omit [Extent σ] [Extent.Reliable σ] in
/-- The counter of process numbers goes on in step with the processes. -/
theorem next_added (heq : k.pids.next = UInt16.ofNat (k.processes.length + 1)) (u : UserProcess) :
    (k.added u).pids.next = UInt16.ofNat ((k.added u).processes.length + 1) := by
  show k.pids.next + 1 = UInt16.ofNat ((k.processes ++ [_]).length + 1)
  rw [List.length_append, List.length_singleton, heq, UInt16.ofNat_add (_ + 1)]
  rfl

namespace Sound

/-- The number of the next process is one that no process had before. -/
theorem next_fresh (h : k.Sound m callers) (hnext : k.pids.next ≠ 0) :
    k.pids.next.toNat = k.processes.length + 1 ∧ k.live k.pids.next = none := by
  have hlt := h.length_lt
  have hnum := toNat_next h.next_eq hlt hnext
  refine ⟨hnum, ?_⟩
  rw [Option.eq_none_iff_forall_ne_some]
  intro u hu
  obtain ⟨hpid, -, i, hi⟩ := h.live_eq_some_iff.1 hu
  have := h.pid_toNat hi
  have := (List.getElem?_eq_some_iff.1 hi).1
  rw [hpid] at *
  omega

/-- A process is added. -/
theorem spawn_run (h : k.Sound m callers) {image : Image}
    (hfault : imageFault k.config image = none) (hnext : k.pids.next ≠ 0) :
    k.Simulated m (.spawn image) (some (.spawned k.processes.length) : Option (Response σ))
      (k.added (k.newcomer image)) callers := by
  obtain ⟨hnum, hfresh⟩ := h.next_fresh hnext
  obtain ⟨hsize, hlarge⟩ := imageFault_eq_none hfault
  have hlen : m.processes.length = k.processes.length := by
    rw [← h.processes_eq, List.length_map]
  have hnew : m.newProcess image = k.newcomer image := by
    rw [FlatMachine.newProcess, newcomer, h.next_eq, hlen, h.config_eq]
  have hstep := FlatMachine.Step.spawn (σ := σ) (m := m) (h.config_eq ▸ hfault)
  rw [hlen, hnew] at hstep
  obtain ⟨hnumbered, hpages⟩ := h.numbered.append
    (q := .fresh (k.newcomer image) m.config.pageSize) (by rw [hlen]; exact hnum)
  have hother : ∀ id : PageId, id.pid ≠ k.pids.next →
      FlatMachine.page { m with processes := m.processes ++
        [.fresh (k.newcomer image) m.config.pageSize] } id = m.page id :=
    fun id hid => (hpages id).trans (if_neg hid)
  -- the processes that there were keep their places and have other numbers
  have hfirst : ∀ {j : Nat} {q : UserProcess}, k.processes[j]? = some q →
      (k.added (k.newcomer image)).processes[j]? = some q ∧ q.pid ≠ k.pids.next := by
    intro j q hq
    have hlt := (List.getElem?_eq_some_iff.1 hq).1
    refine ⟨(List.getElem?_append_left hlt).trans hq, fun hpid => ?_⟩
    have := h.pid_toNat hq
    rw [hpid] at this
    omega
  refine ⟨_, hstep, ⟨⟨h.config_eq, ?_, h.threads_eq, hnumbered⟩, h.pageSize_eq, ?_, ?_, ?_,
    h.region_eq, h.cpu, ?_, h.exclusive, ?_⟩, .inl fun id entry hentry => ?_⟩
  · show (m.processes ++ [_]).map _ = k.processes ++ [_]
    rw [List.map_append, h.processes_eq]
    rfl
  · exact next_added h.next_eq _
  · show (k.processes ++ [_]).length < 2 ^ 16
    have := k.pids.next.toNat_lt
    rw [List.length_append, List.length_singleton]
    omega
  · intro j q hq
    have hq : (k.processes ++ [k.newcomer image])[j]? = some q := hq
    rcases Nat.lt_or_ge j k.processes.length with hj | hj
    · rw [List.getElem?_append_left hj] at hq
      exact h.image_pageSize j q hq
    · rw [List.getElem?_append_right hj] at hq
      obtain rfl := List.mem_singleton.1 (List.mem_of_getElem? hq)
      exact hsize
  · intro j s hs
    obtain ⟨q, hq, hfits⟩ := h.fits j s hs
    exact ⟨q, (hfirst hq).1, hfits⟩
  · obtain ⟨running, hruns, hsound⟩ := h.paging
    refine ⟨running, ?_, ?_⟩
    · cases running with
      | none => exact hruns
      | some pid =>
          obtain ⟨j, s, q, hs, hq, hpid, huses, hholds⟩ := hruns
          obtain ⟨hq', hne⟩ := hfirst hq
          refine ⟨j, s, q, hs, hq', hpid, huses, hholds.congr rfl (fun _ => rfl) fun page => ?_⟩
          exact (PageTables.find?_insert ..).trans (if_neg hne)
    · rw [live_added hfresh rfl]
      refine hsound.added hfresh hlarge hother fun page _ => ?_
      rw [h.pageSize_eq, ← h.config_eq]
      exact (hpages _).trans ((if_pos rfl).trans
        (FlatMachine.load_fresh (hsize.trans (congrArg Config.pageSize h.config_eq.symm)) page))
  · -- no page that there was is one of the new process
    obtain ⟨running, -, hsound⟩ := h.paging
    obtain ⟨u, hu, -⟩ := hsound.inverse.live_of_find? hentry
    refine hother id fun hid => ?_
    rw [hid, hfresh] at hu
    cases hu

end Sound

end DemandPaging.Kernel
