import DemandPaging.Proofs.FlatCalls
import DemandPaging.Proofs.Kernel.Sound

/-!
# The memory of a process

Where a page is kept is the kernel's affair: `Paging.pageBytes` looks for it in its frame, in its
slot, and at last in the image, and `Kernel.byteAt` is the byte that a live process has at an
address. It is the byte of the flat machine (`Sound.byteAt_eq`), so an event changes no memory
unless it is a step of a thread that stores (`Kernel.Stores`, `Sound.leaves`).
-/

namespace DemandPaging

theorem Phase.of_errand_asked {phase : Phase} {request : Request} {moved : List UInt8}
    (h : phase.errand = .asked request moved) :
    ∃ call, phase = .busy call ∧ call.request = request ∧ call.moved = moved := by
  cases phase with
  | busy call =>
      refine ⟨call, rfl, ?_⟩
      rw [errand] at h
      split at h
      · cases h
      · cases h
      · exact Errand.asked.inj h
  | starting | entering | ready | ended => cases h

theorem Phase.of_errand_idle {phase : Phase} (h : phase.errand = .idle) : phase = .ready := by
  cases phase with
  | busy call =>
      rw [errand] at h
      split at h <;> cases h
  | ready => rfl
  | starting | entering | ended => cases h

theorem Phase.of_errand_refused {phase : Phase} {cause : PagingError}
    (h : phase.errand = .refused cause) : ∃ call, phase = .busy call := by
  cases phase with
  | busy call => exact ⟨call, rfl⟩
  | starting | entering | ready | ended => cases h

namespace Paging

variable {σ : Type} [Extent σ] [Extent.Reliable σ]

/-- The bytes of a page of a process, wherever they are: in its frame, in its slot, or still in the
image. -/
def pageBytes (s : Paging σ) (u : UserProcess) (page : Nat) : List UInt8 :=
  match (s.tables.find? ⟨u.pid, page⟩).bind PageEntry.frame with
  | some f => s.processor.memory.getD f []
  | none => (s.swap.saved? ⟨u.pid, page⟩).getD (u.image.initialPage page s.processor.pageSize)

/-- The bytes of a page are the contents that it is to have. -/
theorem Sound.pageBytes_eq {s : Paging σ} {live : Population} {running : Option Pid}
    {pins : Multiset Nat} {mem : PageId → List UInt8} (h : s.Sound live running pins mem)
    {u : UserProcess} (hu : live u.pid = some u) {page : Nat} (hpage : page < u.numPages) :
    s.pageBytes u page = mem ⟨u.pid, page⟩ := by
  obtain ⟨e, he⟩ := h.inverse.find?_of_live hu hpage
  rw [pageBytes, he, Option.bind_some]
  cases hf : e.frame with
  | some f =>
      show s.processor.memory.getD f [] = _
      rw [Array.getD_eq_getD_getElem?, h.keeps.resident _ e f he hf]
      rfl
  | none =>
      show (s.swap.saved? ⟨u.pid, page⟩).getD _ = _
      cases hsaved : s.swap.saved? ⟨u.pid, page⟩ with
      | some bytes => exact (h.keeps.saved _ bytes hsaved).1
      | none => exact (h.keeps.absent _ e u he hf hsaved hu).symm

end Paging

namespace Kernel

variable {σ : Type} {k k' : Kernel σ} {n i : Nat}

/-- A thread of a process stores into its memory: it writes a byte, or copies some bytes into
memory. -/
def Stores (k : Kernel σ) (i : Nat) (e : Event) (r : Option (Response σ)) (k' : Kernel σ) : Prop :=
  ∃ n call, e = .advance n ∧ k.session n = some ⟨i, .busy call⟩ ∧
    ((∃ a v, call.request = .write a v ∧ r = some .done) ∨
      ∃ a data call', call.request = .copyIn a data ∧ k'.session n = some ⟨i, .busy call'⟩ ∧
        call.moved.length < call'.moved.length)

/-- A thread of the flat machine is a session of the kernel. -/
theorem Shows.session_of_thread {m : FlatMachine} (h : k.Shows m) {t : FlatThread}
    (ht : m.threads[n]? = some t) :
    ∃ s, k.session n = some s ∧ s.process = t.process ∧ s.phase.errand = t.errand := by
  rw [h.threads_eq, List.getElem?_map, Option.map_eq_some_iff] at ht
  obtain ⟨s, hs, rfl⟩ := ht
  exact ⟨s, hs, rfl, rfl⟩

theorem Shows.process_of_flat {m : FlatMachine} (h : k.Shows m) {q : FlatProcess}
    (hq : m.processes[i]? = some q) : k.process i = some q.process := by
  show k.processes[i]? = some q.process
  rw [← h.processes_eq, List.getElem?_map, hq]
  rfl

theorem Shows.session_of_asked {m : FlatMachine} (h : k.Shows m) {request : Request}
    {moved : List UInt8} (ht : m.threads[n]? = some ⟨i, .asked request moved⟩) :
    ∃ call, k.session n = some ⟨i, .busy call⟩ ∧ call.request = request ∧ call.moved = moved := by
  obtain ⟨⟨place, phase⟩, hs, rfl, herrand⟩ := h.session_of_thread ht
  obtain ⟨call, rfl, hcall⟩ := Phase.of_errand_asked herrand
  exact ⟨call, hs, hcall⟩

/-- A thread whose request is still pending is inside of it. -/
theorem Shows.busy_of_pending {m : FlatMachine} (h : k.Shows m) {p : FlatProcess}
    {request : Request} (hpending : m.Pending n i p request) :
    ∃ call, k.session n = some ⟨i, .busy call⟩ := by
  cases hpending with
  | going hthread =>
      obtain ⟨call, hs, -⟩ := h.session_of_asked hthread
      exact ⟨call, hs⟩
  | refused hthread =>
      obtain ⟨⟨place, phase⟩, hs, rfl, herrand⟩ := h.session_of_thread hthread
      obtain ⟨call, rfl⟩ := Phase.of_errand_refused herrand
      exact ⟨call, hs⟩

/-- Unless a thread stores, an event leaves the memory of the flat machine alone. -/
theorem Shows.leaves {m m' : FlatMachine} (h : k.Shows m) (h' : k'.Shows m') {e : Event}
    {r : Option (Response σ)} (hstep : FlatMachine.Step m e r m') (hstores : ¬ k.Stores i e r k') :
    m.Leaves m' i := by
  intro q q' hq hq'
  have hsame : ∀ {m₁ : FlatMachine}, m₁.processes[i]? = some q' → m₁.processes = m.processes →
      q'.byteAt = q.byteAt := by
    intro m₁ hq' heq
    rw [heq] at hq'
    obtain rfl := Option.some.inj (hq.symm.trans hq')
    rfl
  have hset : ∀ {j : Nat} {p p' : FlatProcess}, m.processes[j]? = some p →
      (m.setProcess j p').processes[i]? = some q' → (j = i → p'.byteAt = p.byteAt) →
      q'.byteAt = q.byteAt := by
    intro j p p' hp hq' hbytes
    rw [FlatMachine.getElem?_setProcess hp] at hq'
    split at hq'
    · rename_i hj
      subst hj
      obtain rfl := Option.some.inj hq'
      obtain rfl := Option.some.inj (hp.symm.trans hq)
      exact hbytes rfl
    · obtain rfl := Option.some.inj (hq.symm.trans hq')
      rfl
  cases hstep with
  | spawn =>
      have hlt := (List.getElem?_eq_some_iff.1 hq).1
      obtain rfl := Option.some.inj (hq.symm.trans ((List.getElem?_append_left hlt).symm.trans hq'))
      rfl
  | die _ hp | exit _ hp => exact hset hp hq' fun _ => rfl
  | store hthread hp =>
      refine hset hp hq' ?_
      rintro rfl
      obtain ⟨call, hs, hrequest, -⟩ := h.session_of_asked hthread
      exact absurd ⟨_, call, rfl, hs, .inl ⟨_, _, hrequest, rfl⟩⟩ hstores
  | @storePart n j a data moved part p hthread hp =>
      refine hset hp hq' ?_
      intro hj
      subst j
      obtain ⟨call, hs, hrequest, hmoved⟩ := h.session_of_asked hthread
      have hthread' := FlatMachine.thread_setErrand
        (m := m.setProcess i (p.store (a + moved.length) part)) hthread
        (.asked (.copyIn a data) (moved ++ part))
      obtain ⟨call', hs', -, hmoved'⟩ := h'.session_of_asked hthread'
      -- a copy that has not moved anything has stored nothing
      have hpart : part = [] := by
        by_contra hne
        refine hstores ⟨n, call, rfl, hs, .inr ⟨a, data, call', hrequest, hs', ?_⟩⟩
        rw [hmoved, hmoved', List.length_append]
        have := List.length_pos_iff.2 hne
        omega
      rw [hpart]
      exact FlatProcess.store_nil ..
  | _ => exact hsame hq' rfl

variable [Extent σ] [Extent.Reliable σ]

/-- The byte that a live process has at an address of its address space. -/
def byteAt (k : Kernel σ) (i a : Nat) : Option UInt8 :=
  (k.process i).bind fun u =>
    if u.exited = false ∧ Address.page k.config.pageSize a < u.numPages then
      (k.paging.pageBytes u (Address.page k.config.pageSize a))[Address.offset k.config.pageSize a]?
    else none

/-- The memory of a process is that of the flat machine. -/
theorem Sound.byteAt_eq {m : FlatMachine} {callers : Multiset Nat} (h : k.Sound m callers)
    {q : FlatProcess} (hq : m.processes[i]? = some q) (a : Nat) :
    k.byteAt i a = if q.process.exited = false ∧ a < q.size k.config.pageSize then
      some (q.byteAt a) else none := by
  obtain ⟨running, -, hpaging⟩ := h.paging
  have hp := h.toShows.process_of_flat hq
  have hpos : 0 < k.config.pageSize := h.pageSize_eq ▸ hpaging.sized.pageSize_pos
  have hiff : a < q.size k.config.pageSize ↔
      Address.page k.config.pageSize a < q.process.numPages := q.lt_size_iff hpos
  rw [byteAt, hp, Option.bind_some]
  by_cases hin : q.process.exited = false ∧ Address.page k.config.pageSize a < q.process.numPages
  · rw [if_pos hin, if_pos ⟨hin.1, hiff.2 hin.2⟩]
    have hu : k.live q.process.pid = some q.process := by
      rw [h.live_eq hp, hin.1]
      rfl
    rw [hpaging.pageBytes_eq hu hin.2, h.numbered.page_eq hq, h.config_eq,
      FlatProcess.getElem?_load, if_pos (show Address.offset _ a < _ from Nat.mod_lt a hpos)]
    exact congrArg (fun b => some (q.byteAt b)) (Address.join_split k.config.pageSize a)
  · rw [if_neg hin, if_neg fun hin' => hin ⟨hin'.1, hiff.1 hin'.2⟩]

end Kernel

end DemandPaging
