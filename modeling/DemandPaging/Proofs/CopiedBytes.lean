import DemandPaging.Proofs.Kernel.Answers
import DemandPaging.Proofs.RefusedAccesses

/-!
# Copies agree with accesses

A copy goes past the mapping cache and works on frames, page by page, with misses and sleeps in
between. Still it moves the bytes that loads and stores of single bytes would move (`CopiesOut`,
`CopiesIn`), ends early where these would be refused, and has no other effect: not one of its steps
ends a process or changes a byte that it was not asked to change, and in the end all its pins are
taken off (`CallerRun.copies_agree`): the frames that are pinned are the victims of other threads
that wait, and those that callers have pinned.
-/

namespace DemandPaging.Kernel

variable {σ : Type} {k k' k₀ : Kernel σ} {n i : Nat} {callers callers' : Multiset Nat} [Extent σ]

theorem Orderly.call (h : k.Orderly) (hcall : k.CallerStep callers callers' k') : k'.Orderly := by
  cases hcall with
  | pin _ hcall | unpin _ hcall => exact h.performAll hcall

/-- Whatever happens on a machine, its processes are housed and its threads have come to their
stages for a reason. -/
theorem CallerRun.orderly {c : Config} {extent : σ} (hboot : boot c extent = .ok (.ok k₀))
    {P : Multiset Nat → Prop} {trace : List (Event × Option (Response σ))}
    (h : CallerRun P k₀ 0 trace callers k) : k.Orderly := by
  induction h with
  | nil => exact .of_boot hboot
  | step _ _ hrun ih => exact ih.perform hrun
  | call _ hcall _ ih => exact ih.call hcall

theorem During.orderly {P : Aloof σ} {stages : List Stage}
    (h : During P n k callers stages callers' k') (horderly : k.Orderly) : k'.Orderly := by
  induction h with
  | start => exact horderly
  | own _ _ hrun ih | other _ _ _ hrun _ ih => exact ih.perform hrun
  | call _ hcall ih => exact ih.call hcall

/-- A thread is told something other than an error only if its process is alive. -/
theorem Orderly.alive_of_granted (h : k.Orderly) {call : Call}
    (hs : k.session n = some ⟨i, .busy call⟩) (haccess : call.request.isAccess = true)
    {response : Response σ} (hgranted : ∀ cause, response ≠ .failed cause)
    (hrun : k.perform (.advance n) = some (.ok (some response, k'))) :
    ∃ u, k'.process i = some u ∧ u.exited = false := by
  obtain ⟨u, hu, htells⟩ := h.answer_tells hs rfl haccess hrun
  refine ⟨u, hu, Bool.eq_false_iff.2 fun hend => ?_⟩
  obtain ⟨cause, hcause⟩ := htells.failed_iff.2 hend
  exact hgranted cause hcause

/-- An address lies in a read-only section of a process. -/
def ReadOnlyAt (u : UserProcess) (pageSize a : Nat) : Prop :=
  ∃ s ∈ u.image.sections, s.readOnly = true ∧ s.Covers pageSize a

variable [Extent.Reliable σ]

/-- What a copy of `count` bytes out of the memory of a process gives. The memory is as in `k`
before the copy and as in `k'` after it. -/
structure CopiesOut (k : Kernel σ) (callers : Multiset Nat) (n i : Nat) (u : UserProcess)
    (a count : Nat) (data : List UInt8) (k' : Kernel σ) : Prop where
  -- as many bytes as there are up to the end of the address space
  length_eq : data.length = min count (u.numPages * k.config.pageSize - a)
  -- the rest of the buffer that the bytes go to stays as it is
  buffer_eq : ∀ buffer : List UInt8, buffer.length = count → ∀ j,
    (Extent.patch buffer 0 data)[j]? = if j < data.length then k.byteAt i (a + j) else buffer[j]?
  as_loads : ∀ bytes callers₁ k₁, Calls (Spares i) n k callers (loads a bytes) callers₁ k₁ →
    bytes.length = data.length → bytes = data
  memory_eq : ∀ b, k'.byteAt i b = k.byteAt i b

/-- What a copy of `data` into the memory of a process stores: its first `count` bytes. -/
structure CopiesIn (k : Kernel σ) (callers : Multiset Nat) (n i : Nat) (u : UserProcess) (a : Nat)
    (data : List UInt8) (count : Nat) (k' : Kernel σ) : Prop where
  -- no more than there is room for up to the end of the address space
  count_le : count ≤ min data.length (u.numPages * k.config.pageSize - a)
  writable : ∀ j < count, ¬ ReadOnlyAt u k.config.pageSize (a + j)
  -- less than that only because of a read-only section
  cut_short : count < min data.length (u.numPages * k.config.pageSize - a) →
    ReadOnlyAt u k.config.pageSize (a + count)
  memory_eq : ∀ b, k'.byteAt i b =
    if a ≤ b ∧ b < a + count then data[b - a]? else k.byteAt i b
  as_stores : ∀ callers₁ k₁,
    Calls (Spares i) n k callers (stores a (data.take count)) callers₁ k₁ →
      ∀ b, k₁.byteAt i b = k'.byteAt i b

/-- All pins on a frame are those of callers, or it is the victim of a thread other than `n`, which
has it pinned once. -/
def PinnedByOthers (k : Kernel σ) (n : Nat) (callers : Multiset Nat) (f : Nat) : Prop :=
  k.paging.frameTable.pins f = callers.count f ∨
    k.paging.frameTable.pins f = 1 ∧ callers.count f = 0 ∧ ∃ j, j ≠ n ∧ k.WaitsWith j f

/-- A step of a copy from `k` to `k'` ends no process and changes no byte that it was not asked to
change; and if it is the answer, the thread has no pins any more. -/
structure CopyStep (k : Kernel σ) (n i : Nat) (request : Request) (r : Option (Response σ))
    (callers : Multiset Nat) (k' : Kernel σ) : Prop where
  processes_eq : k'.processes = k.processes
  memory_eq : ∀ j b, (j = i → ¬ request.Reaches b) → k'.byteAt j b = k.byteAt j b
  unpinned : r.isSome = true → ∀ f, k'.PinnedByOthers n callers f

variable {m m' : FlatMachine} {request : Request} {r : Option (Response σ)}

/-- The memory of a process that is alive. -/
theorem Sound.byteAt_alive (h : k.Sound m callers) {q : FlatProcess} (hq : m.processes[i]? = some q)
    (hlive : q.process.exited = false) (b : Nat) :
    k.byteAt i b = if b < q.size k.config.pageSize then some (q.byteAt b) else none := by
  rw [h.byteAt_eq hq]
  by_cases hb : b < q.size k.config.pageSize
  · rw [if_pos hb, if_pos ⟨hlive, hb⟩]
  · rw [if_neg hb, if_neg fun hboth => hb hboth.2]

/-- The memory of a process that is still alive, at addresses of the same address space. -/
theorem Sound.byteAt_later (h : k.Sound m callers) (h' : k'.Sound m' callers') {p q : FlatProcess}
    (hp : m.processes[i]? = some p) (hq : m'.processes[i]? = some q)
    (hprocess : q.process = p.process) (hlive : p.process.exited = false) (b : Nat) :
    k'.byteAt i b = if b < p.size k.config.pageSize then some (q.byteAt b) else none := by
  -- both kernels have the page size of the image
  have hpageSize : k'.config.pageSize = k.config.pageSize := by
    rw [← h.image_pageSize i _ (h.toShows.process_of_flat hp),
      ← h'.image_pageSize i _ (h'.toShows.process_of_flat hq), hprocess]
  rw [h'.byteAt_alive hq (hprocess ▸ hlive), hpageSize, FlatProcess.size, FlatProcess.size,
    hprocess]

/-- A thread that was answered has the processor, and all pins are those of others. -/
theorem Sound.pins_of_ready (h : k.Sound m callers) (hs : k.session n = some ⟨i, .ready⟩)
    (f : Nat) : k.PinnedByOthers n callers f := by
  obtain ⟨u, hu, -⟩ := h.fits n _ hs
  obtain ⟨hpaging, -⟩ := h.holder hs hu rfl
  have hpins : k.paging.frameTable.pins f = (k.othersVictims n + callers).count f := by
    rw [hpaging.frames.pins_eq, show (Phase.ready).pins = 0 from rfl, zero_add]
  obtain ⟨hnodup, hapart⟩ := h.exclusive.mono (othersVictims_le k n)
  rw [Multiset.count_add] at hpins
  by_cases hf : f ∈ k.othersVictims n
  · -- no caller has the victim of a thread pinned
    have hnone := Multiset.count_eq_zero_of_notMem (hapart f hf)
    rw [Multiset.count_eq_one_of_mem hnodup hf, hnone] at hpins
    exact .inr ⟨hpins, hnone, mem_othersVictims_iff.1 hf⟩
  · rw [Multiset.count_eq_zero_of_notMem hf, zero_add] at hpins
    exact .inl hpins

/-- What a step of a copy does, be it the answer or not. -/
theorem Sound.copyStep (h : k.Sound m callers) (h' : k'.Sound m' callers) {p : FlatProcess}
    (hpending : m.Pending n i p request) (hcopy : request.isCopy = true)
    (hstep : FlatMachine.Step m (.advance n) r m') : k.CopyStep n i request r callers k' := by
  obtain ⟨hprocesses, hbytes⟩ := hpending.step_frame hcopy hstep
  have hconfig : k'.config = k.config := by
    rw [← h'.config_eq, ← h.config_eq]
    exact hstep.config_eq
  have hsame : k'.processes = k.processes := by
    rw [← h'.processes_eq, ← h.processes_eq]
    exact hprocesses
  refine ⟨hsame, fun j b hb => ?_, fun hsome f => ?_⟩
  · cases hq : m.processes[j]? with
    | none =>
        -- there is no such process before the step, nor after it
        have hnone : k.process j = none := by
          show k.processes[j]? = none
          rw [← h.processes_eq, List.getElem?_map, hq]
          rfl
        have hnone' : k'.process j = none := (congrArg (·[j]?) hsame).trans hnone
        rw [byteAt, byteAt, hnone, hnone']
        rfl
    | some q =>
        obtain ⟨q', hq', -⟩ := hstep.process_became hq
        have hprocess : q'.process = q.process := by
          have hp' := h'.toShows.process_of_flat hq'
          rw [process, hsame] at hp'
          exact Option.some.inj (hp'.symm.trans (h.toShows.process_of_flat hq))
        rw [h.byteAt_eq hq, h'.byteAt_eq hq', hbytes j q q' hq hq' b hb, hconfig,
          FlatProcess.size, hprocess, FlatProcess.size]
  · obtain ⟨response, rfl⟩ := Option.isSome_iff_exists.1 hsome
    have haccess := Request.isAccess_of_isCopy hcopy
    exact h'.pins_of_ready (h'.toShows.ready_of_idle (hpending.answered_idle haccess hstep)) f

/-- A copy that is answered with anything but an error: it was still pending on the flat machine,
and its process is alive. -/
theorem Answers.granted {stages : List Stage} {response : Response σ} {p : FlatProcess}
    (h : k.Answers (Spares i) n callers request stages response callers' k')
    (horderly : k.Orderly) (hsound : k.Sound m callers) (hs : k.session n = some ⟨i, .ready⟩)
    (hp : m.processes[i]? = some p) (hordinary : request.isOrdinary = true)
    (haccess : request.isAccess = true)
    (hgranted : ∀ cause, response ≠ .failed cause) :
    ∃ m₂ m', k'.Sound m' callers' ∧ m₂.Pending n i p request ∧ m₂.Remembers n i p request ∧
      FlatMachine.Step m₂ (.advance n) (some response) m' ∧ m₂.config = m.config ∧
      ∀ q, m'.processes[i]? = some q → p.Became q → q.process = p.process := by
  cases h with
  | intro hask hduring hsession hanswer =>
      obtain ⟨m₁, hsound₁, hpending₁, hremembers₁, hconfig₁⟩ := hsound.asked hordinary hs hp hask
      obtain ⟨m₂, hsound₂, hpending₂, hconfig₂, hremembers₂⟩ :=
        hduring.pending hsound₁ haccess hpending₁
      obtain ⟨m', hstep, hsound', -⟩ := hsound₂.perform_run rfl hanswer
      refine ⟨m₂, m', hsound', hpending₂, hremembers₂ (fun _ _ _ _ h => h) hremembers₁, hstep,
        hconfig₂.trans hconfig₁, fun q hq hbecame => hbecame.process_eq ?_⟩
      cases hpending₂ with
      | going hthread =>
          obtain ⟨call, hcall, hrequest, -⟩ := hsound₂.toShows.session_of_asked hthread
          have horderly₂ := hduring.orderly (horderly.perform hask)
          obtain ⟨u, hu, hlive⟩ := horderly₂.alive_of_granted hcall
            ((congrArg Request.isAccess hrequest).trans haccess) hgranted hanswer
          obtain rfl := Option.some.inj ((hsound'.toShows.process_of_flat hq).symm.trans hu)
          exact hlive
      | refused hthread =>
          -- whoever was refused is told so
          cases hstep with
          | failed => exact absurd rfl (hgranted _)
          | load h | store h | copied h | stored h | gone h | yielded h | exited h =>
              cases hthread.symm.trans h

/-- A copy out of memory gives the bytes that are there. -/
theorem Answers.copiesOut {stages : List Stage} {a count : Nat} {data : List UInt8}
    {p : FlatProcess}
    (h : k.Answers (Spares i) n callers (.copyOut a count) stages (.copied data) callers' k')
    (horderly : k.Orderly) (hsound : k.Sound m callers) (hs : k.session n = some ⟨i, .ready⟩)
    (hp : m.processes[i]? = some p) (hlive : p.process.exited = false) :
    k.CopiesOut callers n i p.process a count data k' := by
  obtain ⟨m₂, m', hsound', hpending, hremembers, hstep, hconfig, halive⟩ :=
    h.granted horderly hsound hs hp rfl rfl (fun _ h => nomatch h)
  obtain ⟨hlength, hdata, q, hq, hbecame, hbytes⟩ := hpending.copied hremembers hstep
  have hprocess := halive q hq hbecame
  have hpageSize : m₂.config.pageSize = k.config.pageSize := by rw [hconfig, hsound.config_eq]
  rw [hpageSize] at hlength
  refine ⟨hlength, fun buffer hbuffer j => ?_, fun bytes _ k₁ hloads heq => ?_,
    fun b => ?_⟩
  · rw [Extent.getElem?_patch (by omega), Nat.zero_add, Nat.sub_zero]
    by_cases hj : j < data.length
    · rw [if_pos ⟨Nat.zero_le j, hj⟩, if_pos hj, hsound.byteAt_alive hp hlive, if_pos (by omega),
        hdata, FlatProcess.getElem?_load, if_pos hj]
    · rw [if_neg fun hboth => hj hboth.2, if_neg hj]
  · have hload := hloads.bytes_eq rfl hsound hs hp
    rw [hload, heq, ← hdata]
  · rw [hsound.byteAt_later hsound' hp hq hprocess hlive, hsound.byteAt_alive hp hlive, hbytes]

/-- A copy into memory stores the bytes that it can. -/
theorem Answers.copiesIn {stages : List Stage} {a count : Nat} {data : List UInt8}
    {p : FlatProcess}
    (h : k.Answers (Spares i) n callers (.copyIn a data) stages (.stored count) callers' k')
    (horderly : k.Orderly) (hsound : k.Sound m callers) (hs : k.session n = some ⟨i, .ready⟩)
    (hp : m.processes[i]? = some p) (hlive : p.process.exited = false) :
    k.CopiesIn callers n i p.process a data count k' := by
  obtain ⟨m₂, m', hsound', hpending, hremembers, hstep, hconfig, halive⟩ :=
    h.granted horderly hsound hs hp rfl rfl (fun _ h => nomatch h)
  obtain ⟨hcount, hfree, hcut, q, hq, hbecame, hbytes⟩ := hpending.stored hremembers hstep
  have hprocess := halive q hq hbecame
  have hpageSize : m₂.config.pageSize = k.config.pageSize := by rw [hconfig, hsound.config_eq]
  rw [hpageSize] at hcount hfree hcut
  refine ⟨hcount, hfree, hcut, fun b => ?_, fun _ k₁ hstores b => ?_⟩
  · rw [hsound.byteAt_later hsound' hp hq hprocess hlive, hsound.byteAt_alive hp hlive, hbytes]
    simp only [FlatProcess.store, List.length_take, List.getD_eq_getElem?_getD]
    by_cases hb : a ≤ b ∧ b < a + count
    · have hin : b < p.size k.config.pageSize := by
        rw [FlatProcess.size]
        have := hcount
        rw [FlatProcess.size] at this
        omega
      have hlt : b - a < data.length := by omega
      rw [if_pos hin, if_pos hb, if_pos (by omega), List.getElem?_take_of_lt (by omega),
        List.getElem?_eq_getElem hlt]
      rfl
    · rw [if_neg hb]
      split
      · rw [if_neg (by omega)]
      · rfl
  · obtain ⟨m₁, q₁, hsound₁, hq₁, hprocess₁, hbytes₁⟩ := hstores.stored_eq rfl hsound hs hp
    rw [hsound.byteAt_later hsound₁ hp hq₁ hprocess₁ hlive,
      hsound.byteAt_later hsound' hp hq hprocess hlive, hbytes₁, hbytes]

/-- Whatever other threads do while a copy sleeps, and whatever callers pin before and during it, it
moves the bytes that single loads and stores would move, if no other thread of its process stores
meanwhile; and none of its steps has any other effect. -/
theorem CallerRun.copies_agree {c : Config} {extent : σ} (hintact : Extent.Reliable.Intact extent)
    (hboot : boot c extent = .ok (.ok k₀)) {trace : List (Event × Option (Response σ))}
    (hrun : CallerRun (fun _ => True) k₀ 0 trace callers k) (hs : k.session n = some ⟨i, .ready⟩)
    {u : UserProcess} (hu : k.process i = some u) (hlive : u.exited = false) :
    (∀ a count stages data callers' k',
      k.Answers (Spares i) n callers (.copyOut a count) stages (.copied data) callers' k' →
      k.CopiesOut callers n i u a count data k') ∧
    (∀ a data stages count callers' k',
      k.Answers (Spares i) n callers (.copyIn a data) stages (.stored count) callers' k' →
      k.CopiesIn callers n i u a data count k') ∧
    ∀ (P : Aloof σ) request k₁ stages callers' k₂ r k', request.isCopy = true →
      k.perform (.ask n request) = some (.ok (none, k₁)) →
      During P n k₁ callers stages callers' k₂ →
      k₂.perform (.advance n) = some (.ok (r, k')) → k₂.CopyStep n i request r callers' k' := by
  obtain ⟨m, -, hsound⟩ := hrun.simulated hintact hboot
  have horderly := hrun.orderly hboot
  obtain ⟨p, hp, rfl⟩ := hsound.toShows.flat_of_process hu
  refine ⟨fun a count stages data callers' k' h => ?_, fun a data stages count callers' k' h => ?_,
    ?_⟩
  · exact h.copiesOut horderly hsound hs hp hlive
  · exact h.copiesIn horderly hsound hs hp hlive
  · intro P request k₁ stages callers' k₂ r k' hcopy hask hduring hstep
    have hordinary : request.isOrdinary = true := by
      cases request <;> first | rfl | cases hcopy
    have haccess := Request.isAccess_of_isCopy hcopy
    obtain ⟨m₁, hsound₁, hpending₁, -, -⟩ := hsound.asked hordinary hs hp hask
    obtain ⟨m₂, hsound₂, hpending₂, -, -⟩ := hduring.pending hsound₁ haccess hpending₁
    obtain ⟨m', hflat, hsound', -⟩ := hsound₂.perform_run rfl hstep
    exact hsound₂.copyStep hsound' hpending₂ hcopy hflat

/-- An image with a read-only page between the first page and the stack. -/
def cutImage : Image :=
  ⟨[{ firstPage := 1, numPages := 1, readOnly := true, data := [7, 8] }], 2, by decide⟩

/-- A machine with two frames, so that with one of them pinned every other page of a copy pushes out
the one before it. -/
def cutConfig : Config :=
  { frames := 2, cacheSize := 1, pageSize := 2, swapSlots := 1, stackPages := 1 }

/-- A thread of the image has loaded a byte of its stack, and is ready for its next request. -/
def cutEvents : List Event :=
  [.spawn cutImage, .start 0, .advance 0, .advance 0] ++ turn 0 (.read 4) 4

/-- What a thread is answered that is alone with its request. -/
def answeredAlone (k : Kernel σ) (n : Nat) (request : Request) :
    Option (List Stage × Response σ × Kernel σ) :=
  k.answered (fun _ _ _ _ => false) n request (List.replicate 30 (.advance n))

omit [Extent.Reliable σ] in
theorem Answers.of_answeredAlone {P : Aloof σ} {request : Request} {stages : List Stage}
    {response : Response σ} (h : k.answeredAlone n request = some (stages, response, k')) :
    k.Answers P n callers request stages response callers k' :=
  Answers.of_answered (fun _ _ _ _ (hallowed : false = true) => Bool.noConfusion hallowed) h

/-- Whether the two copies are answered as they should be: one ends with the address space, and the
other before the read-only page. -/
def cutsCopies (k : Kernel MemoryExtent) : Bool :=
  match k.answeredAlone 0 (.copyOut 1 9), k.answeredAlone 0 (.copyIn 1 [5, 6]) with
  | some (_, .copied data, _), some (_, .stored count, _) =>
      decide (data = [0, 7, 8, 0, 0] ∧ count = 1 ∧ k.session 0 = some ⟨0, .ready⟩ ∧
        (k.process 0).map UserProcess.exited = some false)
  | _, _ => false

/-- The console has pinned the frame of the stack. A copy of nine bytes out of memory gives the five
that there are, and a copy of two bytes into memory stores the one before the read-only page. The
pin of the console is the only one that is left. -/
theorem copies_agree_cut : ∃ (k₀ k k' k₁ k₂ k₃ : Kernel MemoryExtent)
    (trace : List (Event × Option (Response MemoryExtent))) (stages₁ stages₂ : List Stage)
    (u : UserProcess),
    boot cutConfig (⟨.zeros 2⟩ : MemoryExtent) = .ok (.ok k₀) ∧
      k₀.performAll cutEvents = some (trace, k) ∧ k.CallerStep 0 {0} k' ∧
      CallerRun (fun _ => True) k₀ 0 trace {0} k' ∧
      k'.session 0 = some ⟨0, .ready⟩ ∧ k'.process 0 = some u ∧ u.exited = false ∧
      k'.Answers (Spares 0) 0 {0} (.copyOut 1 9) stages₁ (.copied [0, 7, 8, 0, 0]) {0} k₁ ∧
      k'.CopiesOut {0} 0 0 u 1 9 [0, 7, 8, 0, 0] k₁ ∧
      k'.Answers (Spares 0) 0 {0} (.copyIn 1 [5, 6]) stages₂ (.stored 1) {0} k₂ ∧
      k'.CopiesIn {0} 0 0 u 1 [5, 6] 1 k₂ ∧ k₂.byteAt 0 1 = some 5 ∧
      k₃.CopyStep 0 0 (.copyIn 1 [5, 6]) (some (.stored 1)) {0} k₂ ∧
      k₂.paging.frameTable.pins 0 = 1 := by
  have hlast : holdsAfter cutConfig cutEvents (holdsPinned 0 cutsCopies) = true := by
    decide +kernel
  obtain ⟨k₀, k, k', trace, hboot, hall, hcall, hrun, hcuts⟩ :=
    callerRun_of_holdsAfter (by decide) hlast
  rw [cutsCopies] at hcuts
  split at hcuts
  · rename_i stages₁ data k₁ stages₂ count k₂ hout hin
    obtain ⟨rfl, rfl, hs, hexited⟩ := of_decide_eq_true hcuts
    obtain ⟨u, hu, hlive⟩ := Option.map_eq_some_iff.1 hexited
    have hout : k'.Answers (Spares 0) 0 {0} (.copyOut 1 9) stages₁ (.copied [0, 7, 8, 0, 0]) {0}
        k₁ := .of_answeredAlone hout
    have hin : k'.Answers (Spares 0) 0 {0} (.copyIn 1 [5, 6]) stages₂ (.stored 1) {0} k₂ :=
      .of_answeredAlone hin
    obtain ⟨hcopiesOut, hcopiesIn, hsteps⟩ :=
      hrun.copies_agree (MemoryExtent.intact_zeros (by decide)) hboot hs hu hlive
    have hstored := hcopiesIn _ _ _ _ _ _ hin
    obtain ⟨k₃, hstep⟩ : ∃ k₃ : Kernel MemoryExtent,
        k₃.CopyStep 0 0 (.copyIn 1 [5, 6]) (some (.stored 1)) {0} k₂ := by
      cases hin with
      | intro hask hduring _ hanswer =>
          exact ⟨_, hsteps _ _ _ _ _ _ _ _ rfl hask hduring hanswer⟩
    have hpins : k₂.paging.frameTable.pins 0 = 1 := by
      rcases hstep.unpinned rfl 0 with hpins | ⟨hpins, -⟩
      · exact hpins
      · exact hpins
    exact ⟨k₀, k, k', k₁, k₂, k₃, trace, stages₁, stages₂, u, hboot, hall, hcall, hrun, hs, hu,
      hlive, hout, hcopiesOut _ _ _ _ _ _ hout, hin, hstored, hstored.memory_eq 1, hstep, hpins⟩
  · cases hcuts

end DemandPaging.Kernel
