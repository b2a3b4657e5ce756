import DemandPaging.Proofs.Kernel.Searches
import DemandPaging.Proofs.Paging.FailedEviction

/-!
# A failed eviction changes nothing that matters

A thread that misses a page in full memory pushes a victim out, at once or after it has waited for a
swap slot. If the page has to be saved and the write fails, the search for a frame ends with that
failure, and everything is as it was before the victim was picked (`CallerRun.eviction_undone`): the
frame table but for the pin that the thread had on the victim, where pages are, which ones are
dirty, what is in frames and slots, and the order of the free slots. It does not matter how the
machine got there, what other threads did while the thread slept, and who else pins frames.

As with the pins of callers, the exception is a frame that a thread waits with: whoever pins it
loses the pin when the page leaves, and takes off somebody else's instead. If that is the pin of a
later evictor, its victim cannot be let go, and the machine halts (`retry_unpinned`).
-/

namespace DemandPaging.Kernel

variable {σ : Type}

/-- The frame that a thread is about to push a page out of, if memory is full: the one that is
chosen now, or the one that the thread has waited with. -/
def Picks (k : Kernel σ) (n : Nat) (p : UserProcess) (counters : Counters) (victim : Nat) : Prop :=
  match k.session n with
  | some ⟨_, .busy ⟨_, .faulting (.missing _), _⟩⟩ =>
      ∃ s, Paging.chooseVictim p { k.paging with counters } = .ok (.ok victim, s)
  | some ⟨_, .busy ⟨_, .faulting (.resuming _ kept), _⟩⟩ => kept = victim
  | _ => False

/-- The pins that a thread has. -/
def pinsOf (k : Kernel σ) (n : Nat) : Multiset Nat := (k.session n).elim 0 fun s => s.phase.pins

section Search

variable {E : Extent σ} [Extent σ] [Extent.Reliable σ] {k : Kernel σ} {m : FlatMachine}
  {callers : Multiset Nat} {n page : Nat} {p : UserProcess}
  {search : PagingM σ Paging.FrameSearch} {counters : Counters}

namespace Sound

/-- The search fails with the write, and leaves everything as it was. -/
theorem search_fails (h : k.Sound m callers) (hkept : Extent.KeepsBytes E)
    (hsearch : @Searches σ E k n p page search) {victim : Nat} {id : PageId} {cause : IoError}
    (hpicks : k.Picks n p counters victim)
    (hfails : @Paging.FailsToSave σ E { k.paging with counters } (some p.pid) victim id cause) :
    ∃ s', search { k.paging with counters } = .ok (.error (.swapIo cause), s') ∧
      Paging.Undone (some p.pid) (k.pinsOf n) victim id { k.paging with counters } s' ∧
      Extent.Reliable.content s'.swap.extent =
        Extent.Reliable.content k.paging.swap.extent := by
  rw [Picks] at hpicks
  rw [pinsOf]
  cases hsearch with
  | @missing place address call e hs hp hstage he hvalid =>
      have hcalling := h.calling hs hp
      obtain ⟨request, stage, moved⟩ := call
      obtain rfl : stage = .faulting (.missing address) := hstage
      have hpaging := (hcalling.paging_bare rfl rfl rfl).reset k.paging.policy k.paging.rng counters
      obtain ⟨u, hu, -⟩ := hpaging.inverse.live_of_find? he
      rw [hs] at hpicks ⊢
      obtain ⟨s, hchoose⟩ := hpicks
      exact hpaging.findFrame_failed hkept rfl hu hchoose hfails
  | @resuming place _ kept call hs hp hstage =>
      have hcalling := h.calling hs hp
      obtain ⟨request, stage, moved⟩ := call
      obtain rfl : stage = .faulting (.resuming page kept) := hstage
      have hpaging := (hcalling.paging_apart rfl rfl).reset k.paging.policy k.paging.rng counters
      rw [hs] at hpicks ⊢
      obtain rfl : kept = victim := hpicks
      exact hpaging.resumeSearch_failed hkept (hcalling.victim_notMem rfl) p hfails

/-- The search fails with the extent in no other way. -/
theorem search_works (h : k.Sound m callers) (hcovers : Extent.Covers E ‹Extent σ›)
    (hsearch : @Searches σ E k n p page search)
    (hworks : ∀ victim id cause, k.Picks n p counters victim →
      ¬ @Paging.FailsToSave σ E { k.paging with counters } (some p.pid) victim id cause)
    (cause : IoError) (s' : Paging σ) :
    search { k.paging with counters } ≠ .ok (.error (.swapIo cause), s') := by
  simp only [Picks] at hworks
  cases hsearch with
  | @missing place address call e hs hp hstage he hvalid =>
      have hcalling := h.calling hs hp
      obtain ⟨request, stage, moved⟩ := call
      obtain rfl : stage = .faulting (.missing address) := hstage
      have hpaging := (hcalling.paging_bare rfl rfl rfl).reset k.paging.policy k.paging.rng counters
      obtain ⟨u, hu, -⟩ := hpaging.inverse.live_of_find? he
      rw [hs] at hworks
      exact hpaging.findFrame_works hcovers rfl hu
        (fun victim s id cause hchoose => hworks victim id cause ⟨s, hchoose⟩) cause s'
  | @resuming place _ kept call hs hp hstage =>
      have hcalling := h.calling hs hp
      obtain ⟨request, stage, moved⟩ := call
      obtain rfl : stage = .faulting (.resuming page kept) := hstage
      have hpaging := (hcalling.paging_apart rfl rfl).reset k.paging.policy k.paging.rng counters
      rw [hs] at hworks
      exact hpaging.resumeSearch_works hcovers (hcalling.victim_notMem rfl) rfl
        (fun id cause => hworks kept id cause rfl) cause s'

end Sound

end Search

/-- A search for a frame fails with the swap extent exactly if the page in the frame that it picks
has to be saved and the write fails, at the first try or at a retry. Then nothing that matters has
changed: the victim is in its frame and no longer pinned by the thread, and the audit finds nothing
wrong. -/
theorem CallerRun.eviction_undone [Extent σ] [Extent.FailSafe σ] [Extent.Rewritable σ] {c : Config}
    {extent : σ} (hintact : Extent.FailSafe.Intact extent) {k₀ k : Kernel σ}
    (hboot : boot c extent = .ok (.ok k₀)) {trace : List (Event × Option (Response σ))}
    {callers : Multiset Nat} (hrun : CallerRun (fun _ => True) k₀ 0 trace callers k) {n page : Nat}
    {p : UserProcess} {search : PagingM σ Paging.FrameSearch} (hsearch : k.Searches n p page search)
    (counters : Counters) :
    (∀ victim id cause, k.Picks n p counters victim →
      { k.paging with counters }.FailsToSave (some p.pid) victim id cause →
      ∃ s', search { k.paging with counters } = .ok (.error (.swapIo cause), s')) ∧
    ∀ cause s', search { k.paging with counters } = .ok (.error (.swapIo cause), s') →
      ∃ victim id, k.Picks n p counters victim ∧
        { k.paging with counters }.FailsToSave (some p.pid) victim id cause ∧
        Paging.Undone (some p.pid) (k.pinsOf n) victim id { k.paging with counters } s' ∧
        Extent.FailSafe.content s'.swap.extent = Extent.FailSafe.content k.paging.swap.extent := by
  -- so far no call has failed, so the run is one on the mended extent, too
  have hcovers := Extent.mended_covers σ
  have hboot' := (boot_covered hcovers c extent).trans hboot
  have hstart := @boot_sound σ (Extent.mended σ) (Extent.mendedReliable σ) _ _ _ hintact hboot'
  obtain ⟨m, hsound⟩ := @CallerRun.sound σ (Extent.mended σ) _ _ _ _ _ _ (Extent.mendedReliable σ)
    (hrun.covered hcovers) ⟨_, hstart⟩
  have hfailing := fun {victim : Nat} {id : PageId} {cause : IoError} =>
    @Sound.search_fails σ ‹Extent σ› (Extent.mended σ) (Extent.mendedReliable σ) k m callers n page
      p search counters hsound (Extent.mended_keepsBytes σ) hsearch victim id cause
  refine ⟨fun victim id cause hpicks hfails => ?_, fun cause s' hsearched => ?_⟩
  · obtain ⟨s', hsearched, -⟩ := hfailing hpicks hfails
    exact ⟨s', hsearched⟩
  · obtain ⟨victim, id, cause', hpicks, hfails⟩ : ∃ victim id cause', k.Picks n p counters victim ∧
        { k.paging with counters }.FailsToSave (some p.pid) victim id cause' := by
      -- otherwise the search would do what it does on the mended extent, and not fail
      by_contra hworks
      push Not at hworks
      exact @Sound.search_works σ ‹Extent σ› (Extent.mended σ) (Extent.mendedReliable σ) k m callers
        n page p search counters hsound hcovers hsearch hworks cause s' hsearched
    obtain ⟨s'', hsearched', hundone, hcontent⟩ := hfailing hpicks hfails
    obtain ⟨hcause, rfl⟩ := Prod.mk.inj (Except.ok.inj (hsearched.symm.trans hsearched'))
    obtain rfl := PagingError.swapIo.inj (Except.error.inj hcause)
    exact ⟨victim, id, hpicks, hfails, hundone, hcontent⟩

/-! ## A device that fails one write -/

/-- An extent for one page that fails the writes on a list. -/
def flaky (failingWrites : List Nat) : UnreliableExtent MemoryExtent :=
  { inner := ⟨.zeros 1⟩, failingReads := [], failingWrites, failsRemoval := false }

/-- Whether the page in a frame has to be saved, and the write to the first free slot fails. -/
def saveFails (k : Kernel (UnreliableExtent MemoryExtent)) (victim : Nat) (id : PageId) : Bool :=
  match k.paging.tables.find? id, k.paging.swap.free, k.paging.processor.memory[victim]? with
  | some e, slot :: _, some bytes =>
      decide (e.dirty = true ∧ k.paging.frameTable.free = [] ∧
        k.paging.frameTable.owner victim = some id) &&
        match Extent.write k.paging.swap.extent (slot * k.paging.swap.pageSize) bytes with
        | (.error (.device "write failed"), _) => true
        | _ => false
  | _, _, _ => false

theorem failsToSave_of_saveFails {k : Kernel (UnreliableExtent MemoryExtent)} {victim : Nat}
    {id : PageId} (h : k.saveFails victim id = true) (running : Option Pid) :
    k.paging.FailsToSave running victim id (.device "write failed") := by
  rw [saveFails] at h
  split at h
  · rename_i e slot rest bytes he hfree hmem
    rw [Bool.and_eq_true, decide_eq_true_iff] at h
    obtain ⟨⟨hdirty, hfull, howner⟩, hwrite⟩ := h
    split at hwrite
    · rename_i extent hfails
      exact ⟨hfull, howner, .inl ⟨e, he, hdirty⟩, slot, rest, bytes, extent, hfree, hmem, hfails⟩
    · cases hwrite
  · cases h

/-- Whether the first thread misses its first page, and the clock is at the first frame, whose page
has to be saved. The slot is free, but the write to it fails. -/
def tryFails (k : Kernel (UnreliableExtent MemoryExtent)) : Bool :=
  match k.session 0, k.process 0 with
  | some ⟨0, .busy ⟨_, .faulting (.missing 0), _⟩⟩, some p =>
      match k.paging.tables.find? ⟨p.pid, Address.page k.config.pageSize 0⟩,
          Paging.chooseVictim p k.paging with
      | some e, .ok (.ok 0, _) => !e.valid && k.saveFails 0 ⟨1, 1⟩
      | _, _ => false
  | _, _ => false

theorem of_tryFails {k : Kernel (UnreliableExtent MemoryExtent)} (h : tryFails k = true) :
    ∃ p, k.Searches 0 p (Address.page k.config.pageSize 0) (Paging.findFrame p) ∧
      k.pinsOf 0 = 0 ∧ (∀ victim, k.Picks 0 p k.paging.counters victim ↔ victim = 0) ∧
      k.paging.FailsToSave (some p.pid) 0 ⟨1, 1⟩ (.device "write failed") := by
  rw [tryFails] at h
  split at h
  · rename_i request moved p hs hp
    split at h
    · rename_i e s he hchoose
      rw [Bool.and_eq_true, Bool.not_eq_true'] at h
      refine ⟨p, .missing hs hp rfl he h.1, ?_, fun victim => ?_, failsToSave_of_saveFails h.2 _⟩
      · rw [pinsOf, hs]
        rfl
      · rw [Picks, hs]
        constructor
        · rintro ⟨s', hchoose'⟩
          obtain ⟨heq, -⟩ := Prod.mk.inj (Except.ok.inj (hchoose'.symm.trans hchoose))
          exact Except.ok.inj heq
        · rintro rfl
          exact ⟨s, hchoose⟩
    · cases h
  · cases h

/-- Whether the first thread searches a frame for its fourth page and has waited with the second
frame, whose page has to be saved. The slot is free, but the write to it fails. -/
def retryFails (k : Kernel (UnreliableExtent MemoryExtent)) : Bool :=
  match k.session 0, k.process 0 with
  | some ⟨0, .busy ⟨_, .faulting (.resuming 3 1), _⟩⟩, some _ => k.saveFails 1 ⟨1, 2⟩
  | _, _ => false

theorem of_retryFails {k : Kernel (UnreliableExtent MemoryExtent)} (h : retryFails k = true) :
    ∃ p, k.process 0 = some p ∧ k.Searches 0 p 3 (Paging.resumeSearch p 1) ∧
      k.pinsOf 0 = {1} ∧ (∀ victim, k.Picks 0 p k.paging.counters victim ↔ victim = 1) ∧
      k.paging.FailsToSave (some p.pid) 1 ⟨1, 2⟩ (.device "write failed") := by
  rw [retryFails] at h
  split at h
  · rename_i request moved p hs hp
    refine ⟨p, hp, .resuming hs hp rfl, ?_, fun victim => ?_, failsToSave_of_saveFails h _⟩
    · rw [pinsOf, hs]
      rfl
    · rw [Picks, hs]
      exact eq_comm
  · cases h

/-- A thread stores into two pages, so that memory is full, and misses a third one. -/
def triedEvents : List Event :=
  [.spawn smallImage, .start 0, .advance 0, .advance 0] ++ turn 0 (.write 1 5) 4 ++
    turn 0 (.write 2 5) 4 ++ turn 0 (.read 0) 2

/-- The machine is full, and the second thread loads the page in the slot and leaves. The first one
is woken, and is about to push out its victim. -/
def retriedEvents : List Event :=
  fullEvents ++ List.replicate 2 (.advance 1) ++ turn 1 (.read 1) 8 ++ turn 1 .leave 3 ++
    List.replicate 6 (.advance 0)

/-- The first try fails with the write of the page that is picked, and so does the retry with the
write of the page that was picked before the sleep. Nothing has come of either. -/
theorem eviction_undone_flaky :
    (∃ (k₀ k : Kernel (UnreliableExtent MemoryExtent))
      (trace : List (Event × Option (Response (UnreliableExtent MemoryExtent)))) (p : UserProcess)
      (s' : Paging (UnreliableExtent MemoryExtent)),
      boot pairConfig (flaky [0]) = .ok (.ok k₀) ∧ k₀.performAll triedEvents = some (trace, k) ∧
        k.Searches 0 p (Address.page k.config.pageSize 0) (Paging.findFrame p) ∧
        k.Picks 0 p k.paging.counters 0 ∧
        k.paging.FailsToSave (some p.pid) 0 ⟨1, 1⟩ (.device "write failed") ∧
        Paging.findFrame p k.paging = .ok (.error (.swapIo (.device "write failed")), s') ∧
        Paging.Undone (some p.pid) 0 0 ⟨1, 1⟩ k.paging s') ∧
    ∃ (k₀ k : Kernel (UnreliableExtent MemoryExtent))
      (trace : List (Event × Option (Response (UnreliableExtent MemoryExtent)))) (p : UserProcess)
      (s' : Paging (UnreliableExtent MemoryExtent)),
      boot pairConfig (flaky [1]) = .ok (.ok k₀) ∧ k₀.performAll retriedEvents = some (trace, k) ∧
        k.Searches 0 p 3 (Paging.resumeSearch p 1) ∧ k.Picks 0 p k.paging.counters 1 ∧
        k.paging.FailsToSave (some p.pid) 1 ⟨1, 2⟩ (.device "write failed") ∧
        Paging.resumeSearch p 1 k.paging =
          .ok (.error (.swapIo (.device "write failed")), s') ∧
        Paging.Undone (some p.pid) {1} 1 ⟨1, 2⟩ k.paging s' := by
  -- in both cases the search fails with the victim that is picked, and is undone
  have hundone : ∀ {writes : List Nat} {events : List Event}
      {k₀ k : Kernel (UnreliableExtent MemoryExtent)}
      {trace : List (Event × Option (Response (UnreliableExtent MemoryExtent)))} {p : UserProcess}
      {page victim : Nat} {search : PagingM (UnreliableExtent MemoryExtent) Paging.FrameSearch}
      {id : PageId} {cause : IoError}, boot pairConfig (flaky writes) = .ok (.ok k₀) →
      (∀ e ∈ events, e.isOrdinary = true) → k₀.performAll events = some (trace, k) →
      k.Searches 0 p page search → (∀ v, k.Picks 0 p k.paging.counters v ↔ v = victim) →
      k.paging.FailsToSave (some p.pid) victim id cause →
      ∃ s', search k.paging = .ok (.error (.swapIo cause), s') ∧
        Paging.Undone (some p.pid) (k.pinsOf 0) victim id k.paging s' := by
    intro writes events k₀ k trace p page victim search id cause hboot he hall hsearch hpicks hfails
    have hintact : Extent.FailSafe.Intact (flaky writes) := MemoryExtent.intact_zeros (by decide)
    obtain ⟨hsearched, hundone⟩ := (Run.of_performAll he hall).uncalled.eviction_undone hintact
      hboot hsearch k.paging.counters
    obtain ⟨s', hs'⟩ := hsearched victim id cause ((hpicks victim).2 rfl) hfails
    obtain ⟨victim', id', hpicked, hfailed, hleft, -⟩ := hundone cause s' hs'
    obtain rfl := (hpicks victim').1 hpicked
    obtain rfl := Option.some.inj (hfails.owner_eq.symm.trans hfailed.owner_eq)
    exact ⟨s', hs', hleft⟩
  constructor
  · have hlast : holdsOn pairConfig (flaky [0]) triedEvents tryFails = true := by decide +kernel
    obtain ⟨k₀, k, trace, hboot, hall, hk⟩ := exists_of_holdsOn hlast
    obtain ⟨p, hsearch, hpins, hpicks, hfails⟩ := of_tryFails hk
    obtain ⟨s', hs', hleft⟩ := hundone hboot (by decide) hall hsearch hpicks hfails
    rw [hpins] at hleft
    exact ⟨k₀, k, trace, p, s', hboot, hall, hsearch, (hpicks 0).2 rfl, hfails, hs', hleft⟩
  · have hlast : holdsOn pairConfig (flaky [1]) retriedEvents retryFails = true := by
      decide +kernel
    obtain ⟨k₀, k, trace, hboot, hall, hk⟩ := exists_of_holdsOn hlast
    obtain ⟨p, -, hsearch, hpins, hpicks, hfails⟩ := of_retryFails hk
    obtain ⟨s', hs', hleft⟩ := hundone hboot (by decide) hall hsearch hpicks hfails
    rw [hpins] at hleft
    exact ⟨k₀, k, trace, p, s', hboot, hall, hsearch, (hpicks 1).2 rfl, hfails, hs', hleft⟩

/-- The machine is full, and the victim of the first thread is pinned. It is pushed out all the
same, and the pin is dropped. Once the first thread has its page, it comes to wait with the second
frame again. Then the pin that was dropped is taken off. -/
def unevenEvents : List Event :=
  fullEvents ++ [.pin 1] ++ retryEvents ++ turn 0 (.read 2) 5 ++ turn 0 (.read 0) 4 ++
    turn 0 (.read 3) 8 ++ [.unpin 1] ++ [.start 0] ++ List.replicate 2 (.advance 2) ++
    turn 2 (.read 1) 8 ++ turn 2 .leave 3 ++ List.replicate 6 (.advance 0)

/-- Whether a retry whose write fails ends for lack of the thread's own pin. -/
def retryUnpins (k : Kernel (UnreliableExtent MemoryExtent)) : Bool :=
  retryFails k &&
    match (k.process 0).map fun p => Paging.resumeSearch p 1 k.paging with
    | some (.error (.notPinned 1)) => true
    | _ => false

/-- If a victim that a thread waits with is pinned and unpinned, a thread that waits with the frame
later on has lost its own pin: its retry halts the machine instead of failing. -/
theorem retry_unpinned :
    ∃ (k₀ k : Kernel (UnreliableExtent MemoryExtent))
      (trace : List (Event × Option (Response (UnreliableExtent MemoryExtent)))) (p : UserProcess),
      boot pairConfig (flaky [3]) = .ok (.ok k₀) ∧ k₀.performAll unevenEvents = some (trace, k) ∧
        k.Searches 0 p 3 (Paging.resumeSearch p 1) ∧ k.Picks 0 p k.paging.counters 1 ∧
        k.paging.FailsToSave (some p.pid) 1 ⟨1, 2⟩ (.device "write failed") ∧
        Paging.resumeSearch p 1 k.paging = .error (.notPinned 1) := by
  have hlast : holdsOn pairConfig (flaky [3]) unevenEvents retryUnpins = true := by decide +kernel
  obtain ⟨k₀, k, trace, hboot, hall, hk⟩ := exists_of_holdsOn hlast
  rw [retryUnpins, Bool.and_eq_true] at hk
  obtain ⟨hretry, hunpins⟩ := hk
  obtain ⟨p, hp, hsearch, -, hpicks, hfails⟩ := of_retryFails hretry
  split at hunpins
  · rename_i hsearched
    rw [hp] at hsearched
    exact ⟨k₀, k, trace, p, hboot, hall, hsearch, (hpicks 1).2 rfl, hfails,
      Option.some.inj hsearched⟩
  · cases hunpins

end DemandPaging.Kernel
