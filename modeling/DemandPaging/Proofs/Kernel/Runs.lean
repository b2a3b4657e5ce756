import DemandPaging.Proofs.Kernel.Simulation

/-!
# Runs

A run is a sequence of events that programs bring about, in any order that is possible, up to the
first one that halts the machine. A kernel that has just been booted agrees with the flat machine
without processes, so after every run it agrees with what the flat machine can do (`Run.simulated`).
-/

namespace DemandPaging.Kernel

variable {σ : Type} [Extent σ]

/-- A run: events that programs bring about, one after the other, with their answers, and the kernel
after them. None of them halts the machine. -/
inductive Run (k₀ : Kernel σ) : List (Event × Option (Response σ)) → Kernel σ → Prop where
  | nil : Run k₀ [] k₀
  | step {trace : List (Event × Option (Response σ))} {k k' : Kernel σ} {e : Event}
      {r : Option (Response σ)} (h : Run k₀ trace k) (he : e.isOrdinary = true)
      (hrun : k.perform e = some (.ok (r, k'))) : Run k₀ (trace ++ [(e, r)]) k'

/-- The events of a list one after the other, if each is possible, none halts the machine, and every
step passes a check: the answers, and the kernel after them. -/
def performPassing (check : Kernel σ → Event → Kernel σ → Bool) (k : Kernel σ) :
    List Event → Option (List (Event × Option (Response σ)) × Kernel σ)
  | [] => some ([], k)
  | e :: rest =>
      match k.perform e with
      | some (.ok (r, k')) =>
          if check k e k' then
            (performPassing check k' rest).map fun (trace, k) => ((e, r) :: trace, k)
          else none
      | _ => none

/-- The events of a list one after the other, if each is possible and none halts the machine. -/
def performAll (k : Kernel σ) (events : List Event) :
    Option (List (Event × Option (Response σ)) × Kernel σ) :=
  k.performPassing (fun _ _ _ => true) events

theorem performAll_cons (k : Kernel σ) (e : Event) (rest : List Event) :
    k.performAll (e :: rest) =
      match k.perform e with
      | some (.ok (r, k)) => (k.performAll rest).map fun (trace, k) => ((e, r) :: trace, k)
      | _ => none := rfl

/-- If all events of a list can be performed in steps that pass a check, so can the first one, and
then the others. -/
theorem exists_of_performPassing_cons {check : Kernel σ → Event → Kernel σ → Bool}
    {k k' : Kernel σ} {e : Event} {rest : List Event} {trace : List (Event × Option (Response σ))}
    (h : k.performPassing check (e :: rest) = some (trace, k')) :
    ∃ r k₁ trace₁, k.perform e = some (.ok (r, k₁)) ∧ check k e k₁ = true ∧
      k₁.performPassing check rest = some (trace₁, k') ∧ trace = (e, r) :: trace₁ := by
  rw [performPassing] at h
  split at h
  · rename_i r k₁ hperform
    split at h
    · rename_i hcheck
      obtain ⟨⟨trace₁, k₂⟩, hrest, heq⟩ := Option.map_eq_some_iff.1 h
      obtain ⟨rfl, rfl⟩ := Prod.mk.inj heq
      exact ⟨r, k₁, trace₁, hperform, hcheck, hrest, rfl⟩
    · cases h
  · cases h

/-- If all events of a list can be performed, so can the first one, and then the others. -/
theorem exists_of_performAll_cons {k k' : Kernel σ} {e : Event} {rest : List Event}
    {trace : List (Event × Option (Response σ))} (h : k.performAll (e :: rest) = some (trace, k')) :
    ∃ r k₁ trace₁, k.perform e = some (.ok (r, k₁)) ∧ k₁.performAll rest = some (trace₁, k') ∧
      trace = (e, r) :: trace₁ := by
  obtain ⟨r, k₁, trace₁, hperform, -, hrest, htrace⟩ := exists_of_performPassing_cons h
  exact ⟨r, k₁, trace₁, hperform, hrest, htrace⟩

/-- Whether the steps are checked makes no difference to what happens in them. -/
theorem performAll_of_passing {check : Kernel σ → Event → Kernel σ → Bool} {k : Kernel σ}
    {events : List Event} {result : List (Event × Option (Response σ)) × Kernel σ}
    (h : k.performPassing check events = some result) : k.performAll events = some result := by
  induction events generalizing k result with
  | nil => exact h
  | cons e rest ih =>
      obtain ⟨trace, k'⟩ := result
      obtain ⟨r, k₁, trace₁, hperform, -, hrest, rfl⟩ := exists_of_performPassing_cons h
      rw [performAll_cons, hperform]
      show (k₁.performAll rest).map _ = _
      rw [ih hrest]
      rfl

theorem Run.append {k₀ k k' : Kernel σ} {done trace : List (Event × Option (Response σ))}
    {events : List Event} (h : Run k₀ done k) (he : ∀ e ∈ events, e.isOrdinary = true)
    (hrun : k.performAll events = some (trace, k')) : Run k₀ (done ++ trace) k' := by
  induction events generalizing k done trace with
  | nil =>
      obtain ⟨rfl, rfl⟩ := Prod.mk.inj (Option.some.inj hrun)
      rw [List.append_nil]
      exact h
  | cons e rest ih =>
      obtain ⟨r, k₁, trace₁, hperform, hrest, rfl⟩ := exists_of_performAll_cons hrun
      have hstep := h.step (he e List.mem_cons_self) hperform
      have hall := ih hstep (fun e he' => he e (List.mem_cons_of_mem _ he')) hrest
      rw [List.append_assoc] at hall
      exact hall

/-- A run goes on from where another one has ended. -/
theorem Run.trans {k₀ k k' : Kernel σ} {done trace : List (Event × Option (Response σ))}
    (h : Run k₀ done k) (h' : Run k trace k') : Run k₀ (done ++ trace) k' := by
  induction h' with
  | nil => rwa [List.append_nil]
  | step _ he hrun ih =>
      rw [← List.append_assoc]
      exact ih.step he hrun

/-- What happens when a list of events is performed is a run. -/
theorem Run.of_performAll {k k' : Kernel σ} {trace : List (Event × Option (Response σ))}
    {events : List Event} (he : ∀ e ∈ events, e.isOrdinary = true)
    (hrun : k.performAll events = some (trace, k')) : Run k trace k' :=
  Run.nil.append he hrun

variable [Extent.Reliable σ] {k : Kernel σ}

omit [Extent σ] [Extent.Reliable σ] in
/-- Without sessions every thread is away from the processor. -/
theorem cpuUse_of_sessions_nil (h : k.sessions = []) : k.cpuUse = fun _ => .away := by
  funext t
  cases t with
  | zero => rfl
  | succ n => rw [cpuUse, h]; rfl

omit [Extent.Reliable σ] in
/-- The parts of a machine with nothing in them: memory of zeros, an empty cache, and fresh
tables. -/
theorem exists_of_freshPaging {c : Config} {extent : σ} {s : Paging σ}
    (h : freshPaging c extent = .ok s) :
    ∃ frameTable swap, FrameTable.create c.frames = .ok frameTable ∧
      SwapArea.create extent c.pageSize = .ok swap ∧
        s = { processor := { pageSize := c.pageSize
                             memory := Array.replicate c.frames (List.replicate c.pageSize 0)
                             cache := List.replicate c.cacheSize Mapping.empty
                             badAddress := 0 }
              frameTable
              policy := policyOf c
              swap
              rng := Random.ofSeed (c.seed.rotateLeft 32) } := by
  obtain ⟨processor, hprocessor, h⟩ := ok_of_bind h
  obtain ⟨frameTable, hframes, h⟩ := ok_of_bind h
  obtain ⟨swap, hswap, h⟩ := ok_of_bind h
  obtain rfl := Except.ok.inj h
  obtain ⟨-, -, hprocessor⟩ := ok_of_bind hprocessor
  obtain ⟨-, -, hprocessor⟩ := ok_of_bind hprocessor
  obtain rfl := Except.ok.inj hprocessor
  exact ⟨frameTable, swap, hframes, hswap, rfl⟩

omit [Extent.Reliable σ] in
theorem freshPaging_pageSize {c : Config} {extent : σ} {s : Paging σ}
    (h : freshPaging c extent = .ok s) : s.processor.pageSize = c.pageSize := by
  obtain ⟨frameTable, swap, -, -, rfl⟩ := exists_of_freshPaging h
  rfl

/-- The processor and the tables of a configuration, with no process alive. -/
theorem freshPaging_sound {c : Config} (hvalid : c.validate = .ok ()) {extent : σ}
    (hintact : Extent.Reliable.Intact extent) {s : Paging σ}
    (h : freshPaging c extent = .ok s) (mem : PageId → List UInt8) :
    s.Sound (fun _ => none) none 0 mem := by
  have hconfig := Config.sound_of_validate hvalid
  obtain ⟨frameTable, swap, hframes, hswap, rfl⟩ := exists_of_freshPaging h
  obtain ⟨hframes, hsize, howner⟩ := FrameTable.create_sound hframes
  obtain ⟨hswap, hpageSize, hlookup⟩ := SwapArea.create_sound hintact hswap
  -- frames of zeros, an empty cache, and a swap area without pages
  have hframe : ∀ (f : Nat) (bytes : List UInt8),
      (Array.replicate c.frames (List.replicate c.pageSize (0 : UInt8)))[f]? = some bytes →
      bytes.length = c.pageSize := by
    intro f bytes hf
    rw [Array.getElem?_replicate] at hf
    split at hf
    · obtain rfl := Option.some.inj hf
      exact List.length_replicate
    · cases hf
  have hempty : ∀ e ∈ List.replicate c.cacheSize Mapping.empty, e.valid = false := by
    intro e he
    rw [(List.mem_replicate.1 he).2]
    exact Mapping.valid_empty
  have hsaved : ∀ id, swap.saved? id = none := fun id =>
    SwapArea.saved?_eq_none_iff.2 (hlookup id)
  refine ⟨⟨?_, hframe, ?_, ?_, ?_, ?_, hpageSize⟩, hframes, hswap, .fresh howner, .of_empty hempty,
    .fresh _ hsaved mem⟩
  · exact Nat.pos_of_isPowerOfTwo hconfig.pageSize_pow
  · exact Array.size_replicate.trans hsize.symm
  · exact hconfig.frames_pos.trans_eq Array.size_replicate.symm
  · exact (Array.size_replicate : (Array.replicate _ _).size = _).trans_le hconfig.frames_le
  · show 0 < (List.replicate _ _).length
    rw [List.length_replicate]
    exact hconfig.cacheSize_pos

omit [Extent.Reliable σ] in
/-- What is booted: a valid configuration, with fresh processor and tables, and nothing else. -/
theorem exists_of_boot {c : Config} {extent : σ} (hboot : boot c extent = .ok (.ok k)) :
    c.validate = .ok () ∧
      ∃ paging, freshPaging c extent = .ok paging ∧ k = { config := c, paging } := by
  rw [boot] at hboot
  split at hboot
  · cases hboot
  · rename_i hvalid
    split at hboot
    · cases hboot
    · obtain ⟨paging, hfresh, hk⟩ := ok_of_map hboot
      exact ⟨hvalid, paging, hfresh, (Except.ok.inj hk).symm⟩

/-- A kernel that has just been booted agrees with the flat machine without processes. -/
theorem boot_sound {c : Config} {extent : σ} (hintact : Extent.Reliable.Intact extent)
    (hboot : boot c extent = .ok (.ok k)) : k.Sound { config := c } := by
  obtain ⟨hvalid, paging, hfresh, rfl⟩ := exists_of_boot hboot
  have hsound := freshPaging_sound hvalid hintact hfresh (FlatMachine.page { config := c })
  refine ⟨⟨rfl, rfl, rfl, ?_⟩, freshPaging_pageSize hfresh, ?_, ?_, ?_, rfl, ?_, ?_,
    ⟨Multiset.nodup_zero, nofun⟩, none, ?_, hsound⟩
  · exact fun i p hp => nomatch hp
  · rfl
  · exact Nat.two_pow_pos 16
  · exact fun i p hp => nomatch hp
  · rw [cpuUse_of_sessions_nil rfl]
    exact .fresh
  · exact fun n s hs => nomatch hs
  · exact fun n s hs => nomatch hs

/-- After every run the kernel agrees with what the flat machine can do. -/
theorem Run.simulated {c : Config} {extent : σ} (hintact : Extent.Reliable.Intact extent)
    {k₀ : Kernel σ} (hboot : boot c extent = .ok (.ok k₀))
    {trace : List (Event × Option (Response σ))} (h : Run k₀ trace k) :
    ∃ m, FlatMachine.Run c trace m ∧ k.Sound m := by
  induction h with
  | nil => exact ⟨_, .nil, boot_sound hintact hboot⟩
  | step _ he hrun ih =>
      obtain ⟨m, hm, hsound⟩ := ih
      obtain ⟨m', hstep, hsound', -⟩ := hsound.perform_run he hrun
      exact ⟨m', hm.step hstep, hsound'⟩

/-! ## Small machines -/

/-- Whether a machine can be booted on an extent, and something holds of the kernel then. -/
def bootsTo (c : Config) (extent : σ) (P : Kernel σ → Bool) : Bool :=
  match boot c extent with
  | .ok (.ok k) => P k
  | _ => false

omit [Extent.Reliable σ] in
theorem exists_of_bootsTo {c : Config} {extent : σ} {P : Kernel σ → Bool}
    (h : bootsTo c extent P = true) : ∃ k, boot c extent = .ok (.ok k) ∧ P k = true := by
  rw [bootsTo] at h
  split at h
  · rename_i k hboot
    exact ⟨k, hboot, h⟩
  · cases h

/-- Whether a machine can be booted on an extent, the events of a list can happen there one after
the other, and something holds of the kernel after them. -/
def holdsOn (c : Config) (extent : σ) (events : List Event) (P : Kernel σ → Bool) : Bool :=
  bootsTo c extent fun k => (k.performAll events).any fun result => P result.2

omit [Extent.Reliable σ] in
/-- What is found to hold after a list of events holds when they have been performed. -/
theorem exists_of_holdsOn {c : Config} {extent : σ} {events : List Event} {P : Kernel σ → Bool}
    (h : holdsOn c extent events P = true) :
    ∃ (k₀ k : Kernel σ) (trace : List (Event × Option (Response σ))),
      boot c extent = .ok (.ok k₀) ∧ k₀.performAll events = some (trace, k) ∧ P k = true := by
  obtain ⟨k₀, hboot, hall⟩ := exists_of_bootsTo h
  obtain ⟨⟨trace, k⟩, hall, hP⟩ := (Option.any_eq_true ..).1 hall
  exact ⟨k₀, k, trace, hboot, hall, hP⟩

/-- The same on an extent of zeros, of the length that the machine needs. -/
def holdsAfter (c : Config) (events : List Event) (P : Kernel MemoryExtent → Bool) : Bool :=
  holdsOn c (⟨.zeros c.swapLength⟩ : MemoryExtent) events P

/-- What is found to hold after a list of events holds after a run. -/
theorem run_of_holdsAfter {c : Config} {events : List Event} {P : Kernel MemoryExtent → Bool}
    (he : ∀ e ∈ events, e.isOrdinary = true) (h : holdsAfter c events P = true) :
    ∃ (k₀ k : Kernel MemoryExtent) (trace : List (Event × Option (Response MemoryExtent))),
      boot c (⟨.zeros c.swapLength⟩ : MemoryExtent) = .ok (.ok k₀) ∧
        k₀.performAll events = some (trace, k) ∧ Run k₀ trace k ∧ P k = true := by
  obtain ⟨k₀, k, trace, hboot, hall, hP⟩ := exists_of_holdsOn h
  exact ⟨k₀, k, trace, hboot, hall, .of_performAll he hall, hP⟩

/-- A thread is given a request, and takes so many steps. -/
def turn (n : Nat) (request : Request) (steps : Nat) : List Event :=
  .ask n request :: List.replicate steps (.advance n)

/-- A machine with one frame and one cache entry, so that every page pushes the other one out. -/
def smallConfig : Config :=
  { frames := 1, cacheSize := 1, pageSize := 1, swapSlots := 1, stackPages := 2 }

/-- An image with a read-only page of one byte. -/
def smallImage : Image :=
  ⟨[{ firstPage := 0, numPages := 1, readOnly := true, data := [7] }], 1, by decide⟩

/-- A thread stores a byte into its stack and loads the byte of the image, so that the stack goes to
swap. -/
def savedEvents : List Event :=
  [.spawn smallImage, .start 0, .advance 0, .advance 0] ++ turn 0 (.write 1 5) 4 ++
    turn 0 (.read 0) 4

/-- Then it loads what it stored. -/
def smallEvents : List Event := savedEvents ++ turn 0 (.read 1) 5

/-- The small machine can be booted, and its events can happen. -/
theorem small_run : ∃ (k₀ k : Kernel MemoryExtent)
    (trace : List (Event × Option (Response MemoryExtent))),
    boot smallConfig (⟨.zeros 1⟩ : MemoryExtent) = .ok (.ok k₀) ∧
      k₀.performAll smallEvents = some (trace, k) ∧ Run k₀ trace k := by
  have hruns : holdsAfter smallConfig smallEvents (fun _ => true) = true := by decide +kernel
  obtain ⟨k₀, k, trace, hboot, hall, hrun, -⟩ := run_of_holdsAfter (by decide) hruns
  exact ⟨k₀, k, trace, hboot, hall, hrun⟩

end DemandPaging.Kernel
