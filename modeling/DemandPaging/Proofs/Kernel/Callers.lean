import DemandPaging.Proofs.Kernel.Runs

/-!
# Callers

The console and the threads of processes may pin frames and take the pins off again, at any time and
one over the other (`CallerStep`). Such a step changes the pins in the frame table, and nothing
else: no thread, no process, no page, and no frame that a page has (`Sound.callerStep_run`). So a
run in which callers take part is still simulated by the flat machine, which knows no pins
(`CallerRun.simulated`).

A frame that a thread waits with is not pinned here. The thread pushes its victim out whatever has
been pinned in the meantime, and all pins are dropped with the page, so that the pin that was
taken can no longer be taken off.
-/

namespace DemandPaging.Kernel

variable {σ : Type}

/-- The kernel with another frame table. -/
def withFrames (k : Kernel σ) (frameTable : FrameTable) : Kernel σ :=
  { k with paging := { k.paging with frameTable } }

/-- Whoever may have something done to the frame table: the console, or a thread of a process. -/
inductive Caller where
  | console
  | thread (n : Nat)

namespace Caller

/-- What happens at a call: an event of the console, or a request of a thread that is served at
once. -/
def events (event : Event) (request : Request) : Caller → List Event
  | console => [event]
  | thread n => [.ask n request, .advance n]

/-- A call that pins a frame. -/
def pin (caller : Caller) (f : Nat) : List Event := caller.events (.pin f) (.pin f)

/-- A call that takes a pin off a frame. -/
def unpin (caller : Caller) (f : Nat) : List Event := caller.events (.unpin f) (.unpin f)

/-- Who can call: the console at any time, and a thread that has nothing else to do. -/
def Ready (k : Kernel σ) : Caller → Prop
  | console => True
  | thread n => (k.session n).map Session.phase = some .ready

end Caller

/-- A caller pins a frame that no thread waits with, or takes off a pin that is outstanding. -/
inductive CallerStep [Extent σ] (k : Kernel σ) (callers : Multiset Nat) :
    Multiset Nat → Kernel σ → Prop where
  | pin {k' : Kernel σ} {f : Nat} {caller : Caller} {trace : List (Event × Option (Response σ))}
      (hwaits : ∀ n, ¬ k.WaitsWith n f) (hcall : k.performAll (caller.pin f) = some (trace, k')) :
      CallerStep k callers (f ::ₘ callers) k'
  | unpin {k' : Kernel σ} {f : Nat} {caller : Caller} {trace : List (Event × Option (Response σ))}
      (hmem : f ∈ callers) (hcall : k.performAll (caller.unpin f) = some (trace, k')) :
      CallerStep k callers (callers.erase f) k'

/-- A run in which callers take part: what programs bring about meanwhile, and the pins that are
outstanding. After each step of a caller those pass a check. -/
inductive CallerRun [Extent σ] (P : Multiset Nat → Prop) (k₀ : Kernel σ) (callers₀ : Multiset Nat) :
    List (Event × Option (Response σ)) → Multiset Nat → Kernel σ → Prop where
  | nil : CallerRun P k₀ callers₀ [] callers₀ k₀
  | step {trace : List (Event × Option (Response σ))} {callers : Multiset Nat} {k k' : Kernel σ}
      {e : Event} {r : Option (Response σ)} (h : CallerRun P k₀ callers₀ trace callers k)
      (he : e.isOrdinary = true) (hrun : k.perform e = some (.ok (r, k'))) :
      CallerRun P k₀ callers₀ (trace ++ [(e, r)]) callers k'
  | call {trace : List (Event × Option (Response σ))} {callers callers' : Multiset Nat}
      {k k' : Kernel σ} (h : CallerRun P k₀ callers₀ trace callers k)
      (hcall : k.CallerStep callers callers' k') (hcheck : P callers') :
      CallerRun P k₀ callers₀ trace callers' k'

variable [Extent σ] {k k' k₀ : Kernel σ} {caller : Caller} {event : Event} {request : Request}
  {change : FrameTable → Except Halt FrameTable} {frameTable : FrameTable} {f : Nat}
  {done trace : List (Event × Option (Response σ))} {P : Multiset Nat → Prop}
  {callers callers' callers₀ : Multiset Nat}

/-- What programs bring about goes on with the same pins. -/
theorem CallerRun.trans_run (h : CallerRun P k₀ callers₀ done callers k) (hrun : Run k trace k') :
    CallerRun P k₀ callers₀ (done ++ trace) callers k' := by
  induction hrun with
  | nil => rwa [List.append_nil]
  | step _ he hperform ih =>
      rw [← List.append_assoc]
      exact ih.step he hperform

/-- A run is one in which nobody calls. -/
theorem Run.uncalled (h : Run k₀ trace k) : CallerRun P k₀ callers trace callers k :=
  CallerRun.nil.trans_run h

/-! ## What a call does -/

/-- The console and a thread have the same thing done to the frame table. -/
structure Does (σ : Type) [Extent σ] (change : FrameTable → Except Halt FrameTable) (event : Event)
    (request : Request) : Prop where
  event : ∀ k : Kernel σ, k.perform event = k.changeFromConsole change
  request : ∀ (k : Kernel σ) thread place p, k.beginCall thread place p { request } =
    k.lockedOrHalt thread (Paging.changeFrames change) (·.reply .done)

theorem does_pin (f : Nat) : Does σ (·.pin f) (.pin f) (.pin f) :=
  ⟨fun _ => rfl, fun _ _ _ _ => rfl⟩

theorem does_unpin (f : Nat) : Does σ (·.unpin f) (.unpin f) (.unpin f) :=
  ⟨fun _ => rfl, fun _ _ _ _ => rfl⟩

theorem Does.perform_eq (h : Does σ change event request) (hfree : k.region = {}) :
    k.perform event =
      some ((change k.paging.frameTable).map fun t => (some .done, k.withFrames t)) := by
  rw [h.event, changeFromConsole, locked_eq hfree, Paging.changeFrames_run]
  cases change k.paging.frameTable <;> rfl

/-- A thread that calls gets the same done as the console, and is idle again. -/
theorem Does.step_eq (h : Does σ change event request) (hfree : k.region = {}) {n : Nat}
    {s : Session} {p : UserProcess} (hs : k.session n = some s) (hready : s.phase = .ready)
    (hp : k.process s.process = some p) :
    (k.accept n request).perform (.advance n) =
      some ((change k.paging.frameTable).map fun t => (some .done, k.withFrames t)) := by
  have hs' : (k.accept n request).session n = some { s with phase := .busy { request } } :=
    getElem?_setPhase_self hs _
  have hp' : (k.accept n request).process s.process = some p := hp
  have hfree' : (k.accept n request).region = {} := hfree
  -- the thread is led from being idle to the call and back
  have hidle : ∀ t, ((k.accept n request).withFrames t).setPhase n .ready = k.withFrames t := by
    intro t
    have hs'' : (k.withFrames t).session n = some s := hs
    exact (setPhase_setPhase (k.withFrames t) n _ .ready).trans (hready ▸ setPhase_eq hs'')
  show (k.accept n request).step n = _
  rw [step, hs', Option.bind_eq_bind, Option.bind_some]
  show ((k.accept n request).process s.process >>= fun p =>
    ((k.accept n request).beginCall (threadOf n) s.process p { request }).map _) = _
  rw [hp', Option.bind_eq_bind, Option.bind_some, h.request, lockedOrHalt, locked_eq hfree',
    Paging.changeFrames_run]
  show _ = some ((change (k.accept n request).paging.frameTable).map _)
  cases change (k.accept n request).paging.frameTable with
  | error halt => rfl
  | ok t => exact congrArg (fun k => some (Except.ok (some Response.done, k))) (hidle t)

variable [Extent.Reliable σ] {m : FlatMachine}

namespace Does

/-- Whoever calls, the frame table is changed, and nothing else is. -/
theorem ok_of_call (h : Does σ change event request) (hsound : k.Sound m callers)
    (hcall : k.performAll (caller.events event request) = some (trace, k')) :
    ∃ t, change k.paging.frameTable = .ok t ∧ k' = k.withFrames t := by
  -- the last event of a call is the one that changes the frame table
  have hlast : ∀ {k₁ : Kernel σ} {e : Event} {trace₁}, k₁.perform e =
      some ((change k.paging.frameTable).map fun t => (some .done, k.withFrames t)) →
      k₁.performAll [e] = some (trace₁, k') →
      ∃ t, change k.paging.frameTable = .ok t ∧ k' = k.withFrames t := by
    intro k₁ e trace₁ heq hall
    obtain ⟨r, k₂, _, hperform, hnil, -⟩ := exists_of_performAll_cons hall
    obtain ⟨-, rfl⟩ := Prod.mk.inj (Option.some.inj hnil)
    obtain ⟨t, hchange, hk⟩ := ok_of_map (Option.some.inj (heq.symm.trans hperform))
    exact ⟨t, hchange, (Prod.mk.inj hk).2.symm⟩
  cases caller with
  | console => exact hlast (h.perform_eq hsound.region_eq) hcall
  | thread n =>
      obtain ⟨r, k₁, _, hask, hcall, -⟩ := exists_of_performAll_cons hcall
      rw [perform] at hask
      split at hask
      · rename_i hready
        obtain ⟨rfl, rfl⟩ := Prod.mk.inj (Except.ok.inj (Option.some.inj hask))
        obtain ⟨s, hs, hready⟩ := Option.map_eq_some_iff.1 hready
        obtain ⟨p, hp, -⟩ := hsound.fits n s hs
        exact hlast (h.step_eq hsound.region_eq hs hready hp) hcall
      · cases hask

/-- Whoever can call gets what can be done. -/
theorem call_of_ok (h : Does σ change event request) (hsound : k.Sound m callers)
    (hready : caller.Ready k) (hchange : change k.paging.frameTable = .ok frameTable) :
    ∃ trace, k.performAll (caller.events event request) =
      some (trace, k.withFrames frameTable) := by
  cases caller with
  | console =>
      refine ⟨[(event, some .done)], ?_⟩
      rw [Caller.events, performAll_cons, h.perform_eq hsound.region_eq, hchange]
      rfl
  | thread n =>
      refine ⟨[(.ask n request, none), (.advance n, some .done)], ?_⟩
      have hask : k.perform (.ask n request) = some (.ok (none, k.accept n request)) :=
        if_pos hready
      obtain ⟨s, hs, hphase⟩ := Option.map_eq_some_iff.1 hready
      obtain ⟨p, hp, -⟩ := hsound.fits n s hs
      have hstep := h.step_eq hsound.region_eq hs hphase hp
      rw [hchange] at hstep
      rw [Caller.events, performAll_cons, hask]
      show ((k.accept n request).performAll [.advance n]).map _ = _
      rw [performAll_cons, hstep]
      rfl

end Does

/-! ## Pins -/

namespace Sound

/-- Callers may have other pins, as long as every frame keeps its owner. -/
theorem repinned (h : k.Sound m callers) {callers' : Multiset Nat}
    (hframes : frameTable.Sound (k.pins + callers'))
    (hsize : frameTable.size = k.paging.frameTable.size)
    (howner : ∀ g, frameTable.owner g = k.paging.frameTable.owner g)
    (hexclusive : Exclusive k.victims callers') : (k.withFrames frameTable).Sound m callers' := by
  have hsame : k.SameThreads (k.withFrames frameTable) := .withPaging k _
  obtain ⟨running, hruns, hpaging⟩ := h.paging
  refine ⟨hsame.shows h.toShows, h.pageSize_eq, h.next_eq, h.length_lt, h.image_pageSize,
    h.region_eq, h.cpu, h.fits, hexclusive, running, ?_,
    hpaging.repinned hframes hsize howner⟩
  cases running with
  | none => exact hruns
  | some pid =>
      obtain ⟨n, s, p, hs, hp, hpid, huses, hholds⟩ := hruns
      exact ⟨n, s, p, hs, hp, hpid, huses, hholds.congr rfl howner fun _ => rfl⟩

/-- A frame that no thread waits with is pinned once more. -/
theorem pin (h : k.Sound m callers) (hwaits : ∀ n, ¬ k.WaitsWith n f)
    (hpin : k.paging.frameTable.pin f = .ok frameTable) :
    (k.withFrames frameTable).Sound m (f ::ₘ callers) ∧
      ∀ g, frameTable.owner g = k.paging.frameTable.owner g := by
  obtain ⟨running, -, hpaging⟩ := h.paging
  obtain ⟨hallocated, hmax⟩ := FrameTable.of_pin hpin
  rw [hpaging.frames.pins_eq] at hmax
  obtain ⟨t, hpin', hframes, hsize, -, howner⟩ := hpaging.frames.pin_eq hallocated hmax
  obtain rfl := Except.ok.inj (hpin.symm.trans hpin')
  rw [← Multiset.add_cons] at hframes
  refine ⟨h.repinned hframes hsize howner ⟨h.exclusive.nodup, fun g hg => ?_⟩, howner⟩
  -- no victim becomes one that a caller has pinned
  rw [Multiset.mem_cons, not_or]
  refine ⟨?_, h.exclusive.notMem g hg⟩
  rintro rfl
  obtain ⟨n, hn⟩ := mem_victims_iff.1 hg
  exact hwaits n hn

/-- An outstanding pin can be taken off. -/
theorem unpin (h : k.Sound m callers) (hmem : f ∈ callers) :
    ∃ t, k.paging.frameTable.unpin f = .ok t ∧ (k.withFrames t).Sound m (callers.erase f) ∧
      ∀ g, t.owner g = k.paging.frameTable.owner g := by
  obtain ⟨running, -, hpaging⟩ := h.paging
  have hframes := hpaging.frames
  rw [← Multiset.cons_erase hmem, Multiset.add_cons] at hframes
  obtain ⟨t, hunpin, hframes', hsize, -, howner⟩ := hframes.unpin_eq
  refine ⟨t, hunpin, h.repinned hframes' hsize howner ⟨h.exclusive.nodup, fun g hg hg' => ?_⟩,
    howner⟩
  exact h.exclusive.notMem g hg (Multiset.mem_of_mem_erase hg')

/-- A call that pins a frame leaves all pages where they are. -/
theorem pin_run (h : k.Sound m callers) (hwaits : ∀ n, ¬ k.WaitsWith n f)
    (hcall : k.performAll (caller.pin f) = some (trace, k')) :
    ∃ t, k' = k.withFrames t ∧ (k.withFrames t).Sound m (f ::ₘ callers) ∧
      ∀ g, t.owner g = k.paging.frameTable.owner g := by
  obtain ⟨t, hpin, hk⟩ := (does_pin f).ok_of_call h hcall
  exact ⟨t, hk, h.pin hwaits hpin⟩

/-- So does a call that takes a pin off. -/
theorem unpin_run (h : k.Sound m callers) (hmem : f ∈ callers)
    (hcall : k.performAll (caller.unpin f) = some (trace, k')) :
    ∃ t, k' = k.withFrames t ∧ (k.withFrames t).Sound m (callers.erase f) ∧
      ∀ g, t.owner g = k.paging.frameTable.owner g := by
  obtain ⟨t, hunpin, hk⟩ := (does_unpin f).ok_of_call h hcall
  obtain ⟨t', hunpin', hsound, howner⟩ := h.unpin hmem
  obtain rfl := Except.ok.inj (hunpin.symm.trans hunpin')
  exact ⟨t, hk, hsound, howner⟩

/-- The pin can be taken off by whoever can call. -/
theorem exists_unpin_run (h : k.Sound m callers) (hmem : f ∈ callers) (hready : caller.Ready k) :
    ∃ trace k', k.performAll (caller.unpin f) = some (trace, k') := by
  obtain ⟨t, hunpin, -, -⟩ := h.unpin hmem
  obtain ⟨trace, hcall⟩ := (does_unpin f).call_of_ok h hready hunpin
  exact ⟨trace, _, hcall⟩

end Sound

/-! ## Runs with callers -/

/-- What a caller does leaves all pages where they are. -/
theorem Sound.callerStep_run (h : k.Sound m callers) (hcall : k.CallerStep callers callers' k') :
    ∃ t, k' = k.withFrames t ∧ k'.Sound m callers' ∧
      ∀ g, t.owner g = k.paging.frameTable.owner g := by
  cases hcall with
  | pin hwaits hcall =>
      obtain ⟨t, rfl, hsound, howner⟩ := h.pin_run hwaits hcall
      exact ⟨t, rfl, hsound, howner⟩
  | unpin hmem hcall =>
      obtain ⟨t, rfl, hsound, howner⟩ := h.unpin_run hmem hcall
      exact ⟨t, rfl, hsound, howner⟩

/-- The kernel goes on to be sound, with the pins that are outstanding; and what is found of the
flat machine step by step is found of the whole run. -/
theorem CallerRun.follows {J : List (Event × Option (Response σ)) → FlatMachine → Prop}
    (hJ : ∀ {trace m e r m'}, J trace m → FlatMachine.Step m e r m' → J (trace ++ [(e, r)]) m')
    (h : CallerRun P k₀ callers₀ trace callers k) (hstart : ∃ m, J [] m ∧ k₀.Sound m callers₀) :
    ∃ m, J trace m ∧ k.Sound m callers := by
  induction h with
  | nil => exact hstart
  | step _ he hrun ih =>
      obtain ⟨m, hm, hsound⟩ := ih
      obtain ⟨m', hstep, hsound', -⟩ := hsound.perform_run he hrun
      exact ⟨m', hJ hm hstep, hsound'⟩
  | call _ hcall _ ih =>
      -- the flat machine knows no pins, so it stays as it is
      obtain ⟨m, hm, hsound⟩ := ih
      obtain ⟨-, -, hsound', -⟩ := hsound.callerStep_run hcall
      exact ⟨m, hm, hsound'⟩

theorem CallerRun.sound (h : CallerRun P k₀ callers₀ trace callers k)
    (hsound : ∃ m, k₀.Sound m callers₀) : ∃ m, k.Sound m callers := by
  obtain ⟨m, hm⟩ := hsound
  obtain ⟨m', -, hm'⟩ := h.follows (J := fun _ _ => True) (fun _ _ => trivial) ⟨m, trivial, hm⟩
  exact ⟨m', hm'⟩

/-- After every run with callers the kernel agrees with what the flat machine can do. -/
theorem CallerRun.simulated {c : Config} {extent : σ} (hintact : Extent.Reliable.Intact extent)
    (hboot : boot c extent = .ok (.ok k₀)) (h : CallerRun P k₀ 0 trace callers k) :
    ∃ m, FlatMachine.Run c trace m ∧ k.Sound m callers :=
  h.follows .step ⟨_, .nil, boot_sound hintact hboot⟩

/-! ## Small machines -/

section Small

omit [Extent.Reliable σ]

/-- Whether the console can pin a frame that no thread waits with, and something holds then. -/
def holdsPinned (f : Nat) (Q : Kernel σ → Bool) (k : Kernel σ) : Bool :=
  decide (f ∉ k.victims) && (k.performAll (Caller.console.pin f)).any fun result => Q result.2

theorem callerStep_of_holdsPinned {Q : Kernel σ → Bool} (h : k.holdsPinned f Q = true) :
    ∃ k', k.CallerStep callers (f ::ₘ callers) k' ∧ Q k' = true := by
  rw [holdsPinned, Bool.and_eq_true, decide_eq_true_iff, Option.any_eq_true] at h
  obtain ⟨hfree, ⟨trace, k'⟩, hcall, hQ⟩ := h
  exact ⟨k', .pin (fun n hn => hfree (mem_victims_iff.2 ⟨n, hn⟩)) hcall, hQ⟩

end Small

/-- What is found to hold after a list of events and a pin holds after a run in which the console
has pinned the frame. -/
theorem callerRun_of_holdsAfter {c : Config} {events : List Event} {f : Nat}
    {Q : Kernel MemoryExtent → Bool} (he : ∀ e ∈ events, e.isOrdinary = true)
    (h : holdsAfter c events (holdsPinned f Q) = true) :
    ∃ (k₀ k k' : Kernel MemoryExtent) (trace : List (Event × Option (Response MemoryExtent))),
      boot c (⟨.zeros c.swapLength⟩ : MemoryExtent) = .ok (.ok k₀) ∧
        k₀.performAll events = some (trace, k) ∧ k.CallerStep 0 {f} k' ∧
        CallerRun (fun _ => True) k₀ 0 trace {f} k' ∧ Q k' = true := by
  obtain ⟨k₀, k, trace, hboot, hall, hrun, hpinned⟩ := run_of_holdsAfter he h
  obtain ⟨k', hcall, hQ⟩ : ∃ k', k.CallerStep 0 {f} k' ∧ Q k' = true :=
    callerStep_of_holdsPinned hpinned
  exact ⟨k₀, k, k', trace, hboot, hall, hcall, hrun.uncalled.call hcall trivial, hQ⟩

end DemandPaging.Kernel
