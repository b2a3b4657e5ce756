import DemandPaging.Proofs.Kernel.Callers
import DemandPaging.Proofs.Kernel.EventKinds
import DemandPaging.Proofs.Kernel.Memory

/-!
# From a request to its answer

Between a request and its answer the thread takes its steps, other threads take theirs in any order,
and callers pin frames and take pins off (`During`). What the others do there may be restricted:
`Kernel.Spares` is said of events that store nothing into a process. Callers store nothing anyway.
`Answers` is a request with its answer, and `Calls` a thread that makes one request after the other.
-/

namespace DemandPaging.Kernel

variable {σ : Type} {k k₁ k' : Kernel σ} {n i : Nat} {e : Event} {r : Option (Response σ)}
  {request : Request} {stages : List Stage} {response : Response σ}
  {callers callers' callers₀ : Multiset Nat}

/-- Something may happen beside a thread that has a request under way. -/
abbrev Aloof (σ : Type) := Kernel σ → Event → Option (Response σ) → Kernel σ → Prop

/-- No thread stores into the process with this place. -/
def Spares (i : Nat) : Aloof σ := fun k e r k' => ¬ k.Stores i e r k'

variable {P : Aloof σ} [Extent σ]

/-- A thread has a request under way. It takes steps, none of which is the answer, at the stages
that are listed. Beside them callers may call, and else only such things happen as `P` allows. -/
inductive During (P : Aloof σ) (n : Nat) (k : Kernel σ) (callers₀ : Multiset Nat) :
    List Stage → Multiset Nat → Kernel σ → Prop where
  | start : During P n k callers₀ [] callers₀ k
  | own {stages : List Stage} {callers : Multiset Nat} {place : Nat} {call : Call}
      {k₁ k' : Kernel σ} (h : During P n k callers₀ stages callers k₁)
      (hs : k₁.session n = some ⟨place, .busy call⟩)
      (hrun : k₁.perform (.advance n) = some (.ok (none, k'))) :
      During P n k callers₀ (stages ++ [call.stage]) callers k'
  | other {stages : List Stage} {callers : Multiset Nat} {e : Event} {r : Option (Response σ)}
      {k₁ k' : Kernel σ} (h : During P n k callers₀ stages callers k₁) (he : e.isOrdinary = true)
      (hne : e ≠ .advance n) (hrun : k₁.perform e = some (.ok (r, k')))
      (hallowed : P k₁ e r k') : During P n k callers₀ stages callers k'
  | call {stages : List Stage} {callers callers' : Multiset Nat} {k₁ k' : Kernel σ}
      (h : During P n k callers₀ stages callers k₁) (hcall : k₁.CallerStep callers callers' k') :
      During P n k callers₀ stages callers' k'

/-- A thread makes a request and is answered, after steps at these stages. -/
inductive Answers (P : Aloof σ) (n : Nat) (k : Kernel σ) (callers₀ : Multiset Nat)
    (request : Request) : List Stage → Response σ → Multiset Nat → Kernel σ → Prop where
  | intro {stages : List Stage} {callers : Multiset Nat} {place : Nat} {call : Call}
      {response : Response σ} {k₁ k₂ k' : Kernel σ}
      (ask : k.perform (.ask n request) = some (.ok (none, k₁)))
      (during : During P n k₁ callers₀ stages callers k₂)
      (session : k₂.session n = some ⟨place, .busy call⟩)
      (answer : k₂.perform (.advance n) = some (.ok (some response, k'))) :
      Answers P n k callers₀ request (stages ++ [call.stage]) response callers k'

/-- A thread makes these requests one after the other, and gets these answers. Callers may call, and
other events may come, before each request. -/
inductive Calls (P : Aloof σ) (n : Nat) : Kernel σ → Multiset Nat → List (Request × Response σ) →
    Multiset Nat → Kernel σ → Prop where
  | nil {k : Kernel σ} {callers : Multiset Nat} : Calls P n k callers [] callers k
  | other {k k₁ k' : Kernel σ} {callers callers' : Multiset Nat} {e : Event}
      {r : Option (Response σ)} {calls : List (Request × Response σ)} (he : e.isOrdinary = true)
      (hne : e ≠ .advance n) (hask : ∀ request, e ≠ .ask n request)
      (hrun : k.perform e = some (.ok (r, k₁))) (hallowed : P k e r k₁)
      (h : Calls P n k₁ callers calls callers' k') : Calls P n k callers calls callers' k'
  | call {k k₁ k' : Kernel σ} {callers callers₁ callers' : Multiset Nat}
      {calls : List (Request × Response σ)} (hcall : k.CallerStep callers callers₁ k₁)
      (h : Calls P n k₁ callers₁ calls callers' k') : Calls P n k callers calls callers' k'
  | cons {k k₁ k' : Kernel σ} {callers callers₁ callers' : Multiset Nat} {request : Request}
      {stages : List Stage} {response : Response σ} {calls : List (Request × Response σ)}
      (hfirst : Answers P n k callers request stages response callers₁ k₁)
      (h : Calls P n k₁ callers₁ calls callers' k') :
      Calls P n k callers ((request, response) :: calls) callers' k'

/-! ## On the flat machine -/

variable [Extent.Reliable σ] {m : FlatMachine} {p : FlatProcess}

/-- While an access is under way, the flat machine has it pending; and if nobody else stores into
the process, the memory of the process is known. -/
theorem During.pending (h : During P n k callers₀ stages callers k')
    (hsound : k.Sound m callers₀) (haccess : request.isAccess = true)
    (hpending : m.Pending n i p request) :
    ∃ m', k'.Sound m' callers ∧ m'.Pending n i p request ∧ m'.config = m.config ∧
      ((∀ k e r k', P k e r k' → k.Spares i e r k') → m.Remembers n i p request →
        m'.Remembers n i p request) := by
  -- a step of the thread itself may move bytes, and a step of another one leaves them alone
  induction h with
  | start => exact ⟨m, hsound, hpending, rfl, fun _ h => h⟩
  | own _ _ hrun ih =>
      obtain ⟨m₁, hsound₁, hpending₁, hconfig, hremembers⟩ := ih
      obtain ⟨m', hstep, hsound', -⟩ := hsound₁.perform_run rfl hrun
      exact ⟨m', hsound', hpending₁.own_step haccess hstep, hstep.config_eq.trans hconfig,
        fun hP h => (hremembers hP h).own_step hpending₁ haccess hstep⟩
  | other _ he hne hrun hallowed ih =>
      obtain ⟨m₁, hsound₁, hpending₁, hconfig, hremembers⟩ := ih
      obtain ⟨m', hstep, hsound', -⟩ := hsound₁.perform_run he hrun
      refine ⟨m', hsound', hpending₁.other_step hstep hne, hstep.config_eq.trans hconfig,
        fun hP h => ?_⟩
      have hleaves := hsound₁.toShows.leaves hsound'.toShows hstep (hP _ _ _ _ hallowed)
      exact (hremembers hP h).other_step hpending₁ hstep hne hleaves
  | call _ hcall ih =>
      -- the flat machine knows no pins
      obtain ⟨m₁, hsound₁, hrest⟩ := ih
      obtain ⟨-, -, hsound', -⟩ := hsound₁.callerStep_run hcall
      exact ⟨m₁, hsound', hrest⟩

/-- A thread without a request is given one. -/
theorem Sound.asked (h : k.Sound m callers) (hordinary : request.isOrdinary = true)
    (hs : k.session n = some ⟨i, .ready⟩) (hp : m.processes[i]? = some p)
    (hrun : k.perform (.ask n request) = some (.ok (none, k₁))) :
    ∃ m₁, k₁.Sound m₁ callers ∧ m₁.Pending n i p request ∧ m₁.Remembers n i p request ∧
      m₁.config = m.config := by
  obtain ⟨m₁, hstep, hsound, -⟩ := h.perform_run (e := .ask n request) hordinary hrun
  have hthread : m.threads[n]? = some ⟨i, .idle⟩ := h.thread hs
  cases hstep with
  | ask hidle =>
      have hthread₁ := FlatMachine.thread_setErrand hthread (.asked request [])
      -- nothing has been moved yet
      refine ⟨_, hsound, .going hthread₁ hp (.refl p) ?_, ?_, rfl⟩
      · cases request with
        | copyOut => exact ⟨Nat.zero_le _, .inl rfl⟩
        | copyIn => exact ⟨List.nil_prefix, .inl rfl, fun j hj => absurd hj (Nat.not_lt_zero j)⟩
        | _ => rfl
      · intro moved q hmoved hq
        obtain ⟨-, -, rfl⟩ := FlatThread.asked_inj (hthread₁.symm.trans hmoved)
        obtain rfl := Option.some.inj (hp.symm.trans hq)
        cases request with
        | copyIn => exact ⟨trivial, (FlatProcess.store_nil ..).symm⟩
        | copyOut => exact ⟨rfl, rfl⟩
        | _ => exact ⟨trivial, rfl⟩

/-- A request of a thread and its answer, on the flat machine: the last step is taken where the
request is still pending. -/
theorem Answers.flat (h : k.Answers P n callers₀ request stages response callers k')
    (hsound : k.Sound m callers₀) (hordinary : request.isOrdinary = true)
    (haccess : request.isAccess = true) (hs : k.session n = some ⟨i, .ready⟩)
    (hp : m.processes[i]? = some p) :
    ∃ m₂ m', k'.Sound m' callers ∧ m₂.Pending n i p request ∧
      FlatMachine.Step m₂ (.advance n) (some response) m' ∧ m₂.config = m.config ∧
      ((∀ k e r k', P k e r k' → k.Spares i e r k') → m₂.Remembers n i p request) := by
  cases h with
  | intro hask hduring hsession hanswer =>
      obtain ⟨m₁, hsound₁, hpending₁, hremembers₁, hconfig⟩ := hsound.asked hordinary hs hp hask
      obtain ⟨m₂, hsound₂, hpending₂, hconfig₂, hremembers₂⟩ :=
        hduring.pending hsound₁ haccess hpending₁
      obtain ⟨m', hstep, hsound', -⟩ := hsound₂.perform_run rfl hanswer
      exact ⟨m₂, m', hsound', hpending₂, hstep, hconfig₂.trans hconfig,
        fun hP => hremembers₂ hP hremembers₁⟩

omit [Extent σ] [Extent.Reliable σ] in
/-- Whoever has nothing to do on the flat machine is ready for a request. -/
theorem Shows.ready_of_idle (h : k.Shows m) (ht : m.threads[n]? = some ⟨i, .idle⟩) :
    k.session n = some ⟨i, .ready⟩ := by
  obtain ⟨⟨place, phase⟩, hs, rfl, herrand⟩ := h.session_of_thread ht
  obtain rfl := Phase.of_errand_idle herrand
  exact hs

/-! ## One request after the other -/

/-- Loads from successive addresses, with the bytes that they are answered with. -/
def loads (a : Nat) (bytes : List UInt8) : List (Request × Response σ) :=
  (bytes.zipIdx a).map fun (v, b) => (.read b, .byte v)

/-- Stores to successive addresses that are all done. -/
def stores (a : Nat) (bytes : List UInt8) : List (Request × Response σ) :=
  (bytes.zipIdx a).map fun (v, b) => (.write b v, .done)

omit [Extent σ] [Extent.Reliable σ] in
theorem loads_cons (a : Nat) (v : UInt8) (bytes : List UInt8) :
    loads (σ := σ) a (v :: bytes) = (.read a, .byte v) :: loads (a + 1) bytes := by
  rw [loads, loads, List.zipIdx_cons, List.map_cons]

omit [Extent σ] [Extent.Reliable σ] in
theorem stores_cons (a : Nat) (v : UInt8) (bytes : List UInt8) :
    stores (σ := σ) a (v :: bytes) = (.write a v, .done) :: stores (a + 1) bytes := by
  rw [stores, stores, List.zipIdx_cons, List.map_cons]

/-- What happens beside a thread between two requests. The thread has the processor, so nobody can
end its process. -/
theorem Sound.between (h : k.Sound m callers) (hs : k.session n = some ⟨i, .ready⟩)
    (hp : m.processes[i]? = some p) (he : e.isOrdinary = true) (hne : e ≠ .advance n)
    (hask : ∀ request, e ≠ .ask n request) (hrun : k.perform e = some (.ok (r, k₁)))
    (hspares : k.Spares i e r k₁) :
    ∃ m₁ q, k₁.Sound m₁ callers ∧ k₁.session n = some ⟨i, .ready⟩ ∧ m₁.processes[i]? = some q ∧
      q.process = p.process ∧ q.byteAt = p.byteAt := by
  obtain ⟨m₁, hstep, hsound, -⟩ := h.perform_run he hrun
  obtain ⟨q, hq, -⟩ := hstep.process_became hp
  have hprocess : q.process = p.process := by
    have hp' := h.toShows.process_of_flat hp
    rcases (h.perform_event he hrun).process_eq_or hp' with hq' | ⟨j, call, _, _, rfl, hends, -⟩
    · exact Option.some.inj ((hsound.toShows.process_of_flat hq).symm.trans hq')
    · -- a process can only be ended from the processor, and another thread is there
      have haway := h.others_away hs rfl (fun hj => hne (congrArg _ hj)) hends.session
      exact absurd hends.holding haway
  refine ⟨m₁, q, hsound, hsound.toShows.ready_of_idle ?_, hq, hprocess,
    h.toShows.leaves hsound.toShows hstep hspares p q hp hq⟩
  exact hstep.thread_kept (h.thread hs) hne fun request heq => absurd heq (hask request)

/-- Loads one after the other give the bytes of memory. -/
theorem Calls.bytes_eq {calls : List (Request × Response σ)}
    (h : Calls (Spares i) n k callers calls callers' k') :
    ∀ {m : FlatMachine} {p : FlatProcess} {a : Nat} {bytes : List UInt8}, calls = loads a bytes →
      k.Sound m callers → k.session n = some ⟨i, .ready⟩ → m.processes[i]? = some p →
      bytes = p.load a bytes.length := by
  induction h with
  | nil =>
      intro m p a bytes hcalls _ _ _
      cases bytes with
      | nil => rfl
      | cons v bytes => cases hcalls
  | other he hne hask hrun hallowed _ ih =>
      intro m p a bytes hcalls hsound hs hp
      obtain ⟨m₁, q, hsound₁, hs₁, hq, hprocess, hbytes⟩ :=
        hsound.between hs hp he hne hask hrun hallowed
      rw [ih hcalls hsound₁ hs₁ hq, FlatProcess.length_load]
      exact congrArg (fun f => (List.range _).map fun j => f (a + j)) hbytes
  | call hcall _ ih =>
      intro m p a bytes hcalls hsound hs hp
      obtain ⟨t, rfl, hsound₁, -⟩ := hsound.callerStep_run hcall
      exact ih hcalls hsound₁ hs hp
  | cons hfirst _ ih =>
      intro m p a bytes hcalls hsound hs hp
      cases bytes with
      | nil => cases hcalls
      | cons v bytes =>
          rw [loads_cons] at hcalls
          obtain ⟨hcall, hrest⟩ := List.cons.inj hcalls
          obtain ⟨rfl, rfl⟩ := Prod.mk.inj hcall
          obtain ⟨m₂, m', hsound', hpending, hstep, -, hremembers⟩ :=
            hfirst.flat hsound rfl rfl hs hp
          have hremembers := hremembers fun _ _ _ _ h => h
          obtain ⟨-, hv, q, hq, -, hbytes⟩ := hpending.loaded hremembers hstep
          have hs' := hsound'.toShows.ready_of_idle (hpending.answered_idle rfl hstep)
          -- a load stores nothing, so the other bytes are read from the same memory
          have hload : q.load = p.load := by
            funext b count
            rw [FlatProcess.load, hbytes]
            rfl
          have hbytes := ih hrest hsound' hs' hq
          rw [hload] at hbytes
          rw [List.length_cons, Nat.add_comm, ← FlatProcess.load_append, ← hbytes, hv]
          rfl

/-- Stores one after the other leave the bytes in memory. -/
theorem Calls.stored_eq {calls : List (Request × Response σ)}
    (h : Calls (Spares i) n k callers calls callers' k') :
    ∀ {m : FlatMachine} {p : FlatProcess} {a : Nat} {bytes : List UInt8}, calls = stores a bytes →
      k.Sound m callers → k.session n = some ⟨i, .ready⟩ → m.processes[i]? = some p →
      ∃ m' q, k'.Sound m' callers' ∧ m'.processes[i]? = some q ∧ q.process = p.process ∧
        q.byteAt = (p.store a bytes).byteAt := by
  induction h with
  | nil =>
      intro m p a bytes hcalls hsound _ hp
      cases bytes with
      | nil => exact ⟨m, p, hsound, hp, rfl, (p.store_nil a).symm⟩
      | cons v bytes => cases hcalls
  | other he hne hask hrun hallowed _ ih =>
      intro m p a bytes hcalls hsound hs hp
      obtain ⟨m₁, q, hsound₁, hs₁, hq, hprocess, hbytes⟩ :=
        hsound.between hs hp he hne hask hrun hallowed
      obtain ⟨m', q', hsound', hq', hprocess', hbytes'⟩ := ih hcalls hsound₁ hs₁ hq
      refine ⟨m', q', hsound', hq', hprocess'.trans hprocess, hbytes'.trans ?_⟩
      simp only [FlatProcess.store, hbytes]
  | call hcall _ ih =>
      intro m p a bytes hcalls hsound hs hp
      obtain ⟨t, rfl, hsound₁, -⟩ := hsound.callerStep_run hcall
      exact ih hcalls hsound₁ hs hp
  | cons hfirst _ ih =>
      intro m p a bytes hcalls hsound hs hp
      cases bytes with
      | nil => cases hcalls
      | cons v bytes =>
          rw [stores_cons] at hcalls
          obtain ⟨hcall, hrest⟩ := List.cons.inj hcalls
          obtain ⟨rfl, rfl⟩ := Prod.mk.inj hcall
          obtain ⟨m₂, m₁, hsound₁, hpending, hstep, -, hremembers⟩ :=
            hfirst.flat hsound rfl rfl hs hp
          have hremembers := hremembers fun _ _ _ _ h => h
          obtain ⟨q, hq, hprocess, hbytes⟩ := hpending.stored_byte hremembers hstep
          have hs₁ := hsound₁.toShows.ready_of_idle (hpending.answered_idle rfl hstep)
          obtain ⟨m', q', hsound', hq', hprocess', hbytes'⟩ := ih hrest hsound₁ hs₁ hq
          exact ⟨m', q', hsound', hq', hprocess'.trans hprocess,
            hbytes'.trans (FlatProcess.store_append hbytes)⟩

/-! ## Small machines -/

section Small

omit [Extent.Reliable σ]

variable {allowed : Kernel σ → Event → Option (Response σ) → Kernel σ → Bool}

/-- Whether an event is a step of the thread. -/
def isStepOf (n : Nat) : Event → Bool
  | .advance j => j = n
  | _ => false

omit [Extent σ] in
theorem isStepOf_iff : isStepOf n e = true ↔ e = .advance n := by
  cases e with
  | advance j => exact decide_eq_true_iff.trans ⟨congrArg _, Event.advance.inj⟩
  | _ => exact ⟨nofun, nofun⟩

/-- The events of a list one after the other, up to the answer of a thread: the stages of its steps,
the answer, and the kernel after it. There is nothing if something happens that is not allowed. -/
def answerAlong (allowed : Kernel σ → Event → Option (Response σ) → Kernel σ → Bool) (n : Nat) :
    List Event → Kernel σ → Option (List Stage × Response σ × Kernel σ)
  | [], _ => none
  | e :: rest, k =>
      match k.perform e, k.session n with
      | some (.ok (r, k')), some ⟨_, .busy call⟩ =>
          if isStepOf n e then
            match r with
            | some response => some ([call.stage], response, k')
            | none => (answerAlong allowed n rest k').map fun (stages, result) =>
                (call.stage :: stages, result)
          else if e.isOrdinary && allowed k e r k' then answerAlong allowed n rest k'
          else none
      | _, _ => none

/-- A thread makes a request, and the events of a list happen up to its answer. -/
def answered (allowed : Kernel σ → Event → Option (Response σ) → Kernel σ → Bool) (k : Kernel σ)
    (n : Nat) (request : Request) (events : List Event) :
    Option (List Stage × Response σ × Kernel σ) :=
  match k.perform (.ask n request) with
  | some (.ok (none, k₁)) => answerAlong allowed n events k₁
  | _ => none

theorem During.answerAlong {events : List Event} {later : List Stage}
    (h : During P n k callers₀ stages callers k₁)
    (hallowed : ∀ k e r k', allowed k e r k' = true → P k e r k')
    (hrun : answerAlong allowed n events k₁ = some (later, response, k')) :
    ∃ stages' place call k₂, During P n k callers₀ stages' callers k₂ ∧
      k₂.session n = some ⟨place, .busy call⟩ ∧
      k₂.perform (.advance n) = some (.ok (some response, k')) ∧
      stages ++ later = stages' ++ [call.stage] := by
  induction events generalizing k₁ stages later with
  | nil => cases hrun
  | cons e rest ih =>
      rw [Kernel.answerAlong] at hrun
      split at hrun
      · rename_i r k₂ place call hperform hs
        split at hrun
        · rename_i hown
          obtain rfl := isStepOf_iff.1 hown
          split at hrun
          · obtain ⟨rfl, hresult⟩ := Prod.mk.inj (Option.some.inj hrun)
            obtain ⟨rfl, rfl⟩ := Prod.mk.inj hresult
            exact ⟨stages, place, call, k₁, h, hs, hperform, rfl⟩
          · obtain ⟨⟨later', result⟩, hrest, heq⟩ := Option.map_eq_some_iff.1 hrun
            obtain ⟨rfl, rfl⟩ := Prod.mk.inj heq
            obtain ⟨stages', place', call', k₃, hduring, hlast⟩ := ih (h.own hs hperform) hrest
            rw [List.append_assoc] at hlast
            exact ⟨stages', place', call', k₃, hduring, hlast⟩
        · rename_i hother
          split at hrun
          · rename_i hboth
            rw [Bool.and_eq_true] at hboth
            refine ih (h.other hboth.1 ?_ hperform (hallowed _ _ _ _ hboth.2)) hrun
            exact fun heq => hother (isStepOf_iff.2 heq)
          · cases hrun
      · cases hrun

theorem Answers.of_answered {events : List Event}
    (hallowed : ∀ k e r k', allowed k e r k' = true → P k e r k')
    (hrun : k.answered allowed n request events = some (stages, response, k')) :
    k.Answers P n callers request stages response callers k' := by
  rw [answered] at hrun
  split at hrun
  · rename_i k₁ hask
    have hstart : During P n k₁ callers [] callers k₁ := .start
    obtain ⟨stages', place, call, k₂, hduring, hs, hanswer, rfl⟩ :=
      hstart.answerAlong hallowed hrun
    exact .intro hask hduring hs hanswer
  · cases hrun

end Small

end DemandPaging.Kernel
