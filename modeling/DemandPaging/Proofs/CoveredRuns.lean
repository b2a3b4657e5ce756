import DemandPaging.Proofs.CallersPins
import DemandPaging.Proofs.MendedExtent

/-!
# What does not fail is done alike on a mended extent

Where an action, a step or a run is done on an extent without a failure of it, the same is done on
every extent that covers it (`Extent.Covers`). A failure that reaches a thread halts the machine, so
a run has none (`CallerRun.covered`).
-/

namespace DemandPaging

variable {σ α β : Type}

/-! ## Actions on the tables -/

namespace Paging

/-- The second action does what the first one does, unless the extent fails it. -/
def Covers (act act' : PagingM σ α) : Prop :=
  ∀ s r s', act s = .ok (r, s') → (∃ cause, r = .error (.swapIo cause)) ∨ act' s = .ok (r, s')

namespace Covers

variable {act act' : PagingM σ α}

theorem refl (act : PagingM σ α) : Covers act act := fun _ _ _ hrun => .inr hrun

theorem bind {next next' : α → PagingM σ β} (h : Covers act act')
    (hnext : ∀ x, Covers (next x) (next' x)) : Covers (act >>= next) (act' >>= next') := by
  intro s r s' hrun
  rw [bind_run] at hrun
  cases hact : act s with
  | error halt =>
      rw [hact] at hrun
      cases hrun
  | ok result =>
      obtain ⟨result, s₁⟩ := result
      rw [hact] at hrun
      cases result with
      | ok x =>
          rcases h s _ s₁ hact with ⟨_, hfails⟩ | hact'
          · cases hfails
          · rw [bind_ok hact']
            exact hnext x s₁ r s' hrun
      | error cause =>
          obtain ⟨rfl, rfl⟩ := Prod.mk.inj (Except.ok.inj hrun)
          rcases h s _ s₁ hact with ⟨cause', hfails⟩ | hact'
          · exact .inl ⟨cause', congrArg Except.error (Except.error.inj hfails)⟩
          · exact .inr (bind_error hact')

/-- An action that looks at the state first. -/
theorem get_bind {next next' : Paging σ → PagingM σ β} (hnext : ∀ s, Covers (next s) (next' s)) :
    Covers (get >>= next) (get >>= next') := bind (refl get) hnext

/-- An action whose errors are handled, where failures of the extent are passed on. -/
theorem catching {handle handle' : PagingError → PagingM σ α} (h : Covers act act')
    (hhandle : ∀ cause, Covers (handle cause) (handle' cause))
    (hpasses : ∀ cause s r s', handle (.swapIo cause) s = .ok (r, s') →
      r = .error (.swapIo cause)) : Covers (tryCatch act handle) (tryCatch act' handle') := by
  intro s r s' hrun
  rw [tryCatch_run] at hrun
  cases hact : act s with
  | error halt =>
      rw [hact] at hrun
      cases hrun
  | ok result =>
      obtain ⟨result, s₁⟩ := result
      rw [hact] at hrun
      rcases h s result s₁ hact with ⟨cause, rfl⟩ | hact'
      · exact .inl ⟨cause, hpasses cause s₁ r s' hrun⟩
      · cases result with
        | ok x =>
            rw [tryCatch_ok hact']
            exact .inr hrun
        | error cause =>
            rw [tryCatch_error hact']
            exact hhandle cause s₁ r s' hrun

end Covers

section Actions

variable {E E' : Extent σ} (hcovers : Extent.Covers E E')
include hcovers

theorem store_covered {s : SwapArea σ} {id : PageId} {data : List UInt8}
    {r : Except PagingError Nat} {s' : SwapArea σ}
    (h : @SwapArea.store σ E s id data = .ok (r, s')) :
    (∃ cause, r = .error (.swapIo cause)) ∨ @SwapArea.store σ E' s id data = .ok (r, s') := by
  unfold SwapArea.store at h ⊢
  by_cases hsize : data.length ≠ s.pageSize
  · rw [if_pos hsize] at h
    cases h
  · rw [if_neg hsize] at h ⊢
    split at h
    · exact .inr h
    · split at h
      · exact .inr h
      · -- only here the extent is called
        split at h
        · obtain ⟨rfl, -⟩ := Prod.mk.inj (Except.ok.inj h)
          exact .inl ⟨_, rfl⟩
        · rename_i hwrite
          rw [hcovers.write_eq hwrite]
          exact .inr h

theorem fetch_covered {s : SwapArea σ} {id : PageId} {slot frameSize : Nat}
    {r : Except PagingError (List UInt8)} {s' : SwapArea σ}
    (h : @SwapArea.fetch σ E s id slot frameSize = .ok (r, s')) :
    (∃ cause, r = .error (.swapIo cause)) ∨
      @SwapArea.fetch σ E' s id slot frameSize = .ok (r, s') := by
  unfold SwapArea.fetch at h ⊢
  split at h
  · cases h
  · rename_i hsize
    rw [if_neg hsize]
    split at h
    · rename_i hown
      rw [if_pos hown]
      split at h
      · obtain ⟨rfl, -⟩ := Prod.mk.inj (Except.ok.inj h)
        exact .inl ⟨_, rfl⟩
      · rename_i hread
        rw [hcovers.read_eq hread]
        exact .inr h
    · rename_i hown
      rw [if_neg hown]
      exact .inr h

theorem swapOut_covered (id : PageId) (bytes : List UInt8) :
    Covers (@swapOut σ E id bytes) (@swapOut σ E' id bytes) := by
  intro s r s' hrun
  rw [@swapOut_run σ E] at hrun
  obtain ⟨⟨result, swap⟩, hstore, heq⟩ := ok_of_map hrun
  obtain ⟨rfl, rfl⟩ := Prod.mk.inj heq
  rcases store_covered hcovers hstore with ⟨cause, rfl⟩ | hstore'
  · exact .inl ⟨cause, rfl⟩
  · rw [@swapOut_run σ E', hstore']
    exact .inr rfl

theorem swapIn_covered (id : PageId) (slot frameSize : Nat) :
    Covers (@swapIn σ E id slot frameSize) (@swapIn σ E' id slot frameSize) := by
  intro s r s' hrun
  rw [@swapIn_run σ E] at hrun
  obtain ⟨⟨result, swap⟩, hfetch, heq⟩ := ok_of_map hrun
  obtain ⟨rfl, rfl⟩ := Prod.mk.inj heq
  rcases fetch_covered hcovers hfetch with hfails | hfetch'
  · exact .inl hfails
  · rw [@swapIn_run σ E', hfetch']
    exact .inr rfl

/-! ### Evictions -/

theorem save_covered (frame : Nat) (id : PageId) (entry : PageEntry) :
    Covers (@save σ E frame id entry) (@save σ E' frame id entry) := by
  unfold save
  split
  · exact .bind (.refl _) fun bytes => (swapOut_covered hcovers id bytes).bind fun _ => .refl _
  · exact .refl _

theorem evict_covered (victim : Nat) : Covers (@evict σ E victim) (@evict σ E' victim) := by
  refine .get_bind fun s => ?_
  cases s.frameTable.owner victim with
  | none => exact .refl _
  | some id =>
      exact .bind (.refl _) fun entry => (save_covered hcovers victim id entry).bind fun _ =>
        .refl _

theorem evictOrWait_covered (process : UserProcess) (victim : Nat) :
    Covers (@evictOrWait σ E process victim) (@evictOrWait σ E' process victim) := by
  refine .catching ((evict_covered hcovers victim).bind fun _ => .refl _) (fun _ => .refl _) ?_
  -- the handler lets the victim go and gives the error back
  intro cause s r s' hrun
  have hpasses : (changeFrames (·.unpin victim) >>= fun _ => throw (.swapIo cause)) s =
      .ok (r, s') := hrun
  rw [bind_run, changeFrames_run] at hpasses
  obtain ⟨⟨_, _⟩, hunpin, hthrow⟩ := ok_of_bind hpasses
  obtain ⟨t, -, heq⟩ := ok_of_map hunpin
  obtain ⟨rfl, rfl⟩ := Prod.mk.inj heq
  exact (Prod.mk.inj (Except.ok.inj hthrow)).1.symm

theorem findFrame_covered (process : UserProcess) :
    Covers (@findFrame σ E process) (@findFrame σ E' process) := by
  refine .bind (.refl _) fun found => ?_
  cases found with
  | some frame => exact .refl _
  | none => exact .bind (.refl _) fun victim => .bind (.refl _) fun _ =>
      evictOrWait_covered hcovers process victim

theorem resumeSearch_covered (process : UserProcess) (victim : Nat) :
    Covers (@resumeSearch σ E process victim) (@resumeSearch σ E' process victim) := by
  refine .bind (.refl _) fun found => ?_
  cases found with
  | some frame => exact .refl _
  | none => exact evictOrWait_covered hcovers process victim

/-! ### Faults -/

theorem fillFromSwap_covered (id : PageId) (slot frame frameSize : Nat) :
    Covers (@fillFromSwap σ E id slot frame frameSize)
      (@fillFromSwap σ E' id slot frame frameSize) :=
  (swapIn_covered hcovers id slot frameSize).bind fun _ => .refl _

theorem fill_covered (process : UserProcess) (page frame : Nat) :
    Covers (@fill σ E process page frame) (@fill σ E' process page frame) := by
  refine .bind (.refl _) fun bytes => .get_bind fun s => ?_
  cases s.swap.lookup ⟨process.pid, page⟩ with
  | none => exact .refl _
  | some slot =>
      refine .catching ((fillFromSwap_covered hcovers _ slot frame bytes.length).bind fun _ =>
        .refl _) (fun _ => .refl _) ?_
      -- the handler takes care of a slot that is another page's, and passes everything else on
      intro cause s r s' hrun
      exact (Prod.mk.inj (Except.ok.inj hrun)).1.symm

theorem bringIn_covered (process : UserProcess) (page frame : Nat) :
    Covers (@bringIn σ E process page frame) (@bringIn σ E' process page frame) := by
  refine .get_bind fun s => ?_
  cases PageTables.table s.tables process.pid with
  | error cause => exact .refl _
  | ok table =>
      refine .bind (.refl _) fun entry => ?_
      split
      · exact .refl _
      · exact (fill_covered hcovers process page frame).bind fun _ => .refl _

theorem settleFault_covered (process : UserProcess) (page : Nat) (found : FrameSearch) :
    Covers (@settleFault σ E process page found) (@settleFault σ E' process page found) := by
  cases found with
  | needsSlot victim => exact .refl _
  | found frame passOn =>
      exact (bringIn_covered hcovers process page frame).bind fun _ => .refl _

theorem handleMiss_covered (process : UserProcess) (address : Nat) :
    Covers (@handleMiss σ E process address) (@handleMiss σ E' process address) := by
  refine .bind (.refl _) fun _ => .get_bind fun s => .bind (.refl _) fun table => ?_
  split
  · exact .refl _
  · split
    · exact .refl _
    · exact .bind (.refl _) fun _ => (findFrame_covered hcovers process).bind fun found =>
        settleFault_covered hcovers process _ found

theorem resumeFault_covered (process : UserProcess) (page victim : Nat) :
    Covers (@resumeFault σ E process page victim) (@resumeFault σ E' process page victim) :=
  (resumeSearch_covered hcovers process victim).bind fun found =>
    settleFault_covered hcovers process page found

end Actions

end Paging

/-! ## Steps and runs -/

namespace Kernel

variable {k k' k₀ : Kernel σ} {E E' : Extent σ} (hcovers : Extent.Covers E E')

theorem locked_covered {thread : ThreadId} {act act' : PagingM σ α} (h : Paging.Covers act act')
    {r : Except PagingError α} (hrun : k.locked thread act = some (.ok (r, k'))) :
    (∃ cause, r = .error (.swapIo cause)) ∨ k.locked thread act' = some (.ok (r, k')) := by
  obtain ⟨⟨entered, region⟩, henter, hinside⟩ := Option.map_eq_some_iff.1 hrun
  obtain ⟨_, hentered, hinside⟩ := ok_of_bind hinside
  obtain ⟨⟨result, paging⟩, hact, hleaves⟩ := ok_of_bind hinside
  obtain ⟨_, -, heq⟩ := ok_of_bind hleaves
  obtain ⟨rfl, rfl⟩ := Prod.mk.inj (Except.ok.inj heq)
  rcases h k.paging result paging hact with hfails | hact'
  · exact .inl hfails
  · refine .inr ?_
    rw [← hrun, locked, locked, henter, Option.map_some, Option.map_some, hact, hact']

include hcovers

/-- A step of a thread that handles a miss. -/
theorem faultStep_covered {thread : ThreadId} {p : UserProcess} {phase : Faulting}
    {r : Except PagingError (Option Faulting)}
    (hrun : @faultStep σ E k thread p phase = some (.ok (r, k'))) :
    (∃ cause, r = .error (.swapIo cause)) ∨
      @faultStep σ E' k thread p phase = some (.ok (r, k')) := by
  -- what follows the locked part is done with its result
  have hlocked : ∀ {act act' : PagingM σ Paging.MissResult} {page : Nat}, Paging.Covers act act' →
      (k.locked thread act).map (fun result =>
        result.map fun q => (q.1.map (Faulting.after page), q.2)) =
          some (.ok (r, k')) →
      (∃ cause, r = .error (.swapIo cause)) ∨ (k.locked thread act').map (fun result =>
        result.map fun q => (q.1.map (Faulting.after page), q.2)) =
          some (.ok (r, k')) := by
    intro act act' page h hrun
    obtain ⟨⟨result, k₁⟩, hact, heq⟩ := step_of_map hrun fun halt => ⟨halt, rfl⟩
    rcases locked_covered h hact with ⟨cause, rfl⟩ | hact'
    · obtain ⟨rfl, -⟩ := Prod.mk.inj (Except.ok.inj heq)
      exact .inl ⟨cause, rfl⟩
    · rw [hact']
      exact .inr (congrArg some heq)
  cases phase with
  | missing address => exact hlocked (Paging.handleMiss_covered hcovers p address) hrun
  | resuming page victim => exact hlocked (Paging.resumeFault_covered hcovers p page victim) hrun
  | waiting page victim phase => exact .inr hrun
  | notifying left phase => exact .inr hrun

/-- A step inside a request. -/
theorem callStep_covered {thread : ThreadId} {place : Nat} {p : UserProcess} {call : Call}
    {result : After σ} (hrun : @callStep σ E k thread place p call = some (.ok result)) :
    @callStep σ E' k thread place p call = some (.ok result) := by
  obtain ⟨request, stage, moved⟩ := call
  cases stage with
  | faulting phase =>
      obtain ⟨⟨r, k₁⟩, hfault, hnext⟩ := step_of_map hrun fun halt => ⟨halt, rfl⟩
      rcases faultStep_covered hcovers hfault with ⟨cause, rfl⟩ | hfault'
      · -- the failure would have halted the machine
        cases hnext
      · show Option.map _ (@faultStep σ E' k thread p phase) = _
        rw [hfault']
        exact congrArg some hnext
  | _ => exact hrun

theorem step_covered {n : Nat} {r : Option (Response σ)}
    (hrun : @step σ E k n = some (.ok (r, k'))) : @step σ E' k n = some (.ok (r, k')) := by
  obtain ⟨⟨place, phase⟩, hs, hrun⟩ := Option.bind_eq_some_iff.1 hrun
  obtain ⟨p, hp, hrun⟩ := Option.bind_eq_some_iff.1 hrun
  refine Option.bind_eq_some_iff.2 ⟨⟨place, phase⟩, hs, Option.bind_eq_some_iff.2 ⟨p, hp, ?_⟩⟩
  cases phase with
  | busy call =>
      obtain ⟨result, hcall, hnext⟩ := step_of_map hrun fun halt => ⟨halt, rfl⟩
      show Option.map _ (@callStep σ E' k (threadOf n) place p call) = _
      rw [callStep_covered hcovers hcall]
      exact congrArg some hnext
  | _ => exact hrun

theorem perform_covered {e : Event} {r : Option (Response σ)}
    (hrun : @perform σ E k e = some (.ok (r, k'))) : @perform σ E' k e = some (.ok (r, k')) := by
  cases e with
  | advance n => exact step_covered hcovers hrun
  | _ => exact hrun

theorem performAll_covered {events : List Event} {trace : List (Event × Option (Response σ))}
    (hrun : @performAll σ E k events = some (trace, k')) :
    @performAll σ E' k events = some (trace, k') := by
  induction events generalizing k trace with
  | nil => exact hrun
  | cons e rest ih =>
      obtain ⟨r, k₁, trace₁, hperform, hrest, rfl⟩ := @exists_of_performAll_cons σ E _ _ _ _ _ hrun
      rw [@performAll_cons σ E', perform_covered hcovers hperform]
      dsimp only
      rw [ih hrest]
      rfl

theorem CallerStep.covered {callers callers' : Multiset Nat}
    (h : @CallerStep σ E k callers callers' k') : @CallerStep σ E' k callers callers' k' := by
  cases h with
  | pin hwaits hcall =>
      exact @CallerStep.pin σ E' _ _ _ _ _ _ hwaits (performAll_covered hcovers hcall)
  | unpin hmem hcall =>
      exact @CallerStep.unpin σ E' _ _ _ _ _ _ hmem (performAll_covered hcovers hcall)

/-- A run with callers. -/
theorem CallerRun.covered {P : Multiset Nat → Prop} {callers₀ callers : Multiset Nat}
    {trace : List (Event × Option (Response σ))}
    (h : @CallerRun σ E P k₀ callers₀ trace callers k) :
    @CallerRun σ E' P k₀ callers₀ trace callers k := by
  induction h with
  | nil => exact @CallerRun.nil σ E' P k₀ callers₀
  | step _ he hrun ih =>
      exact @CallerRun.step σ E' _ _ _ _ _ _ _ _ _ ih he (perform_covered hcovers hrun)
  | call _ hcall hcheck ih =>
      exact @CallerRun.call σ E' _ _ _ _ _ _ _ _ ih (CallerStep.covered hcovers hcall) hcheck

/-- The machine boots alike. -/
theorem boot_covered (c : Config) (extent : σ) : @boot σ E' c extent = @boot σ E c extent := by
  unfold boot freshPaging SwapArea.create
  rw [hcovers.length_eq]

end Kernel

end DemandPaging
