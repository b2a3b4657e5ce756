import DemandPaging.Paging.Action

/-!
# Running actions

How an action that is put together from others runs, where each of the parts is known to succeed or
to fail.
-/

namespace DemandPaging.Paging

variable {σ α β : Type} {s s' : Paging σ} {act : PagingM σ α} {x : α} {cause : PagingError}

theorem bind_ok {next : α → PagingM σ β} (h : act s = .ok (.ok x, s')) :
    (act >>= next) s = next x s' := by
  rw [bind_run, h]
  rfl

theorem bind_error {next : α → PagingM σ β} (h : act s = .ok (.error cause, s')) :
    (act >>= next) s = .ok (.error cause, s') := by
  rw [bind_run, h]
  rfl

/-- Where a chain of actions has a result, so has each of its links. -/
theorem run_of_bind {next : α → PagingM σ β} {y : β} (h : (act >>= next) s = .ok (.ok y, s')) :
    ∃ x s₁, act s = .ok (.ok x, s₁) ∧ next x s₁ = .ok (.ok y, s') := by
  rw [bind_run] at h
  cases hact : act s with
  | error halt =>
      rw [hact] at h
      cases h
  | ok result =>
      obtain ⟨result, s₁⟩ := result
      rw [hact] at h
      cases result with
      | error cause => cases h
      | ok x => exact ⟨x, s₁, rfl, h⟩

theorem tryCatch_ok {handle : PagingError → PagingM σ α} (h : act s = .ok (.ok x, s')) :
    (tryCatch act handle) s = .ok (.ok x, s') := by
  rw [tryCatch_run, h]
  rfl

theorem tryCatch_error {handle : PagingError → PagingM σ α} (h : act s = .ok (.error cause, s')) :
    (tryCatch act handle) s = handle cause s' := by
  rw [tryCatch_run, h]
  rfl

theorem orHalt_ok {result : Except Halt α} (h : result = .ok x) :
    (orHalt result : PagingM σ α) s = .ok (.ok x, s) := by
  rw [h]
  rfl

theorem orFail_ok {result : Except PagingError α} (h : result = .ok x) :
    (orFail result : PagingM σ α) s = .ok (.ok x, s) := by
  rw [h]
  rfl

theorem count_run (change : Counters → Counters) (s : Paging σ) :
    count change s = .ok (.ok (), { s with counters := change s.counters }) := rfl

theorem changeFrames_run (change : FrameTable → Except Halt FrameTable) (s : Paging σ) :
    changeFrames change s =
      (change s.frameTable).map fun frameTable => (.ok (), { s with frameTable }) := by
  rw [changeFrames, bind_ok (get_run s), bind_run, orHalt]
  cases change s.frameTable <;> rfl

theorem changeFrames_ok {change : FrameTable → Except Halt FrameTable} {t : FrameTable}
    (h : change s.frameTable = .ok t) :
    changeFrames change s = .ok (.ok (), { s with frameTable := t }) := by
  rw [changeFrames_run, h]
  rfl

theorem reserveFrame_ok {found : Option Nat} {t : FrameTable}
    (h : s.frameTable.reserve = .ok (found, t)) :
    reserveFrame s = .ok (.ok found, { s with frameTable := t }) := by
  rw [reserveFrame, bind_ok (get_run s), bind_ok (orHalt_ok h)]
  rfl

theorem frameBytes_ok {frame : Nat} {bytes : List UInt8}
    (h : s.processor.frame frame = .ok bytes) : frameBytes frame s = .ok (.ok bytes, s) := by
  rw [frameBytes, bind_ok (get_run s)]
  exact orHalt_ok h

theorem setFrameBytes_ok {frame : Nat} {bytes : List UInt8} {p : Processor}
    (h : s.processor.setFrame frame bytes = .ok p) :
    setFrameBytes frame bytes s = .ok (.ok (), { s with processor := p }) := by
  rw [setFrameBytes, bind_ok (get_run s), bind_ok (orHalt_ok h)]
  rfl

theorem tableOf_ok {pid : Pid} {table : PageTable} (h : s.tables[pid]? = some table) :
    tableOf pid s = .ok (.ok table, s) := by
  rw [tableOf, bind_ok (get_run s)]
  exact orFail_ok (by rw [PageTables.table, h])

theorem tableOf_error {pid : Pid} (h : s.tables[pid]? = none) :
    tableOf pid s = .ok (.error (.noSuchProcess pid), s) := by
  rw [tableOf, bind_ok (get_run s), PageTables.table, h]
  rfl

variable [Extent σ]

theorem swapOut_run (id : PageId) (bytes : List UInt8) (s : Paging σ) :
    swapOut id bytes s = (s.swap.store id bytes).map fun x =>
      (x.1.map fun _ => (), { s with swap := x.2 }) := by
  rw [swapOut, bind_ok (get_run s), bind_run, orHalt]
  cases s.swap.store id bytes with
  | error halt => rfl
  | ok x =>
      obtain ⟨result, swap⟩ := x
      cases result <;> rfl

theorem swapIn_run (id : PageId) (slot frameSize : Nat) (s : Paging σ) :
    swapIn id slot frameSize s = (s.swap.fetch id slot frameSize).map fun x =>
      (x.1, { s with swap := x.2 }) := by
  rw [swapIn, bind_ok (get_run s), bind_run, orHalt]
  cases s.swap.fetch id slot frameSize <;> rfl

end DemandPaging.Paging
