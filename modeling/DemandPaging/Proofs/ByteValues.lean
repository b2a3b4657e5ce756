import DemandPaging.Proofs.Blank.Steps
import DemandPaging.Proofs.Kernel.Runs

/-!
# Byte values decide nothing

Two machines of the same configuration are given the same events, up to the values of the bytes
that are written, copied in, or part of an image. Their extents need hold nothing in common but
their length. Then they can be told apart by byte values only: all tables, queues and counters are
the same after every event, and so is every answer up to the bytes in it (`runs_alike`). Since the
values are taken out of both machines alike, this follows from `perform_mirrored` for each of them.
-/

namespace DemandPaging

variable {σ τ : Type}

/-- What is written down of an event and its answer, with bytes of value zero. -/
def erasedEntry (entry : Event × Option (Response σ)) : Event × Option (Response BlankExtent) :=
  (entry.1.erased, entry.2.map Response.erased)

namespace Kernel

/-- What an event leads to, with bytes of value zero: nothing where it is not possible, else the
halt or the answer and the kernel after it. -/
def erasedOutcome (outcome : Option (Except Halt (Option (Response σ) × Kernel σ))) :
    Option (Except Halt (Option (Response BlankExtent) × Kernel BlankExtent)) :=
  outcome.map (Except.map (Prod.map (Option.map Response.erased) erased))

/-- Two kernels that can be told apart by byte values only. -/
structure Alike (k : Kernel σ) (k' : Kernel τ) : Prop where
  config_eq : k'.config = k.config
  -- the tables
  frameTable_eq : k'.paging.frameTable = k.paging.frameTable
  tables_eq : k'.paging.tables = k.paging.tables
  policy_eq : k'.paging.policy = k.paging.policy
  rng_eq : k'.paging.rng = k.paging.rng
  counters_eq : k'.paging.counters = k.paging.counters
  -- the processor
  pageSize_eq : k'.paging.processor.pageSize = k.paging.processor.pageSize
  cache_eq : k'.paging.processor.cache = k.paging.processor.cache
  badAddress_eq : k'.paging.processor.badAddress = k.paging.processor.badAddress
  memory_eq : k'.paging.processor.memory.map List.length =
    k.paging.processor.memory.map List.length
  -- the swap area
  numSlots_eq : k'.paging.swap.numSlots = k.paging.swap.numSlots
  slots_eq : k'.paging.swap.slots = k.paging.swap.slots
  owners_eq : k'.paging.swap.owners = k.paging.swap.owners
  free_eq : k'.paging.swap.free = k.paging.swap.free
  -- who holds, waits and sleeps, and who is woken next
  region_eq : k'.region = k.region
  cpu_eq : k'.cpu = k.cpu
  swapLock_eq : k'.swapLock = k.swapLock
  slotFreed_eq : k'.slotFreed = k.slotFreed
  waiting_eq : k'.waiting = k.waiting
  -- processes and threads
  pids_eq : k'.pids = k.pids
  processes_eq : k'.processes.map UserProcess.erased = k.processes.map UserProcess.erased
  sessions_eq : k'.sessions.map Session.erased = k.sessions.map Session.erased

/-- Kernels that are the same without byte values are alike. -/
theorem Alike.of_erased {k : Kernel σ} {k' : Kernel τ} (h : k'.erased = k.erased) : Alike k k' := by
  have hpaging : k'.paging.erased = k.paging.erased := congrArg Kernel.paging h
  have hprocessor : k'.paging.processor.erased = k.paging.processor.erased :=
    congrArg Paging.processor hpaging
  have hswap : k'.paging.swap.erased = k.paging.swap.erased := congrArg Paging.swap hpaging
  have hlength : ∀ memory : Array (List UInt8),
      (memory.map blank).map List.length = memory.map List.length := by
    intro memory
    rw [Array.map_map]
    exact congrArg (memory.map ·) (funext fun _ => length_blank)
  have hpageSize := congrArg Processor.pageSize hprocessor
  have hcache := congrArg Processor.cache hprocessor
  have hbadAddress := congrArg Processor.badAddress hprocessor
  have hmemory := congrArg (fun p => p.memory.map List.length) hprocessor
  refine ⟨congrArg config h, congrArg Paging.frameTable hpaging, congrArg Paging.tables hpaging,
    congrArg Paging.policy hpaging, congrArg Paging.rng hpaging, congrArg Paging.counters hpaging,
    hpageSize, hcache, hbadAddress, ?_, congrArg SwapArea.numSlots hswap,
    congrArg SwapArea.slots hswap, congrArg SwapArea.owners hswap, congrArg SwapArea.free hswap,
    congrArg region h, congrArg cpu h, congrArg swapLock h, congrArg slotFreed h,
    congrArg waiting h, congrArg pids h, congrArg processes h, congrArg sessions h⟩
  rw [← hlength k'.paging.processor.memory, ← hlength k.paging.processor.memory]
  exact hmemory

section Runs

variable [Extent σ] [Extent.Reliable σ] {frames : Nat} {k : Kernel σ}

/-- What an event leads to without byte values. -/
theorem perform_erased (hs : k.paging.Whole frames) (e : Event) :
    k.erased.perform e.erased = erasedOutcome (k.perform e) ∧
      ∀ r k', k.perform e = some (.ok (r, k')) → k'.paging.Whole frames := by
  have h := perform_mirrored hs e
  revert h
  generalize k.perform e = outcome
  generalize k.erased.perform e.erased = outcome'
  intro h
  cases h with
  | none => exact ⟨rfl, fun _ _ h => by cases h⟩
  | some h =>
      refine ⟨congrArg some h.1, fun r k' hx => ?_⟩
      exact h.2 (r, k') (Option.some.inj hx)

/-- Events one after the other, without byte values. -/
theorem performAll_erased (hs : k.paging.Whole frames) (events : List Event) :
    k.erased.performAll (events.map Event.erased) =
        (k.performAll events).map (fun x => (x.1.map erasedEntry, x.2.erased)) ∧
      ∀ trace k', k.performAll events = some (trace, k') → k'.paging.Whole frames := by
  induction events generalizing k with
  | nil =>
      refine ⟨rfl, fun trace k' h => ?_⟩
      obtain ⟨-, rfl⟩ := Prod.mk.inj (Option.some.inj h)
      exact hs
  | cons e rest ih =>
      obtain ⟨herased, hwhole⟩ := perform_erased hs e
      rw [List.map_cons, performAll_cons, performAll_cons, herased]
      cases hperform : k.perform e with
      | none => exact ⟨rfl, fun _ _ h => by cases h⟩
      | some result =>
          cases result with
          | error halt => exact ⟨rfl, fun _ _ h => by cases h⟩
          | ok x =>
              obtain ⟨r, k₁⟩ := x
              obtain ⟨hrest, hwhole'⟩ := ih (hwhole r k₁ hperform)
              refine ⟨?_, fun trace k' h => ?_⟩
              · show (k₁.erased.performAll (rest.map Event.erased)).map _ = _
                rw [hrest, Option.map_map, Option.map_map]
                rfl
              · obtain ⟨⟨trace₁, k₂⟩, hperformAll, heq⟩ := Option.map_eq_some_iff.1 h
                obtain ⟨-, rfl⟩ := Prod.mk.inj heq
                exact hwhole' trace₁ k₂ hperformAll

/-- A machine that has just been booted has the frames of its configuration and a sound swap
area. -/
theorem boot_whole {c : Config} {extent : σ} (hintact : Extent.Reliable.Intact extent)
    (hboot : boot c extent = .ok (.ok k)) : k.paging.Whole c.frames := by
  obtain ⟨-, paging, hfresh, rfl⟩ := exists_of_boot hboot
  obtain ⟨frameTable, swap, -, hswap, rfl⟩ := exists_of_freshPaging hfresh
  exact ⟨(SwapArea.create_sound hintact hswap).1, Array.size_replicate⟩

end Runs

/-- What is in an extent has no part in booting. -/
theorem boot_erased [Extent σ] [Extent τ] (c : Config) {extent : σ} {extent' : τ}
    (hlength : Extent.length extent' = Extent.length extent) :
    (boot c extent').map (Except.map erased) = (boot c extent).map (Except.map erased) := by
  have hfresh : (freshPaging c extent').map Paging.erased =
      (freshPaging c extent).map Paging.erased := by
    rw [freshPaging, freshPaging]
    cases Processor.create c.frames c.pageSize c.cacheSize with
    | error halt => rfl
    | ok processor =>
        cases FrameTable.create c.frames with
        | error halt => rfl
        | ok frameTable =>
            show ((SwapArea.create extent' c.pageSize).bind _).map _ =
              ((SwapArea.create extent c.pageSize).bind _).map _
            rw [SwapArea.create, SwapArea.create, hlength]
            split
            · rfl
            · cases Address.refuseBlock (Extent.length extent / c.pageSize)
                SwapArea.slotNumberBytes <;> rfl
  have hkernel : ∀ {ρ : Type} (x : Except Halt (Paging ρ)),
      (x.map fun paging => (.ok { config := c, paging } : Except ConfigError (Kernel ρ))).map
          (Except.map erased) =
        (x.map Paging.erased).map fun paging => .ok { config := c, paging } := by
    intro ρ x
    cases x <;> rfl
  rw [boot, boot, hlength]
  split
  · rfl
  · split
    · rfl
    · rw [hkernel, hkernel, hfresh]

/-- Byte values decide nothing. A machine is booted on an extent, and one of the same configuration
on another extent of the same length. As long as their events differ in byte values only, the two
stay alike and answer alike; and whatever may happen next to the one may happen to the other, with
the same answer, the same error or the same halt. -/
theorem runs_alike [Extent σ] [Extent.Reliable σ] [Extent τ] [Extent.Reliable τ] {c : Config}
    {extent : σ} {extent' : τ} (hintact : Extent.Reliable.Intact extent)
    (hintact' : Extent.Reliable.Intact extent')
    (hlength : Extent.length extent' = Extent.length extent) {k₀ : Kernel σ}
    (hboot : boot c extent = .ok (.ok k₀)) :
    ∃ k₀' : Kernel τ, boot c extent' = .ok (.ok k₀') ∧ Alike k₀ k₀' ∧
      ∀ {events events' : List Event} {trace : List (Event × Option (Response σ))} {k : Kernel σ},
        events'.map Event.erased = events.map Event.erased →
        k₀.performAll events = some (trace, k) →
        ∃ trace' k', k₀'.performAll events' = some (trace', k') ∧
          trace'.map erasedEntry = trace.map erasedEntry ∧ Alike k k' ∧
          ∀ next next' : Event, next'.erased = next.erased →
            erasedOutcome (k'.perform next') = erasedOutcome (k.perform next) := by
  have hbooted := boot_erased c hlength
  rw [hboot] at hbooted
  obtain ⟨booted, hboot', hok⟩ := ok_of_map hbooted
  cases booted with
  | error cause => cases hok
  | ok k₀' =>
      have hk₀ : k₀'.erased = k₀.erased := Except.ok.inj hok
      have hwhole := boot_whole hintact hboot
      have hwhole' := boot_whole hintact' hboot'
      refine ⟨k₀', hboot', .of_erased hk₀, fun {events events' trace k} hevents hrun => ?_⟩
      obtain ⟨hall, hkept⟩ := performAll_erased hwhole events
      obtain ⟨hall', hkept'⟩ := performAll_erased hwhole' events'
      -- without byte values the two runs are one
      rw [hk₀, hevents, hall, hrun] at hall'
      obtain ⟨⟨trace', k'⟩, hrun', heq⟩ := Option.map_eq_some_iff.1 hall'.symm
      obtain ⟨htrace, hk⟩ := Prod.mk.inj heq
      refine ⟨trace', k', hrun', htrace, .of_erased hk, fun next next' hnext => ?_⟩
      rw [← (perform_erased (hkept trace k hrun) next).1,
        ← (perform_erased (hkept' trace' k' hrun') next').1, hk, hnext]

/-- The small image with another byte. -/
def otherImage : Image :=
  ⟨[{ firstPage := 0, numPages := 1, readOnly := true, data := [8] }], 1, by decide⟩

/-- What happens to the small machine, with another image and another byte stored. -/
def otherEvents : List Event :=
  [Event.spawn otherImage, .start 0, .advance 0, .advance 0] ++ turn 0 (.write 1 6) 4 ++
    turn 0 (.read 0) 4 ++ turn 0 (.read 1) 5

/-- An extent of one byte that is not zero. -/
def otherExtent : MemoryExtent := ⟨(SparseBytes.zeros 1).put 0 [9]⟩

/-- The small machine evicts, saves and fetches the same pages at the same times whichever bytes are
in them. -/
theorem runs_alike_small :
    Extent.Reliable.Intact (⟨.zeros 1⟩ : MemoryExtent) ∧ Extent.Reliable.Intact otherExtent ∧
      Extent.length otherExtent = Extent.length (⟨.zeros 1⟩ : MemoryExtent) ∧
      ∃ (k₀ k₀' k k' : Kernel MemoryExtent)
        (trace trace' : List (Event × Option (Response MemoryExtent))),
        boot smallConfig (⟨.zeros 1⟩ : MemoryExtent) = .ok (.ok k₀) ∧
          boot smallConfig otherExtent = .ok (.ok k₀') ∧
          otherEvents.map Event.erased = smallEvents.map Event.erased ∧
          k₀.performAll smallEvents = some (trace, k) ∧
          k₀'.performAll otherEvents = some (trace', k') ∧
          trace'.map erasedEntry = trace.map erasedEntry ∧ Alike k k' ∧
          (Event.ask 0 (.write 1 6)).erased = (Event.ask 0 (.write 1 5)).erased ∧
          erasedOutcome (k'.perform (.ask 0 (.write 1 6))) =
            erasedOutcome (k.perform (.ask 0 (.write 1 5))) := by
  have hlength : Extent.length otherExtent = Extent.length (⟨.zeros 1⟩ : MemoryExtent) := rfl
  have hevents : otherEvents.map Event.erased = smallEvents.map Event.erased := rfl
  obtain ⟨k₀, k, trace, hboot, hall, -⟩ := small_run
  have hintact : Extent.Reliable.Intact (⟨.zeros 1⟩ : MemoryExtent) :=
    MemoryExtent.intact_zeros (by decide)
  have hintact' : Extent.Reliable.Intact otherExtent := hintact
  obtain ⟨k₀', hboot', -, halike⟩ := runs_alike hintact hintact' hlength hboot
  obtain ⟨trace', k', hall', htrace, hk, hnext⟩ := halike hevents hall
  exact ⟨hintact, hintact', hlength, k₀, k₀', k, k', trace, trace', hboot, hboot', hevents, hall,
    hall', htrace, hk, rfl, hnext _ _ rfl⟩

end Kernel

end DemandPaging
