import DemandPaging.Proofs.Kernel.Runs
import DemandPaging.Proofs.Paging.Audit

/-!
# The frame table and the page tables are inverse to each other

In every state that threads can bring about, a frame belongs to a page if and only if the entry of
the page is valid and has that frame. So the audit never finds anything wrong.
-/

namespace DemandPaging.Kernel

variable {σ : Type} [Extent σ] [Extent.Reliable σ]

/-- After every run the two tables are inverse to each other, an entry has a frame if and only if it
is valid, and the audit passes. -/
theorem Run.tables_inverse {c : Config} {extent : σ} (hintact : Extent.Reliable.Intact extent)
    {k₀ k : Kernel σ} (hboot : boot c extent = .ok (.ok k₀))
    {trace : List (Event × Option (Response σ))} (hrun : Run k₀ trace k) :
    (∀ (f : Nat) (pid : Pid) (v : Nat), k.paging.frameTable.owner f = some ⟨pid, v⟩ ↔
        ∃ table e, k.paging.tables[pid]? = some table ∧ table.entries[v]? = some e ∧
          e.valid = true ∧ e.frame = some f) ∧
      (∀ (pid : Pid) (table : PageTable) (v : Nat) (e : PageEntry),
        k.paging.tables[pid]? = some table → table.entries[v]? = some e →
          (e.valid = true ↔ ∃ f, e.frame = some f)) ∧
      k.paging.audit = .ok () := by
  obtain ⟨m, -, hsound⟩ := hrun.simulated hintact hboot
  obtain ⟨running, -, hpaging⟩ := hsound.paging
  have hvalid : ∀ (pid : Pid) (table : PageTable) (v : Nat) (e : PageEntry),
      k.paging.tables[pid]? = some table → table.entries[v]? = some e →
        (e.valid = true ↔ ∃ f, e.frame = some f) := by
    intro pid table v e ht he
    have := hpaging.inverse.valid_eq ⟨pid, v⟩ e ((PageTables.find?_of_table ht v).trans he)
    rw [this, Option.isSome_iff_exists]
  refine ⟨fun f pid v => ?_, hvalid, hpaging.audit_eq_ok⟩
  rw [hpaging.inverse.owner_iff]
  constructor
  · rintro ⟨e, he, hframe⟩
    obtain ⟨table, ht, he⟩ := Option.bind_eq_some_iff.1 he
    exact ⟨table, e, ht, he, (hvalid pid table v e ht he).2 ⟨f, hframe⟩, hframe⟩
  · rintro ⟨table, e, ht, he, -, hframe⟩
    exact ⟨e, (PageTables.find?_of_table ht v).trans he, hframe⟩

/-- The page of the image is in the only frame, so its entry is valid, and that of the stack, which
is in swap, has neither a frame nor a valid entry. -/
theorem tables_inverse_small : ∃ (k₀ k : Kernel MemoryExtent)
    (trace : List (Event × Option (Response MemoryExtent))) (table : PageTable)
    (present absent : PageEntry),
    boot smallConfig (⟨.zeros 1⟩ : MemoryExtent) = .ok (.ok k₀) ∧
      k₀.performAll savedEvents = some (trace, k) ∧ Run k₀ trace k ∧
      k.paging.frameTable.owner 0 = some ⟨1, 0⟩ ∧ k.paging.tables[(1 : Pid)]? = some table ∧
      table.entries[0]? = some present ∧ present.valid = true ∧ present.frame = some 0 ∧
      table.entries[1]? = some absent ∧ absent.valid = false ∧ (∀ f, absent.frame ≠ some f) ∧
      (∀ f, k.paging.frameTable.owner f ≠ some ⟨1, 1⟩) ∧ k.paging.audit = .ok () := by
  have hlast : holdsAfter smallConfig savedEvents (fun k =>
      decide (k.paging.frameTable.owner 0 = some ⟨1, 0⟩) &&
        (k.paging.tables.find? ⟨1, 1⟩).any fun e => !e.valid) = true := by
    decide +kernel
  obtain ⟨k₀, k, trace, hboot, hall, hrun, hk⟩ := run_of_holdsAfter (by decide) hlast
  rw [Bool.and_eq_true, decide_eq_true_iff, Option.any_eq_true] at hk
  obtain ⟨howner, absent, hfind, hinvalid⟩ := hk
  rw [Bool.not_eq_true'] at hinvalid
  obtain ⟨hinverse, hvalid, haudit⟩ :=
    hrun.tables_inverse (MemoryExtent.intact_zeros (by decide)) hboot
  obtain ⟨table, present, htable, hpresent, hv, hf⟩ := (hinverse 0 1 0).1 howner
  have habsent : table.entries[1]? = some absent :=
    (PageTables.find?_of_table htable 1).symm.trans hfind
  refine ⟨k₀, k, trace, table, present, absent, hboot, hall, hrun, howner, htable, hpresent, hv, hf,
    habsent, hinvalid, fun f hf => ?_, fun f hf => ?_, haudit⟩
  · rw [(hvalid 1 table 1 absent htable habsent).2 ⟨f, hf⟩] at hinvalid
    cases hinvalid
  · obtain ⟨table', e, htable', he, hv', -⟩ := (hinverse f 1 1).1 hf
    obtain rfl := Option.some.inj (htable.symm.trans htable')
    obtain rfl := Option.some.inj (habsent.symm.trans he)
    rw [hv'] at hinvalid
    cases hinvalid

end DemandPaging.Kernel
