import DemandPaging.Proofs.Kernel.Courses
import DemandPaging.Proofs.Kernel.Runs

/-!
# Numbers of processes

The counter of process numbers refuses zero once each time it comes round, and then it goes on with
one. So a number comes back, but not before a call has been refused (`PidCounter.refused_between`).

In a course the same holds of the processes: two of them have one number only if a request for a
process was refused in between, since the numbers had run out (`Kernel.Course.numbers_distinct`).
-/

namespace DemandPaging

namespace PidCounter

/-- What calls for a number give, so many of them one after the other. A call that halts is caught,
and the next one goes on. -/
def drawAll (a : PidCounter) : Nat → List (Except Halt Pid)
  | 0 => []
  | n + 1 => a.allocate.1 :: a.allocate.2.drawAll n

/-- The counter after so many calls. -/
def after (a : PidCounter) (i : Nat) : PidCounter := ⟨a.next + UInt16.ofNat i⟩

variable {a : PidCounter} {i j n : Nat} {pid : Pid}

theorem after_zero (a : PidCounter) : a.after 0 = a := by
  rw [after]
  exact congrArg PidCounter.mk (UInt16.add_zero a.next)

theorem allocate_after (a : PidCounter) (i : Nat) : a.allocate.2.after i = a.after (i + 1) := by
  rw [after, after, allocate, UInt16.ofNat_add, UInt16.add_assoc, UInt16.add_comm (UInt16.ofNat i)]
  rfl

theorem after_succ (a : PidCounter) (i : Nat) : a.after (i + 1) = ⟨(a.after i).next + 1⟩ := by
  rw [after, after, UInt16.ofNat_add, UInt16.add_assoc]
  rfl

theorem toNat_next_after (a : PidCounter) (i : Nat) :
    (a.after i).next.toNat = (a.next.toNat + i) % 2 ^ 16 := by
  rw [after, UInt16.toNat_add, UInt16.toNat_ofNat', Nat.add_mod_mod]

theorem allocate_eq_ok_iff : a.allocate.1 = .ok pid ↔ pid ≠ 0 ∧ a.next = pid := by
  rw [allocate]
  constructor
  · intro h
    split at h
    · cases h
    · rename_i hnext
      obtain rfl := Except.ok.inj h
      exact ⟨hnext, rfl⟩
  · rintro ⟨hpid, rfl⟩
    exact if_neg hpid

theorem allocate_refused (h : a.next = 0) : a.allocate.1 = .error .pidsExhausted := if_pos h

theorem length_drawAll (a : PidCounter) (n : Nat) : (a.drawAll n).length = n := by
  induction n generalizing a with
  | zero => rfl
  | succ n ih => rw [drawAll, List.length_cons, ih]

theorem getElem?_drawAll (a : PidCounter) (h : i < n) :
    (a.drawAll n)[i]? = some (a.after i).allocate.1 := by
  induction n generalizing a i with
  | zero => exact absurd h (Nat.not_lt_zero i)
  | succ n ih =>
      cases i with
      | zero => rw [after_zero, drawAll, List.getElem?_cons_zero]
      | succ i =>
          rw [drawAll, List.getElem?_cons_succ, ih _ (Nat.lt_of_succ_lt_succ h), allocate_after]

/-- Call `i` of a fresh counter gives the number after `i`, unless that is zero in 16 bits. -/
theorem getElem?_drawAll_fresh (h : i < n) :
    (fresh.drawAll n)[i]? = some (if (i + 1) % 2 ^ 16 = 0 then .error .pidsExhausted
      else .ok (UInt16.ofNat (i + 1))) := by
  have hnext : (fresh.after i).next = UInt16.ofNat (i + 1) := by
    rw [UInt16.ofNat_add, UInt16.add_comm]
    rfl
  have hzero : UInt16.ofNat (i + 1) = 0 ↔ (i + 1) % 2 ^ 16 = 0 := by
    rw [← UInt16.toNat_inj, UInt16.toNat_ofNat']
    rfl
  simp only [getElem?_drawAll _ h, allocate, hnext, hzero]

theorem getElem?_drawAll_eq_ok (h : (a.drawAll n)[i]? = some (.ok pid)) :
    i < n ∧ pid ≠ 0 ∧ (a.after i).next = pid := by
  have hi : i < n := by
    rw [← a.length_drawAll n]
    exact (List.getElem?_eq_some_iff.1 h).1
  rw [getElem?_drawAll a hi] at h
  exact ⟨hi, allocate_eq_ok_iff.1 (Option.some.inj h)⟩

theorem zero_not_drawn (a : PidCounter) (n : Nat) : Except.ok 0 ∉ a.drawAll n := by
  intro h
  obtain ⟨i, hi⟩ := List.mem_iff_getElem?.1 h
  obtain ⟨-, hzero, -⟩ := getElem?_drawAll_eq_ok hi
  exact hzero rfl

/-- Between two calls that give the same number there is one that is refused. -/
theorem refused_between (hij : i < j) (hi : (a.drawAll n)[i]? = some (.ok pid))
    (hj : (a.drawAll n)[j]? = some (.ok pid)) :
    ∃ m, i < m ∧ m < j ∧ (a.drawAll n)[m]? = some (.error .pidsExhausted) := by
  obtain ⟨-, hpid, hnext⟩ := getElem?_drawAll_eq_ok hi
  obtain ⟨hlt, -, hnext'⟩ := getElem?_drawAll_eq_ok hj
  have hpos : 0 < pid.toNat := UInt16.pos_iff_ne_zero.2 hpid
  have hround : pid.toNat < 2 ^ 16 := pid.toNat_lt
  have hcount := toNat_next_after a i
  have hcount' := toNat_next_after a j
  rw [hnext] at hcount
  rw [hnext'] at hcount'
  -- the call at which the counter has come round
  have hm : i + (2 ^ 16 - pid.toNat) < j := by omega
  refine ⟨i + (2 ^ 16 - pid.toNat), by omega, hm, ?_⟩
  rw [getElem?_drawAll a (hm.trans hlt), allocate_refused]
  apply UInt16.toNat_inj.1
  rw [toNat_next_after]
  show _ = 0
  omega

end PidCounter

theorem PageTables.add_ne_exhausted (t : PageTables) (pid : Pid) (numPages : Nat) :
    t.add pid numPages ≠ .error .pidsExhausted := by
  rw [add, Address.refuseBlock]
  intro h
  split at h
  · change (if t.contains pid then _ else _) = _ at h
    split at h <;> cases h
  · cases h

namespace Kernel

variable {σ : Type} {k₀ k k' : Kernel σ} {e : Event} {m : Moment σ} {history : List (Moment σ)}

/-- The numbers of all processes, those that have ended among them. -/
def numbers (k : Kernel σ) : List Pid := k.processes.map fun p => p.pid

theorem numbers_added (k : Kernel σ) (image : Image) :
    (k.added (k.newcomer image)).numbers = k.numbers ++ [k.pids.next] :=
  List.map_append

/-- The request that is refused when the numbers have run out. -/
theorem spawn_exhausted {image : Image} (hfits : imageFault k.config image = none)
    (hnext : k.pids.next = 0) :
    k.spawn image = (.error .pidsExhausted, { k with pids := ⟨1⟩ }) := by
  simp only [spawn, hfits, PidCounter.allocate, hnext, if_pos]
  rfl

/-- A request for a process is refused in this moment, since the numbers have run out. -/
def Moment.RanOut (m : Moment σ) : Prop :=
  ∃ image, m.event = .spawn image ∧ (m.before.spawn image).1 = .error .pidsExhausted

theorem Moment.ranOut_of_zero {image : Image} (hevent : m.event = .spawn image)
    (hfits : imageFault m.before.config image = none) (hnext : m.before.pids.next = 0) :
    m.RanOut := by
  refine ⟨image, hevent, ?_⟩
  rw [spawn_exhausted hfits hnext]

/-- No other halt says that the numbers have run out. -/
theorem Moment.RanOut.next_eq_zero (h : m.RanOut) : m.before.pids.next = 0 := by
  obtain ⟨image, -, hhalt⟩ := h
  rw [spawn] at hhalt
  split at hhalt
  · cases hhalt
  · by_contra hnext
    simp only [PidCounter.allocate, if_neg hnext] at hhalt
    cases hadd : PageTables.add m.before.paging.tables m.before.pids.next
        (UserProcess.addressSpace image m.before.config.stackPages) with
    | ok tables =>
        rw [hadd] at hhalt
        cases hhalt
    | error halt =>
        rw [hadd] at hhalt
        obtain rfl : halt = .pidsExhausted := Except.error.inj hhalt
        exact PageTables.add_ne_exhausted _ _ _ hadd

/-- An event either leaves the numbers alone, or it draws one, which a process may be given. -/
theorem Booked.numbers_cases (h : k.Booked e k') :
    k'.pids.next = k.pids.next ∧ k'.numbers = k.numbers ∨
      ∃ image, e = .spawn image ∧ imageFault k.config image = none ∧
        k'.pids.next = k.pids.next + 1 ∧
          (k'.numbers = k.numbers ∨ k.pids.next ≠ 0 ∧ k'.numbers = k.numbers ++ [k.pids.next]) := by
  cases h with
  | goes _ hnext hprocesses _ _ =>
      exact .inl ⟨hnext, by rw [numbers, hprocesses, numbers]⟩
  | ends _ _ _ hnext hprocesses _ _ =>
      refine .inl ⟨hnext, ?_⟩
      apply List.ext_getElem?
      intro i
      rw [numbers, hprocesses, markExited, numbers, List.getElem?_map, List.getElem?_modify,
        List.getElem?_map]
      cases k.processes[i]? with
      | none => rfl
      | some p => split <;> rfl
  | draws hevent hfits _ hpids hprocesses _ _ =>
      refine .inr ⟨_, hevent, hfits, by rw [hpids]; rfl, ?_⟩
      rcases hprocesses with hprocesses | ⟨p, hdrawn, -, hprocesses⟩
      · exact .inl (by rw [numbers, hprocesses, numbers])
      · obtain ⟨hpid, hnext⟩ := PidCounter.allocate_eq_ok_iff.1 hdrawn
        refine .inr ⟨hnext ▸ hpid, ?_⟩
        rw [numbers, hprocesses, List.map_append, hnext, numbers]
        rfl

/-- A request for a process was refused when process `i` was there and process `j` was not yet. -/
def RefusedBetween (history : List (Moment σ)) (i j : Nat) : Prop :=
  ∃ m ∈ history, m.RanOut ∧ i < m.before.numbers.length ∧ m.before.numbers.length ≤ j

theorem RefusedBetween.mono {history' : List (Moment σ)} {i j j' : Nat}
    (h : RefusedBetween history i j) (hsub : history ⊆ history') (hj : j ≤ j') :
    RefusedBetween history' i j' := by
  obtain ⟨m, hm, hran, hi, hle⟩ := h
  exact ⟨m, hsub hm, hran, hi, hle.trans hj⟩

/-- What is known of the numbers of all processes and of the next number after some moments. Until a
request is refused, no number is above the one before the next. -/
structure Numbered (history : List (Moment σ)) (numbers : List Pid) (next : Pid) : Prop where
  nonzero : 0 ∉ numbers
  below : ∀ i pid, numbers[i]? = some pid →
    pid ≤ next - 1 ∨ RefusedBetween history i numbers.length
  refused : ∀ i j pid, i < j → numbers[i]? = some pid → numbers[j]? = some pid →
    RefusedBetween history i j

theorem lt_of_le_sub_one {pid next : Pid} (hnext : next ≠ 0) (h : pid ≤ next - 1) :
    pid < next := by
  grind

namespace Numbered

variable {history' : List (Moment σ)} {numbers : List Pid} {next : Pid}

theorem nil (next : Pid) : Numbered history [] next := by
  refine ⟨List.not_mem_nil, ?_, ?_⟩
  · intro i pid hi
    cases hi
  · intro i j pid hij hi
    cases hi

theorem mono (h : Numbered history numbers next) (hsub : history ⊆ history') :
    Numbered history' numbers next := by
  refine ⟨h.nonzero, ?_, fun i j pid hij hi hj => (h.refused i j pid hij hi hj).mono hsub le_rfl⟩
  intro i pid hi
  exact (h.below i pid hi).imp_right fun href => href.mono hsub le_rfl

/-- The counter moves on. -/
theorem moveOn (h : Numbered history numbers next)
    (hzero : next = 0 → ∀ i < numbers.length, RefusedBetween history i numbers.length) :
    Numbered history numbers (next + 1) := by
  refine ⟨h.nonzero, ?_, h.refused⟩
  intro i pid hi
  rw [UInt16.add_sub_cancel]
  by_cases hnext : next = 0
  · exact .inr (hzero hnext i (List.getElem?_eq_some_iff.1 hi).1)
  · exact (h.below i pid hi).imp_left fun hle =>
      UInt16.le_of_lt (lt_of_le_sub_one hnext hle)

/-- The next number is given to a process. If another one has it, a request was refused since. -/
theorem add (h : Numbered history numbers next) (hnext : next ≠ 0) :
    Numbered history (numbers ++ [next]) (next + 1) := by
  have hmoved : Numbered history numbers (next + 1) := h.moveOn fun hzero => absurd hzero hnext
  have hcases : ∀ i pid, (numbers ++ [next])[i]? = some pid →
      numbers[i]? = some pid ∨ i = numbers.length ∧ pid = next := by
    intro i pid hi
    grind
  refine ⟨?_, ?_, ?_⟩
  · simp [h.nonzero, hnext.symm]
  · intro i pid hi
    rw [List.length_append, List.length_singleton]
    rcases hcases i pid hi with hi | ⟨-, rfl⟩
    · exact (hmoved.below i pid hi).imp_right fun href =>
        href.mono (List.Subset.refl _) (Nat.le_succ _)
    · left
      rw [UInt16.add_sub_cancel]
      exact UInt16.le_refl pid
  · intro i j pid hij hi hj
    rcases hcases j pid hj with hj | ⟨rfl, rfl⟩
    · rcases hcases i pid hi with hi | ⟨rfl, -⟩
      · exact h.refused i j pid hij hi hj
      · exact absurd (List.getElem?_eq_some_iff.1 hj).1 (Nat.not_lt_of_lt hij)
    · rcases hcases i pid hi with hi | ⟨rfl, -⟩
      · -- the counter is past the number, unless it has come round
        rcases h.below i pid hi with hle | href
        · exact absurd (lt_of_le_sub_one hnext hle) (UInt16.lt_irrefl pid)
        · exact href
      · exact absurd hij (lt_irrefl _)

end Numbered

variable [Extent σ]

theorem Course.numbered (hfree : k₀.region = {})
    (hstart : Numbered ([] : List (Moment σ)) k₀.numbers k₀.pids.next) (h : Course k₀ history k) :
    Numbered history k.numbers k.pids.next := by
  induction h with
  | nil => exact hstart
  | @step history m hcourse hm ih =>
      have hkept := ih.mono (List.subset_append_left history [m])
      rcases (hm.booked (hcourse.region_eq hfree)).numbers_cases with
        ⟨hnext, hnumbers⟩ | ⟨image, hevent, hfits, hnext, hnumbers⟩
      · rw [hnext, hnumbers]
        exact hkept
      · rw [hnext]
        rcases hnumbers with hnumbers | ⟨hne, hnumbers⟩
        · rw [hnumbers]
          apply hkept.moveOn
          intro hzero i hi
          exact ⟨m, List.mem_append_right _ (List.mem_singleton_self m),
            Moment.ranOut_of_zero hevent hfits hzero, hi, le_rfl⟩
        · rw [hnumbers]
          exact hkept.add hne

/-! ## Adding processes -/

omit [Extent σ] in
/-- A process is added with the next number, if that has no page table yet. -/
theorem spawn_added {image : Image} (hfits : imageFault k.config image = none)
    (hnext : k.pids.next ≠ 0) (hnew : k.paging.tables[k.pids.next]? = none) :
    k.spawn image = (.ok (.ok k.processes.length), k.added (k.newcomer image)) := by
  obtain ⟨-, hlarge⟩ := imageFault_eq_none hfits
  have hnot : k.paging.tables.contains k.pids.next = false := by
    rw [← Std.TreeMap.isSome_getElem?_eq_contains, hnew]
    rfl
  have hadd : PageTables.add k.paging.tables k.pids.next
      (UserProcess.addressSpace image k.config.stackPages) = .ok (k.paging.tables.insert k.pids.next
        (PageTable.create (UserProcess.addressSpace image k.config.stackPages))) := by
    rw [PageTables.add, PageTables.refuseBlock_eq_ok hlarge, hnot]
    rfl
  simp only [spawn, hfits, PidCounter.allocate, if_neg hnext, hadd]
  rfl

theorem Course.add (h : Course k₀ history k) {image : Image}
    (hfits : imageFault k.config image = none) (hnext : k.pids.next ≠ 0)
    (hnew : k.paging.tables[k.pids.next]? = none) :
    ∃ history', Course k₀ history' (k.added (k.newcomer image)) := by
  have hperform : k.perform (.spawn image) =
      some (.ok (some (.spawned k.processes.length), k.added (k.newcomer image))) := by
    rw [perform, spawn_added hfits hnext hnew]
  have hhappens : Moment.Happens ⟨k, .spawn image, k.added (k.newcomer image)⟩ :=
    .performed hperform
  exact ⟨_, Course.step h hhappens⟩

theorem Course.refuse (h : Course k₀ history k) {image : Image}
    (hfits : imageFault k.config image = none) (hnext : k.pids.next = 0) :
    ∃ history', Course k₀ history' { k with pids := ⟨1⟩ } := by
  have hhappens : Moment.Happens ⟨k, .spawn image, { k with pids := ⟨1⟩ }⟩ :=
    .caught (spawn_exhausted hfits hnext)
  exact ⟨_, Course.step h hhappens⟩

/-- Processes are added, one after the other, while there are numbers left and none of these has a
page table. The counter moves on by as many, and the page tables of other numbers are left alone. -/
theorem Course.exists_add (h : Course k₀ history k) {image : Image}
    (hfits : imageFault k.config image = none) (hpos : k.pids.next ≠ 0)
    (hnew : ∀ pid, k.pids.next ≤ pid → k.paging.tables[pid]? = none) (n : Nat)
    (hround : k.pids.next.toNat + n ≤ 2 ^ 16) :
    ∃ history' k', Course k₀ history' k' ∧ k'.config = k.config ∧ k'.pids = k.pids.after n ∧
      (∃ l, l.length = n ∧ k'.numbers = k.numbers ++ l) ∧
      ∀ pid : Pid, pid < k.pids.next ∨ k.pids.next.toNat + n ≤ pid.toNat →
        k'.paging.tables[pid]? = k.paging.tables[pid]? := by
  induction n with
  | zero =>
      exact ⟨history, k, h, rfl, (k.pids.after_zero).symm, ⟨[], rfl, (List.append_nil _).symm⟩,
        fun _ _ => rfl⟩
  | succ n ih =>
      obtain ⟨history', k', hcourse, hconfig, hpids, ⟨l, hlen, hnumbers⟩, htables⟩ := ih (by omega)
      have hcount : k'.pids.next.toNat = k.pids.next.toNat + n := by
        rw [hpids, PidCounter.toNat_next_after, Nat.mod_eq_of_lt (by omega)]
      have hpos' : 0 < k.pids.next.toNat := UInt16.pos_iff_ne_zero.2 hpos
      have hnext : k'.pids.next ≠ 0 := by
        apply UInt16.pos_iff_ne_zero.1
        show 0 < k'.pids.next.toNat
        omega
      have hnone : k'.paging.tables[k'.pids.next]? = none := by
        rw [htables _ (.inr hcount.ge)]
        apply hnew
        rw [UInt16.le_iff_toNat_le]
        omega
      obtain ⟨history'', hadded⟩ := hcourse.add (hconfig ▸ hfits) hnext hnone
      refine ⟨history'', _, hadded, hconfig, ?_, ⟨l ++ [k'.pids.next], ?_, ?_⟩, ?_⟩
      · rw [PidCounter.after_succ, ← hpids]
        rfl
      · rw [List.length_append, hlen, List.length_singleton]
      · rw [← List.append_assoc, ← hnumbers, numbers_added]
      · intro pid hpid
        rw [← htables pid (hpid.imp_right Nat.le_of_succ_le)]
        have hne : k'.pids.next ≠ pid := by
          rintro rfl
          rcases hpid with hlt | hle
          · have hlt : k'.pids.next.toNat < k.pids.next.toNat := hlt
            omega
          · omega
        refine Std.TreeMap.getElem?_insert.trans (if_neg ?_)
        exact mt Std.LawfulEqOrd.compare_eq_iff_eq.1 hne

/-! ## What the numbers tell apart -/

/-- The calls of the counter give the numbers in order, and zero is refused. So a number is given
again only after a call was refused, and the same holds of the processes of a kernel: two of them
have one number only if a request for a process was refused in between. -/
theorem Course.numbers_distinct {c : Config} {extent : σ} (hboot : boot c extent = .ok (.ok k₀))
    (h : Course k₀ history k) :
    (∀ n i : Nat, i < n → (PidCounter.fresh.drawAll n)[i]? =
        some (if (i + 1) % 2 ^ 16 = 0 then .error .pidsExhausted else .ok (UInt16.ofNat (i + 1)))) ∧
      (∀ n, Except.ok 0 ∉ PidCounter.fresh.drawAll n) ∧
      (∀ (n i j : Nat) (pid : Pid), i < j → (PidCounter.fresh.drawAll n)[i]? = some (.ok pid) →
        (PidCounter.fresh.drawAll n)[j]? = some (.ok pid) → ∃ m, i < m ∧ m < j ∧
          (PidCounter.fresh.drawAll n)[m]? = some (.error .pidsExhausted)) ∧
      0 ∉ k.numbers ∧
      (∀ i j pid, i < j → k.numbers[i]? = some pid → k.numbers[j]? = some pid →
        RefusedBetween history i j) ∧
      ((∀ m ∈ history, ¬ m.RanOut) → k.numbers.Nodup) := by
  have hnumbered : Numbered history k.numbers k.pids.next := by
    obtain ⟨-, paging, -, rfl⟩ := exists_of_boot hboot
    exact h.numbered rfl (.nil _)
  refine ⟨fun n i => PidCounter.getElem?_drawAll_fresh, PidCounter.zero_not_drawn _,
    fun n i j pid => PidCounter.refused_between, hnumbered.nonzero, hnumbered.refused, ?_⟩
  intro hnone
  rw [List.nodup_iff_getElem?_ne_getElem?]
  intro i j hij hj heq
  obtain ⟨m, hm, hran, -⟩ := hnumbered.refused i j _ hij (heq.trans (List.getElem?_eq_getElem hj))
    (List.getElem?_eq_getElem hj)
  exact hnone m hm hran

/-- A process that ends as soon as it has been started. -/
def shortEvents : List Event :=
  [.spawn smallImage, .start 0, .advance 0, .advance 0, .ask 0 .exit, .advance 0]

/-- A process that comes after the one that has ended has a number of its own. -/
theorem numbers_distinct_pair : ∃ (k₀ k : Kernel MemoryExtent)
    (history : List (Moment MemoryExtent)),
    boot smallConfig (⟨.zeros 1⟩ : MemoryExtent) = .ok (.ok k₀) ∧ Course k₀ history k ∧
      (∀ m ∈ history, ¬ m.RanOut) ∧ k.numbers = [1, 2] ∧ k.numbers.Nodup := by
  have hholds : holdsOfCourse smallConfig (shortEvents ++ [.spawn smallImage]) (fun history k =>
      history.all (fun m => m.before.pids.next ≠ 0) && k.numbers = [1, 2]) = true := by
    decide +kernel
  obtain ⟨k₀, k, history, hboot, hcourse, hP⟩ := exists_of_holdsOfCourse hholds
  simp only [Bool.and_eq_true, List.all_eq_true, decide_eq_true_eq] at hP
  have hnone : ∀ m ∈ history, ¬ m.RanOut := fun m hm hran => hP.1 m hm hran.next_eq_zero
  obtain ⟨-, -, -, -, -, hnodup⟩ := Course.numbers_distinct hboot hcourse
  exact ⟨k₀, k, history, hboot, hcourse, hnone, hP.2, hnodup hnone⟩

/-- Call 0 and call 65536 of a fresh counter give the same number. And on a machine on which a
process has ended, another one is added with its number after 65534 others, when a request has been
refused and the next one is made. -/
theorem number_given_again :
    (PidCounter.fresh.drawAll 65537)[0]? = some (.ok 1) ∧
      (PidCounter.fresh.drawAll 65537)[65536]? = some (.ok 1) ∧
      ∃ (k₀ k : Kernel MemoryExtent) (history : List (Moment MemoryExtent)),
        boot smallConfig (⟨.zeros 1⟩ : MemoryExtent) = .ok (.ok k₀) ∧ Course k₀ history k ∧
          k.numbers[0]? = some 1 ∧ k.numbers[65535]? = some 1 := by
  refine ⟨PidCounter.getElem?_drawAll_fresh (by decide),
    PidCounter.getElem?_drawAll_fresh (by decide), ?_⟩
  have hholds : holdsOfCourse smallConfig shortEvents (fun _ k =>
      (imageFault k.config smallImage).isNone && k.numbers = [1] && k.pids = ⟨2⟩ &&
        k.paging.tables.isEmpty) = true := by decide +kernel
  obtain ⟨k₀, k₁, history, hboot, hcourse, hP⟩ := exists_of_holdsOfCourse hholds
  simp only [Bool.and_eq_true, decide_eq_true_eq, Option.isNone_iff_eq_none] at hP
  obtain ⟨⟨⟨hfits, hnumbers⟩, hpids⟩, hempty⟩ := hP
  have hnone : ∀ pid : Pid, k₁.paging.tables[pid]? = none := fun pid =>
    Std.TreeMap.getElem?_of_isEmpty hempty
  -- the numbers that are left
  obtain ⟨history₂, k₂, hcourse₂, hconfig₂, hpids₂, ⟨l, hlen, hnumbers₂⟩, htables₂⟩ :=
    hcourse.exists_add hfits (by rw [hpids]; decide) (fun pid _ => hnone pid) 65534
      (by rw [hpids]; decide)
  rw [hpids] at hpids₂
  have hnext₂ : k₂.pids.next = 0 := by rw [hpids₂]; decide
  -- the request that is refused, and the next one
  obtain ⟨history₃, hcourse₃⟩ := hcourse₂.refuse (hconfig₂ ▸ hfits) hnext₂
  have hone : k₂.paging.tables[(1 : Pid)]? = none := by
    rw [htables₂ 1 (.inl (by rw [hpids]; decide)), hnone]
  have hne : (1 : Pid) ≠ 0 := by decide
  obtain ⟨history₄, hcourse₄⟩ := hcourse₃.add (hconfig₂ ▸ hfits) hne hone
  have hnumbers₃ : numbers { k₂ with pids := ⟨1⟩ } = 1 :: l := by
    rw [hnumbers] at hnumbers₂
    exact hnumbers₂
  refine ⟨k₀, _, history₄, hboot, hcourse₄, ?_, ?_⟩
  · rw [numbers_added, hnumbers₃]
    rfl
  · rw [numbers_added, hnumbers₃, List.getElem?_append_right (by rw [List.length_cons, hlen]),
      List.length_cons, hlen]
    rfl

end Kernel

end DemandPaging
