import DemandPaging.Proofs.Extent
import DemandPaging.Proofs.FlatMachine

/-!
# The pages of the flat machine

The memory of a process cut into pages, by process number. These are the contents that the memory
manager has to keep: `FlatMachine.page` is what its invariant is stated for. A new process has the
pages of its image, a store changes one page, and the end of a process changes none.
-/

namespace DemandPaging

/-- Addresses of the same page. -/
theorem Address.page_add {pageSize address i : Nat} (h : 0 < pageSize)
    (hi : Address.offset pageSize address + i < pageSize) :
    Address.page pageSize (address + i) = Address.page pageSize address := by
  have haddress : pageSize * Address.page pageSize address + Address.offset pageSize address =
      address := Nat.div_add_mod address pageSize
  calc (address + i) / pageSize
      = (pageSize * Address.page pageSize address + (Address.offset pageSize address + i)) /
          pageSize := by rw [← Nat.add_assoc, haddress]
    _ = Address.page pageSize address := by
          rw [Nat.mul_add_div h, Nat.div_eq_of_lt hi, Nat.add_zero]

namespace FlatProcess

/-- An address is inside the array when its page is in the address space. -/
theorem lt_size_iff (p : FlatProcess) {pageSize address : Nat} (h : 0 < pageSize) :
    address < p.size pageSize ↔ Address.page pageSize address < p.process.numPages := by
  rw [size, Address.page, Nat.div_lt_iff_lt_mul h]

/-- An address is in a read-only section when its page may not be written. -/
theorem protected_iff (p : FlatProcess) {pageSize address : Nat} (h : 0 < pageSize) :
    p.Protected pageSize address ↔
      p.process.image.isReadOnly (Address.page pageSize address) = true := by
  rw [Protected, Image.isReadOnly_iff]
  refine exists_congr fun s => and_congr_right fun _ => and_congr_right fun _ => ?_
  exact PageRun.covers_iff h

theorem getElem?_load (p : FlatProcess) (address count i : Nat) :
    (p.load address count)[i]? = if i < count then some (p.byteAt (address + i)) else none := by
  rw [load, List.getElem?_map]
  by_cases h : i < count
  · rw [List.getElem?_range h, if_pos h]
    rfl
  · rw [List.getElem?_eq_none (by rw [List.length_range]; omega), if_neg h]
    rfl

@[simp] theorem length_load (p : FlatProcess) (address count : Nat) :
    (p.load address count).length = count := by
  rw [load, List.length_map, List.length_range]

/-- A part of a run of bytes. -/
theorem take_drop_load (p : FlatProcess) {address count offset part : Nat}
    (h : offset + part ≤ count) :
    ((p.load address count).drop offset).take part = p.load (address + offset) part := by
  apply List.ext_getElem?
  intro i
  rw [getElem?_load]
  by_cases hi : i < part
  · rw [List.getElem?_take_of_lt hi, List.getElem?_drop, getElem?_load, if_pos (by omega),
      if_pos hi, Nat.add_assoc]
  · rw [if_neg hi, List.getElem?_eq_none (by rw [List.length_take]; omega)]

/-- A run of bytes with some of them stored. -/
theorem load_store_inside (p : FlatProcess) {address count offset : Nat} {bytes : List UInt8}
    (h : offset + bytes.length ≤ count) :
    (p.store (address + offset) bytes).load address count =
      Extent.patch (p.load address count) offset bytes := by
  apply List.ext_getElem?
  intro i
  rw [getElem?_load, Extent.getElem?_patch (by rw [length_load]; exact h), getElem?_load]
  by_cases hin : offset ≤ i ∧ i < offset + bytes.length
  · have hoff : address + i - (address + offset) = i - offset := by omega
    rw [if_pos (by omega), if_pos hin, List.getElem?_eq_getElem (by omega)]
    simp only [store]
    rw [if_pos (by omega), hoff, List.getD_eq_getElem?_getD, List.getElem?_eq_getElem (by omega)]
    rfl
  · rw [if_neg hin]
    by_cases hi : i < count
    · rw [if_pos hi, if_pos hi]
      simp only [store]
      rw [if_neg (by omega)]
    · rw [if_neg hi, if_neg hi]

/-- A run of bytes apart from those that are stored. -/
theorem load_store_outside (p : FlatProcess) {address count start : Nat} {bytes : List UInt8}
    (h : address + count ≤ start ∨ start + bytes.length ≤ address) :
    (p.store start bytes).load address count = p.load address count := by
  apply List.ext_getElem?
  intro i
  rw [getElem?_load, getElem?_load]
  by_cases hi : i < count
  · rw [if_pos hi, if_pos hi]
    simp only [store]
    rw [if_neg (by omega)]
  · rw [if_neg hi, if_neg hi]

end FlatProcess

namespace FlatMachine

/-- The bytes of a page of a process. -/
def page (m : FlatMachine) (id : PageId) : List UInt8 :=
  match m.processes.find? fun p => p.process.pid = id.pid with
  | some p => p.load (id.page * m.config.pageSize) m.config.pageSize
  | none => []

/-- Processes are numbered from one, in the order they came. -/
def Numbered (m : FlatMachine) : Prop :=
  ∀ (i : Nat) (p : FlatProcess), m.processes[i]? = some p → p.process.pid.toNat = i + 1

variable {m : FlatMachine} {i : Nat} {p : FlatProcess}

theorem Numbered.inj (h : m.Numbered) {j : Nat} {q : FlatProcess} (hp : m.processes[i]? = some p)
    (hq : m.processes[j]? = some q) (heq : p.process.pid = q.process.pid) : i = j := by
  have h1 := h i p hp
  have h2 := h j q hq
  rw [heq] at h1
  omega

/-- The pages of a process are found by its number. -/
theorem Numbered.page_eq (h : m.Numbered) (hp : m.processes[i]? = some p) (v : Nat) :
    m.page ⟨p.process.pid, v⟩ = p.load (v * m.config.pageSize) m.config.pageSize := by
  -- the process is the first with its number, since it is the only one
  have hfind : m.processes.find? (fun q => q.process.pid = p.process.pid) = some p := by
    obtain ⟨hlt, hget⟩ := List.getElem?_eq_some_iff.1 hp
    refine List.find?_eq_some_iff_getElem.2 ⟨by simp, i, hlt, hget, fun j hj => ?_⟩
    have hq := List.getElem?_eq_getElem (Nat.lt_trans hj hlt)
    rw [Bool.not_eq_true', decide_eq_false_iff_not]
    intro heq
    exact Nat.ne_of_lt hj (h.inj hq hp heq)
  rw [page, hfind]

/-- Without a process there are no pages. -/
theorem page_eq_nil {id : PageId}
    (h : ∀ (i : Nat) (p : FlatProcess), m.processes[i]? = some p → p.process.pid ≠ id.pid) :
    m.page id = [] := by
  have hfind : m.processes.find? (fun p => p.process.pid = id.pid) = none := by
    rw [List.find?_eq_none]
    intro p hp
    obtain ⟨i, hi⟩ := List.mem_iff_getElem?.1 hp
    simpa using h i p hi
  rw [page, hfind]

/-- Machines with the same process of a number have the same pages of it. -/
theorem Numbered.page_congr {m' : FlatMachine} (h : m.Numbered) (h' : m'.Numbered)
    (hconfig : m'.config = m.config) {id : PageId}
    (hsame : ∀ (j : Nat) (r : FlatProcess), r.process.pid = id.pid →
      (m'.processes[j]? = some r ↔ m.processes[j]? = some r)) : m'.page id = m.page id := by
  obtain ⟨pid, v⟩ := id
  by_cases hfound : ∃ (j : Nat) (r : FlatProcess), m.processes[j]? = some r ∧ r.process.pid = pid
  · obtain ⟨j, r, hr, rfl⟩ := hfound
    rw [h.page_eq hr, h'.page_eq ((hsame j r rfl).2 hr), hconfig]
  · have hnone : ∀ (j : Nat) (r : FlatProcess), m.processes[j]? = some r → r.process.pid ≠ pid :=
      fun j r hr heq => hfound ⟨j, r, hr, heq⟩
    rw [show m.page ⟨pid, v⟩ = [] from page_eq_nil hnone, page_eq_nil]
    exact fun j r hr heq => hnone j r ((hsame j r heq).1 hr) heq

/-- Processes may have other memories. -/
theorem map_process_setProcess {q q' : FlatProcess} (hq : m.processes[i]? = some q)
    (h : q'.process = q.process) :
    (m.setProcess i q').processes.map FlatProcess.process =
      m.processes.map FlatProcess.process := by
  obtain ⟨hlt, rfl⟩ := List.getElem?_eq_some_iff.1 hq
  show (m.processes.set i q').map FlatProcess.process = _
  rw [List.map_set, h, ← List.map_set, List.set_getElem_self]

theorem getElem?_setProcess {q : FlatProcess} (hq : m.processes[i]? = some q) (q' : FlatProcess)
    (j : Nat) : (m.setProcess i q').processes[j]? = if j = i then some q' else m.processes[j]? := by
  show (m.processes.set i q')[j]? = _
  by_cases h : j = i
  · rw [if_pos h, h, List.getElem?_set_self (List.getElem?_eq_some_iff.1 hq).1]
  · rw [if_neg h, List.getElem?_set_ne (Ne.symm h)]

theorem getElem?_setProcess_self {q : FlatProcess} (hq : m.processes[i]? = some q)
    (q' : FlatProcess) : (m.setProcess i q').processes[i]? = some q' :=
  (getElem?_setProcess hq q' i).trans (if_pos rfl)

/-- The pages of a process replaced by one with the same number. -/
theorem Numbered.setProcess (h : m.Numbered) (hp : m.processes[i]? = some p) {q : FlatProcess}
    (hpid : q.process.pid = p.process.pid) :
    (m.setProcess i q).Numbered ∧ ∀ id, (m.setProcess i q).page id =
      if id.pid = p.process.pid then q.load (id.page * m.config.pageSize) m.config.pageSize
      else m.page id := by
  have hget := getElem?_setProcess hp q
  have hnum : (m.setProcess i q).Numbered := by
    intro j r hr
    rw [hget] at hr
    split at hr
    · rename_i hj
      obtain rfl := Option.some.inj hr
      rw [hj, hpid]
      exact h i p hp
    · exact h j r hr
  refine ⟨hnum, fun id => ?_⟩
  obtain ⟨pid, v⟩ := id
  by_cases hid : pid = p.process.pid
  · rw [if_pos hid, hid, ← hpid]
    exact hnum.page_eq (getElem?_setProcess_self hp q) v
  · rw [if_neg hid]
    refine h.page_congr hnum rfl fun j r hr => ?_
    rw [hget]
    by_cases hj : j = i
    · -- neither the old process nor the new one has this number
      rw [if_pos hj, hj, hp]
      constructor
      · intro heq
        obtain rfl := Option.some.inj heq
        exact absurd (hr.symm.trans hpid) hid
      · intro heq
        obtain rfl := Option.some.inj heq
        exact absurd hr.symm hid
    · rw [if_neg hj]

/-- The end of a process changes no page. -/
theorem Numbered.page_ended (h : m.Numbered) (hp : m.processes[i]? = some p) :
    (m.setProcess i p.ended).page = m.page := by
  funext id
  rw [(h.setProcess hp (q := p.ended) rfl).2]
  split
  · rename_i hid
    obtain ⟨pid, v⟩ := id
    obtain rfl : pid = p.process.pid := hid
    rw [h.page_eq hp]
    rfl
  · rfl

/-- A store inside a page changes that page alone. -/
theorem Numbered.page_store (h : m.Numbered) (hp : m.processes[i]? = some p)
    (address : Nat) {bytes : List UInt8}
    (hfit : Address.offset m.config.pageSize address + bytes.length ≤ m.config.pageSize) :
    (m.setProcess i (p.store address bytes)).page =
      Function.update m.page ⟨p.process.pid, Address.page m.config.pageSize address⟩
        (Extent.patch (m.page ⟨p.process.pid, Address.page m.config.pageSize address⟩)
          (Address.offset m.config.pageSize address) bytes) := by
  have haddress : address = Address.page m.config.pageSize address * m.config.pageSize +
      Address.offset m.config.pageSize address :=
    (Address.join_split m.config.pageSize address).symm
  funext id
  rw [(h.setProcess hp (q := p.store address bytes) rfl).2, h.page_eq hp]
  obtain ⟨pid, v⟩ := id
  by_cases hid : pid = p.process.pid
  · subst hid
    rw [if_pos rfl]
    by_cases hv : v = Address.page m.config.pageSize address
    · subst hv
      rw [Function.update_self, ← FlatProcess.load_store_inside _ hfit, ← haddress]
    · rw [Function.update_of_ne (by simpa using hv), h.page_eq hp, FlatProcess.load_store_outside]
      -- the other page ends before the stored bytes begin, or begins after their end
      rcases Nat.lt_or_gt_of_ne hv with hlt | hlt
      · left
        show v * m.config.pageSize + m.config.pageSize ≤ address
        have := Nat.mul_le_mul_right m.config.pageSize (Nat.succ_le_of_lt hlt)
        rw [Nat.succ_mul] at this
        omega
      · right
        show address + bytes.length ≤ v * m.config.pageSize
        have := Nat.mul_le_mul_right m.config.pageSize (Nat.succ_le_of_lt hlt)
        rw [Nat.succ_mul] at this
        omega
  · rw [if_neg hid, Function.update_of_ne]
    rintro heq
    exact hid (PageId.mk.inj heq).1

/-- A process with the next number has its own pages, and the others keep theirs. -/
theorem Numbered.append (h : m.Numbered) {q : FlatProcess}
    (hq : q.process.pid.toNat = m.processes.length + 1) :
    FlatMachine.Numbered { m with processes := m.processes ++ [q] } ∧
      ∀ id, FlatMachine.page { m with processes := m.processes ++ [q] } id =
        if id.pid = q.process.pid then q.load (id.page * m.config.pageSize) m.config.pageSize
        else m.page id := by
  have hget : ∀ j r, (m.processes ++ [q])[j]? = some r ↔
      m.processes[j]? = some r ∨ j = m.processes.length ∧ r = q := by
    intro j r
    by_cases hj : j < m.processes.length
    · rw [List.getElem?_append_left hj]
      exact ⟨.inl, fun h' => h'.resolve_right (by omega)⟩
    · have hnone : m.processes[j]? = none := List.getElem?_eq_none (by omega)
      rw [List.getElem?_append_right (by omega), hnone]
      by_cases hj' : j = m.processes.length
      · rw [hj', Nat.sub_self]
        simp [eq_comm]
      · have hout : [q][j - m.processes.length]? = none :=
          List.getElem?_eq_none (by rw [List.length_singleton]; omega)
        rw [hout]
        simp [hj']
  have hnum : FlatMachine.Numbered { m with processes := m.processes ++ [q] } := by
    intro j r hr
    rcases (hget j r).1 hr with hr | ⟨rfl, rfl⟩
    · exact h j r hr
    · exact hq
  refine ⟨hnum, fun id => ?_⟩
  obtain ⟨pid, v⟩ := id
  by_cases hid : pid = q.process.pid
  · rw [if_pos hid, hid]
    exact hnum.page_eq ((hget _ _).2 (.inr ⟨rfl, rfl⟩)) v
  · rw [if_neg hid]
    refine h.page_congr hnum rfl fun j r hr =>
      (hget j r).trans ⟨fun h' => h'.resolve_right ?_, .inl⟩
    rintro ⟨-, rfl⟩
    exact hid hr.symm

/-- The pages of a new process are those of its image. -/
theorem load_fresh {process : UserProcess} {pageSize : Nat}
    (himage : process.image.pageSize = pageSize) (v : Nat) :
    (FlatProcess.fresh process pageSize).load (v * pageSize) pageSize =
      process.image.initialPage v pageSize := by
  subst himage
  apply List.ext_getElem?
  intro off
  rw [FlatProcess.getElem?_load]
  by_cases hoff : off < process.image.pageSize
  · rw [if_pos hoff, Image.getElem?_initialPage _ _ hoff]
    rfl
  · rw [if_neg hoff, List.getElem?_eq_none (by rw [Image.length_initialPage]; omega)]

/-! ## Steps -/

/-- Threads run the process that they began with. -/
theorem Step.thread_process {σ : Type} {m m' : FlatMachine} {e : Event} {r : Option (Response σ)}
    {n : Nat} {t : FlatThread} (h : Step m e r m') (ht : m.threads[n]? = some t) :
    ∃ t', m'.threads[n]? = some t' ∧ t'.process = t.process := by
  have hset : ∀ i errand, ∃ t', (m.threads.modify i fun t => { t with errand })[n]? = some t' ∧
      t'.process = t.process := by
    intro i errand
    rw [List.getElem?_modify, ht]
    refine ⟨_, rfl, ?_⟩
    split <;> rfl
  cases h with
  | spawn | spawnRefused | unnoticed | die | exit => exact ⟨t, ht, rfl⟩
  | start =>
      have hlt := (List.getElem?_eq_some_iff.1 ht).1
      exact ⟨t, (List.getElem?_append_left hlt).trans ht, rfl⟩
  | _ => exact hset _ _

/-- No process is forgotten. -/
theorem Step.length_le {σ : Type} {m m' : FlatMachine} {e : Event} {r : Option (Response σ)}
    (h : Step m e r m') : m.processes.length ≤ m'.processes.length := by
  cases h <;> simp [setProcess, setErrand]

end FlatMachine

end DemandPaging
