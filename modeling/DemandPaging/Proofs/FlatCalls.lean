import DemandPaging.Proofs.FlatPages
import DemandPaging.Proofs.Kernel.Phase

/-!
# Requests on the flat machine

From the time a thread is asked for an access to the time it is answered, other threads take steps
too. How far a request can have come is a matter of the steps of its own thread (`Pending`), and so
are the bytes that it has moved, as long as no other thread stores into the process (`Remembers`).
Every step up to the answer keeps both, and the answer is read off them.
-/

namespace DemandPaging

namespace FlatProcess

/-- It is the same process, which may have ended. -/
def Became (p q : FlatProcess) : Prop :=
  q.process = p.process ∨ q.process = p.ended.process

namespace Became

variable {p q r : FlatProcess}

theorem refl (p : FlatProcess) : p.Became p := .inl rfl

theorem trans (h : p.Became q) (h' : q.Became r) : p.Became r := by
  rcases h' with h' | h'
  · rwa [Became, h']
  · right
    rw [h']
    rcases h with h | h
    · exact congrArg (fun u : UserProcess => { u with exited := true }) h
    · exact congrArg (fun u : UserProcess => { u with exited := true }) h

theorem image_eq (h : p.Became q) : q.process.image = p.process.image := by
  rcases h with h | h
  · rw [h]
  · rw [h]
    rfl

theorem size_eq (h : p.Became q) (pageSize : Nat) : q.size pageSize = p.size pageSize := by
  rcases h with h | h
  · rw [size, h, size]
  · rw [size, h]
    rfl

theorem protected_iff (h : p.Became q) (pageSize a : Nat) :
    q.Protected pageSize a ↔ p.Protected pageSize a := by
  rw [Protected, Protected, h.image_eq]

/-- A process that is still alive is what it was. -/
theorem process_eq (h : p.Became q) (hlive : q.process.exited = false) : q.process = p.process := by
  refine h.resolve_right fun h => ?_
  rw [h] at hlive
  cases hlive

theorem exited (h : p.Became q) (hend : p.process.exited = true) : q.process.exited = true := by
  rcases h with h | h <;> rw [h]
  · exact hend
  · rfl

end Became

/-- How far a request can come in the memory of a process: a copy stays inside the array, and a copy
into memory outside the read-only sections. -/
def Allows (p : FlatProcess) (pageSize : Nat) : Request → List UInt8 → Prop
  | .copyOut a count, moved => moved.length ≤ count ∧
      (moved = [] ∨ a + moved.length ≤ p.size pageSize)
  | .copyIn a data, moved => moved <+: data ∧
      (moved = [] ∨ a + moved.length ≤ p.size pageSize) ∧
      ∀ i < moved.length, ¬ p.Protected pageSize (a + i)
  | _, moved => moved = []

/-- The memory of a process after a request has moved some bytes. -/
def bytesAfter (p : FlatProcess) (moved : List UInt8) : Request → Nat → UInt8
  | .copyIn a _ => (p.store a moved).byteAt
  | _ => p.byteAt

/-- Which bytes a request has moved: those of memory, if it is a copy out of memory. -/
def Moved (p : FlatProcess) (moved : List UInt8) : Request → Prop
  | .copyOut a _ => moved = p.load a moved.length
  | _ => True

theorem store_nil (p : FlatProcess) (a : Nat) : (p.store a []).byteAt = p.byteAt := by
  funext b
  exact if_neg fun h => by simp at h; omega

theorem load_append (p : FlatProcess) (a m n : Nat) :
    p.load a m ++ p.load (a + m) n = p.load a (m + n) := by
  rw [load, load, load, List.range_add, List.map_append, List.map_map]
  congr 2
  funext i
  exact congrArg p.byteAt (Nat.add_assoc a m i)

/-- Bytes that are stored one part after the other. -/
theorem store_append {p q : FlatProcess} {a : Nat} {moved part : List UInt8}
    (h : q.byteAt = (p.store a moved).byteAt) :
    (q.store (a + moved.length) part).byteAt = (p.store a (moved ++ part)).byteAt := by
  funext b
  simp only [store, h, List.length_append, List.getD_eq_getElem?_getD]
  by_cases hpart : a + moved.length ≤ b ∧ b < a + moved.length + part.length
  · rw [if_pos hpart, if_pos (by omega), List.getElem?_append_right (by omega),
      Nat.sub_add_eq]
  · rw [if_neg hpart]
    by_cases hmoved : a ≤ b ∧ b < a + moved.length
    · rw [if_pos hmoved, if_pos (by omega), List.getElem?_append_left (by omega)]
    · rw [if_neg hmoved, if_neg (by omega)]

end FlatProcess

theorem FlatThread.asked_inj {i i' : Nat} {request request' : Request} {moved moved' : List UInt8}
    (h : some (⟨i, .asked request moved⟩ : FlatThread) = some ⟨i', .asked request' moved'⟩) :
    i = i' ∧ request = request' ∧ moved = moved' := by
  cases h
  exact ⟨rfl, rfl, rfl⟩

/-- A request has the right to change the byte at an address of its process. -/
def Request.Reaches : Request → Nat → Prop
  | .copyIn a data, b => a ≤ b ∧ b < a + data.length
  | .write a _, b => b = a
  | _, _ => False

namespace FlatMachine

variable {σ : Type} {m m' : FlatMachine} {n i : Nat} {p : FlatProcess} {request : Request}
  {e : Event} {r : Option (Response σ)}

/-! ## What any step leaves alone -/

theorem Step.config_eq (h : Step m e r m') : m'.config = m.config := by
  cases h <;> rfl

theorem getElem?_setErrand (m : FlatMachine) (n : Nat) (errand : Errand) (j : Nat) :
    (m.setErrand n errand).threads[j]? =
      if j = n then m.threads[n]?.map fun t => { t with errand } else m.threads[j]? := by
  show (m.threads.modify n _)[j]? = _
  by_cases h : j = n
  · rw [if_pos h, h, List.getElem?_modify_eq]
    rfl
  · rw [if_neg h, List.getElem?_modify_ne _ _ (Ne.symm h)]

theorem thread_setErrand {t : FlatThread} (h : m.threads[n]? = some t) (errand : Errand) :
    (m.setErrand n errand).threads[n]? = some { t with errand } := by
  rw [getElem?_setErrand, if_pos rfl, h]
  rfl

/-- A thread is where it was when others take their steps, unless it is given something to do. -/
theorem Step.thread_kept (h : Step m e r m') {t : FlatThread} (ht : m.threads[n]? = some t)
    (he : e ≠ .advance n) (hbusy : ∀ request, e = .ask n request → t.errand ≠ .idle) :
    m'.threads[n]? = some t := by
  have hset : ∀ {j : Nat} {errand : Errand}, n ≠ j → (m.setErrand j errand).threads[n]? = some t :=
    fun hne => (getElem?_setErrand ..).trans ((if_neg hne).trans ht)
  have hother : ∀ {j : Nat}, e = .advance j → n ≠ j := by
    rintro j rfl rfl
    exact he rfl
  cases h with
  | spawn | spawnRefused | unnoticed | die | exit => exact ht
  | start => exact (List.getElem?_append_left (List.getElem?_eq_some_iff.1 ht).1).trans ht
  | ask hidle =>
      refine hset ?_
      rintro rfl
      obtain rfl := Option.some.inj (hidle.symm.trans ht)
      exact hbusy _ rfl rfl
  | _ => exact hset (hother rfl)

/-- A process stays, though it may end. -/
theorem Step.process_became (h : Step m e r m') {q : FlatProcess} (hq : m.processes[i]? = some q) :
    ∃ q', m'.processes[i]? = some q' ∧ q.Became q' := by
  have hset : ∀ {j : Nat} {p p' : FlatProcess}, m.processes[j]? = some p → p.Became p' →
      ∃ q', (m.setProcess j p').processes[i]? = some q' ∧ q.Became q' := by
    intro j p p' hp hbecame
    by_cases hi : i = j
    · subst hi
      obtain rfl := Option.some.inj (hq.symm.trans hp)
      exact ⟨p', getElem?_setProcess_self hp p', hbecame⟩
    · exact ⟨q, (getElem?_setProcess hp p' i).trans ((if_neg hi).trans hq), .refl q⟩
  cases h with
  | spawn =>
      exact ⟨q, (List.getElem?_append_left (List.getElem?_eq_some_iff.1 hq).1).trans hq, .refl q⟩
  | store _ hp | storePart _ hp => exact hset hp (.inl rfl)
  | die _ hp | exit _ hp => exact hset hp (.inr rfl)
  | _ => exact ⟨q, hq, .refl q⟩

/-! ## How far a request can have come -/

/-- A thread was asked for something when its process was `p`, and has not been answered yet. A copy
is refused only because its process has ended. -/
inductive Pending (m : FlatMachine) (n i : Nat) (p : FlatProcess) (request : Request) : Prop where
  | going {moved : List UInt8} {q : FlatProcess}
      (thread : m.threads[n]? = some ⟨i, .asked request moved⟩)
      (process : m.processes[i]? = some q) (became : p.Became q)
      (allowed : p.Allows m.config.pageSize request moved)
  | refused {cause : PagingError} {q : FlatProcess}
      (thread : m.threads[n]? = some ⟨i, .refused cause⟩)
      (process : m.processes[i]? = some q) (became : p.Became q)
      (ended : request.isCopy = true → q.process.exited = true)

/-- Steps of others do not take a request back. -/
theorem Pending.other_step (h : Pending m n i p request) (hs : Step m e r m')
    (he : e ≠ .advance n) : Pending m' n i p request := by
  cases h with
  | going hthread hprocess hbecame hallowed =>
      obtain ⟨q', hq', hbecame'⟩ := hs.process_became hprocess
      exact .going (hs.thread_kept hthread he fun _ _ => nofun) hq' (hbecame.trans hbecame')
        (hs.config_eq ▸ hallowed)
  | refused hthread hprocess hbecame hend =>
      obtain ⟨q', hq', hbecame'⟩ := hs.process_became hprocess
      exact .refused (hs.thread_kept hthread he fun _ _ => nofun) hq' (hbecame.trans hbecame')
        fun hcopy => hbecame'.exited (hend hcopy)

/-- What a step of a thread does on the way to the answer of an access. -/
inductive Progress (m : FlatMachine) (n i : Nat) (request : Request) (moved : List UInt8)
    (q : FlatProcess) : FlatMachine → Prop where
  | unnoticed : Progress m n i request moved q m
  | loadPart {a count part : Nat} (hrequest : request = .copyOut a count)
      (hcount : moved.length + part ≤ count)
      (hsize : a + moved.length + part ≤ q.size m.config.pageSize) :
      Progress m n i request moved q
        (m.setErrand n (.asked request (moved ++ q.load (a + moved.length) part)))
  | storePart {a : Nat} {data part : List UInt8} (hrequest : request = .copyIn a data)
      (hpart : part <+: data.drop moved.length)
      (hsize : a + moved.length + part.length ≤ q.size m.config.pageSize)
      (hfree : ∀ j < part.length, ¬ q.Protected m.config.pageSize (a + moved.length + j)) :
      Progress m n i request moved q ((m.setProcess i (q.store (a + moved.length) part)).setErrand n
        (.asked request (moved ++ part)))
  | refuse {cause : PagingError} (hrefuse : Refuses m.config.pageSize q request cause) :
      Progress m n i request moved q (m.setErrand n (.refused cause))

theorem Step.progress (hs : Step m (.advance n) (none : Option (Response σ)) m')
    {moved : List UInt8} {q : FlatProcess}
    (hthread : m.threads[n]? = some ⟨i, .asked request moved⟩)
    (hprocess : m.processes[i]? = some q) (haccess : request.isAccess = true) :
    Progress m n i request moved q m' := by
  cases hs with
  | unnoticed => exact .unnoticed
  | loadPart h hp _ hcount hsize =>
      obtain ⟨rfl, rfl, rfl⟩ := FlatThread.asked_inj (h.symm.trans hthread)
      obtain rfl := Option.some.inj (hp.symm.trans hprocess)
      exact .loadPart rfl hcount hsize
  | storePart h hp _ hpart hsize hfree =>
      obtain ⟨rfl, rfl, rfl⟩ := FlatThread.asked_inj (h.symm.trans hthread)
      obtain rfl := Option.some.inj (hp.symm.trans hprocess)
      exact .storePart rfl hpart hsize hfree
  | refuse h hp hrefuse =>
      obtain ⟨rfl, rfl, rfl⟩ := FlatThread.asked_inj (h.symm.trans hthread)
      obtain rfl := Option.some.inj (hp.symm.trans hprocess)
      exact .refuse hrefuse
  | arrive h | die h => cases h.symm.trans hthread
  | exit h | left h =>
      obtain ⟨-, rfl, -⟩ := FlatThread.asked_inj (h.symm.trans hthread)
      cases haccess

/-- A step of the thread that is not the answer. -/
theorem Pending.own_step (h : Pending m n i p request) (haccess : request.isAccess = true)
    (hs : Step m (.advance n) (none : Option (Response σ)) m') : Pending m' n i p request := by
  cases h with
  | @going moved q hthread hprocess hbecame hallowed =>
      have hset : ∀ {m' : FlatMachine} (errand : Errand), m'.threads = m.threads →
          (m'.setErrand n errand).threads[n]? = some ⟨i, errand⟩ := by
        intro m' errand hthreads
        exact thread_setErrand (hthreads ▸ hthread) errand
      cases hs.progress hthread hprocess haccess with
      | unnoticed => exact .going hthread hprocess hbecame hallowed
      | loadPart hrequest hcount hsize =>
          subst hrequest
          refine .going (hset _ rfl) hprocess hbecame ⟨?_, .inr ?_⟩
          · rw [List.length_append, FlatProcess.length_load]
            exact hcount
          · rw [List.length_append, FlatProcess.length_load, ← Nat.add_assoc, ← hbecame.size_eq]
            exact hsize
      | @storePart a data part hrequest hpart hsize hfree =>
          subst hrequest
          obtain ⟨hmoved, -, hbefore⟩ := hallowed
          have hstored : p.Became (q.store (a + moved.length) part) := hbecame
          refine .going (hset _ rfl) (getElem?_setProcess_self hprocess _) hstored
            ⟨?_, .inr ?_, ?_⟩
          · obtain ⟨rest, rfl⟩ := hmoved
            rw [List.drop_left] at hpart
            exact (List.prefix_append_right_inj moved).2 hpart
          · rw [List.length_append, ← Nat.add_assoc, ← hbecame.size_eq]
            exact hsize
          · -- the addresses of this part come after those of the parts before
            intro j hj
            rw [List.length_append] at hj
            by_cases hold : j < moved.length
            · exact hbefore j hold
            · have hnew := hfree (j - moved.length) (by omega)
              rw [hbecame.protected_iff] at hnew
              have haddress : a + moved.length + (j - moved.length) = a + j := by omega
              rw [haddress] at hnew
              exact hnew
      | refuse hrefuse =>
          refine .refused (hset _ rfl) hprocess hbecame fun hcopy => ?_
          cases hrefuse with
          | gone _ hend => exact hend
          | loadOutside | storeOutside | readOnly => cases hcopy
  | refused hthread hprocess hbecame hend =>
      cases hs with
      | unnoticed => exact .refused hthread hprocess hbecame hend
      | die h hp =>
          obtain ⟨rfl, -⟩ := FlatThread.mk.inj (Option.some.inj (h.symm.trans hthread))
          obtain rfl := Option.some.inj (hp.symm.trans hprocess)
          exact .refused hthread (getElem?_setProcess_self hprocess _) (hbecame.trans (.inr rfl))
            fun _ => rfl
      | arrive h | loadPart h | storePart h | refuse h | exit h | left h =>
          cases h.symm.trans hthread

/-! ## The bytes that it has moved -/

/-- The request has moved the bytes that it was asked to move, and the memory of the process is what
it was but for them. -/
def Remembers (m : FlatMachine) (n i : Nat) (p : FlatProcess) (request : Request) : Prop :=
  ∀ moved q, m.threads[n]? = some ⟨i, .asked request moved⟩ → m.processes[i]? = some q →
    p.Moved moved request ∧ q.byteAt = p.bytesAfter moved request

/-- An event leaves the memory of a process as it is. -/
def Leaves (m m' : FlatMachine) (i : Nat) : Prop :=
  ∀ q q', m.processes[i]? = some q → m'.processes[i]? = some q' → q'.byteAt = q.byteAt

/-- Steps of others that store nothing into the process do not matter. -/
theorem Remembers.other_step (h : Remembers m n i p request) (hpending : Pending m n i p request)
    (hs : Step m e r m') (he : e ≠ .advance n) (hleaves : Leaves m m' i) :
    Remembers m' n i p request := by
  intro moved q' hthread' hprocess'
  cases hpending with
  | going hthread hprocess _ _ =>
      have hkept := hs.thread_kept hthread he fun _ _ => nofun
      obtain ⟨-, -, rfl⟩ := FlatThread.asked_inj (hkept.symm.trans hthread')
      rw [hleaves _ _ hprocess hprocess']
      exact h _ _ hthread hprocess
  | refused hthread _ _ _ =>
      cases (hs.thread_kept hthread he fun _ _ => nofun).symm.trans hthread'

theorem Remembers.own_step (h : Remembers m n i p request) (hpending : Pending m n i p request)
    (haccess : request.isAccess = true)
    (hs : Step m (.advance n) (none : Option (Response σ)) m') : Remembers m' n i p request := by
  intro moved' q' hthread' hprocess'
  cases hpending with
  | @going moved q hthread hprocess hbecame hallowed =>
      obtain ⟨hmoved, hbytes⟩ := h moved q hthread hprocess
      have hset : ∀ {m₁ : FlatMachine} {errand : Errand}, m₁.threads = m.threads →
          (m₁.setErrand n errand).threads[n]? = some ⟨i, .asked request moved'⟩ →
          errand = .asked request moved' := by
        intro m₁ errand hthreads ht
        rw [getElem?_setErrand, if_pos rfl, hthreads, hthread] at ht
        exact congrArg FlatThread.errand (Option.some.inj ht)
      cases hs.progress hthread hprocess haccess with
      | unnoticed => exact h moved' q' hthread' hprocess'
      | loadPart hrequest _ _ =>
          subst hrequest
          obtain rfl : _ = moved' := (Errand.asked.inj (hset rfl hthread')).2
          obtain rfl := Option.some.inj (hprocess.symm.trans hprocess')
          have hload : q.load = p.load := by
            funext b count
            rw [FlatProcess.load, hbytes]
            rfl
          have hmoved : moved = p.load _ moved.length := hmoved
          refine ⟨?_, hbytes⟩
          show moved ++ _ = p.load _ (moved ++ _).length
          rw [hload, List.length_append, FlatProcess.length_load, ← FlatProcess.load_append,
            ← hmoved]
      | @storePart a _ part hrequest _ _ _ =>
          subst hrequest
          obtain rfl : _ = moved' := (Errand.asked.inj (hset rfl hthread')).2
          have hself := getElem?_setProcess_self hprocess (q.store (a + moved.length) part)
          obtain rfl := Option.some.inj (hself.symm.trans hprocess')
          exact ⟨trivial, FlatProcess.store_append hbytes⟩
      | refuse _ => cases hset rfl hthread'
  | refused hthread _ _ _ =>
      -- a request that was refused is not taken up again
      cases hs with
      | unnoticed => cases hthread.symm.trans hthread'
      | die h => cases hthread.symm.trans hthread'
      | arrive h | loadPart h | storePart h | refuse h | exit h | left h =>
          cases h.symm.trans hthread

/-! ## What a step of a request changes -/

/-- A step of a copy ends no process, and changes no byte but those it was asked to change. -/
theorem Pending.step_frame (h : Pending m n i p request) (hcopy : request.isCopy = true)
    (hs : Step m (.advance n) r m') :
    m'.processes.map FlatProcess.process = m.processes.map FlatProcess.process ∧
      ∀ j q q', m.processes[j]? = some q → m'.processes[j]? = some q' →
        ∀ b, (j = i → ¬ request.Reaches b) → q'.byteAt b = q.byteAt b := by
  have hsame : ∀ {m₁ : FlatMachine}, m₁.processes = m.processes →
      m₁.processes.map FlatProcess.process = m.processes.map FlatProcess.process ∧
        ∀ j q q', m.processes[j]? = some q → m₁.processes[j]? = some q' →
          ∀ b, (j = i → ¬ request.Reaches b) → q'.byteAt b = q.byteAt b := by
    intro m₁ heq
    rw [heq]
    refine ⟨rfl, fun j q q' hq hq' b _ => ?_⟩
    obtain rfl := Option.some.inj (hq.symm.trans hq')
    rfl
  cases h with
  | @going moved q hthread hprocess hbecame hallowed =>
      cases hs with
      | @storePart _ _ a data _ part _ h hp hlive hpart hsize hfree =>
          obtain ⟨rfl, rfl, rfl⟩ := FlatThread.asked_inj (hthread.symm.trans h)
          obtain rfl := Option.some.inj (hprocess.symm.trans hp)
          refine ⟨map_process_setProcess hprocess rfl, fun j r r' hr hr' b hb => ?_⟩
          have hr' : (m.setProcess i _).processes[j]? = some r' := hr'
          rw [getElem?_setProcess hprocess] at hr'
          split at hr'
          · rename_i hj
            obtain rfl := Option.some.inj hr'
            obtain rfl := Option.some.inj (hprocess.symm.trans (hj ▸ hr))
            -- the part lies inside the bytes that the copy is to store
            have hpart := hpart.length_le
            rw [List.length_drop] at hpart
            refine if_neg fun hin => hb hj ⟨?_, ?_⟩ <;> omega
          · obtain rfl := Option.some.inj (hr.symm.trans hr')
            rfl
      | store h | exit h =>
          obtain ⟨-, rfl, -⟩ := FlatThread.asked_inj (hthread.symm.trans h)
          cases hcopy
      | die h => cases h.symm.trans hthread
      | _ => exact hsame rfl
  | @refused cause q hthread hprocess hbecame hend =>
      cases hs with
      | die h hp =>
          obtain ⟨rfl, -⟩ := FlatThread.mk.inj (Option.some.inj (hthread.symm.trans h))
          obtain rfl := Option.some.inj (hprocess.symm.trans hp)
          -- the process had ended already
          have hended : q.ended = q := by
            have hprocess : { q.process with exited := true } = q.process := by
              rw [← hend hcopy]
            exact congrArg (fun u => { q with process := u }) hprocess
          obtain ⟨hlt, hget⟩ := List.getElem?_eq_some_iff.1 hprocess
          refine hsame ?_
          show m.processes.set i q.ended = m.processes
          rw [hended, ← hget, List.set_getElem_self]
      | store h | storePart h | exit h => cases h.symm.trans hthread
      | _ => exact hsame rfl

/-! ## The answer -/

/-- A thread whose access is answered has nothing to do. -/
theorem Pending.answered_idle (h : Pending m n i p request) (haccess : request.isAccess = true)
    {response : Response σ} (hs : Step m (.advance n) (some response) m') :
    m'.threads[n]? = some ⟨i, .idle⟩ := by
  have hidle : ∀ {m₁ : FlatMachine}, m₁.threads = m.threads →
      (m₁.setErrand n .idle).threads[n]? = some ⟨i, .idle⟩ := by
    intro m₁ hthreads
    cases h with
    | going hthread | refused hthread =>
        rw [← hthreads] at hthread
        exact thread_setErrand hthread .idle
  cases hs with
  | exited hasked =>
      cases h with
      | going hthread =>
          obtain ⟨-, rfl, -⟩ := FlatThread.asked_inj (hthread.symm.trans hasked)
          cases haccess
      | refused hthread => cases hthread.symm.trans hasked
  | _ => exact hidle rfl

/-- What is known of a request that is answered with what it has moved. -/
theorem Pending.of_asked (h : Pending m n i p request) (hremembers : Remembers m n i p request)
    {j : Nat} {request' : Request} {moved : List UInt8} {q : FlatProcess}
    (hasked : m.threads[n]? = some ⟨j, .asked request' moved⟩) (hq : m.processes[j]? = some q) :
    i = j ∧ request = request' ∧ p.Became q ∧ p.Allows m.config.pageSize request moved ∧
      p.Moved moved request ∧ q.byteAt = p.bytesAfter moved request := by
  cases h with
  | going hthread hprocess hbecame hallowed =>
      obtain ⟨rfl, hrequest, rfl⟩ := FlatThread.asked_inj (hthread.symm.trans hasked)
      obtain rfl := Option.some.inj (hprocess.symm.trans hq)
      exact ⟨rfl, hrequest, hbecame, hallowed, hremembers _ _ hthread hprocess⟩
  | refused hthread => cases hasked.symm.trans hthread

/-- A byte was loaded. -/
theorem Pending.loaded {a : Nat} {v : UInt8} (h : Pending m n i p (.read a))
    (hremembers : Remembers m n i p (.read a))
    (hs : Step m (.advance n) (some (.byte v : Response σ)) m') :
    a < p.size m.config.pageSize ∧ v = p.byteAt a ∧
      ∃ q, m'.processes[i]? = some q ∧ q.process = p.process ∧ q.byteAt = p.byteAt := by
  cases hs with
  | load hasked hp hlive hsize =>
      obtain ⟨rfl, hrequest, hbecame, -, -, hbytes⟩ := h.of_asked hremembers hasked hp
      obtain rfl := Request.read.inj hrequest
      exact ⟨hbecame.size_eq _ ▸ hsize, congrFun hbytes _, _, hp, hbecame.process_eq hlive, hbytes⟩

/-- A byte was stored. -/
theorem Pending.stored_byte {a : Nat} {v : UInt8} (h : Pending m n i p (.write a v))
    (hremembers : Remembers m n i p (.write a v))
    (hs : Step m (.advance n) (some (.done : Response σ)) m') :
    ∃ q, m'.processes[i]? = some q ∧ q.process = p.process ∧ q.byteAt = (p.store a [v]).byteAt := by
  cases hs with
  | store hasked hp hlive hsize hfree =>
      obtain ⟨rfl, hrequest, hbecame, -, -, hbytes⟩ := h.of_asked hremembers hasked hp
      obtain ⟨rfl, rfl⟩ := Request.write.inj hrequest
      refine ⟨_, getElem?_setProcess_self hp _, hbecame.process_eq hlive, ?_⟩
      simp only [FlatProcess.store, hbytes]
      rfl
  | yielded hasked | exited hasked =>
      cases h with
      | going hthread => cases (FlatThread.asked_inj (hthread.symm.trans hasked)).2.1
      | refused hthread => cases hasked.symm.trans hthread

/-- Bytes were copied out of memory: as many as there are up to the end of the array. -/
theorem Pending.copied {a count : Nat} {data : List UInt8} (h : Pending m n i p (.copyOut a count))
    (hremembers : Remembers m n i p (.copyOut a count))
    (hs : Step m (.advance n) (some (.copied data : Response σ)) m') :
    data.length = min count (p.size m.config.pageSize - a) ∧ data = p.load a data.length ∧
      ∃ q, m'.processes[i]? = some q ∧ p.Became q ∧ q.byteAt = p.byteAt := by
  cases hs with
  | copied hasked hp hdone =>
      obtain ⟨rfl, hrequest, hbecame, ⟨hcount, hsize⟩, hmoved, hbytes⟩ :=
        h.of_asked hremembers hasked hp
      obtain ⟨rfl, rfl⟩ := Request.copyOut.inj hrequest
      rw [hbecame.size_eq] at hdone
      refine ⟨?_, hmoved, _, hp, hbecame, hbytes⟩
      rcases hsize with rfl | hsize
      · rw [List.length_nil] at hdone ⊢
        omega
      · omega

/-- Bytes were copied into memory: as many as there are up to the end of the array, or up to the
first address in a read-only section. -/
theorem Pending.stored {a count : Nat} {data : List UInt8} (h : Pending m n i p (.copyIn a data))
    (hremembers : Remembers m n i p (.copyIn a data))
    (hs : Step m (.advance n) (some (.stored count : Response σ)) m') :
    count ≤ min data.length (p.size m.config.pageSize - a) ∧
      (∀ j < count, ¬ p.Protected m.config.pageSize (a + j)) ∧
      (count < min data.length (p.size m.config.pageSize - a) →
        p.Protected m.config.pageSize (a + count)) ∧
      ∃ q, m'.processes[i]? = some q ∧ p.Became q ∧
        q.byteAt = (p.store a (data.take count)).byteAt := by
  cases hs with
  | @stored _ _ _ _ moved _ hasked hp hdone =>
      obtain ⟨rfl, hrequest, hbecame, ⟨hmoved, hsize, hfree⟩, -, hbytes⟩ :=
        h.of_asked hremembers hasked hp
      obtain ⟨rfl, rfl⟩ := Request.copyIn.inj hrequest
      rw [hbecame.size_eq, hbecame.protected_iff] at hdone
      have hle := hmoved.length_le
      refine ⟨?_, hfree, fun hshort => ?_, _, hp, hbecame, ?_⟩
      · rcases hsize with rfl | hsize
        · exact Nat.zero_le _
        · omega
      · rcases hdone with hall | hend | hro
        · omega
        · omega
        · exact hro
      · rw [← List.prefix_iff_eq_take.1 hmoved]
        exact hbytes

end FlatMachine

end DemandPaging
