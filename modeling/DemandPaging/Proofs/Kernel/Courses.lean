import DemandPaging.Proofs.Kernel.Books
import DemandPaging.Proofs.Kernel.Runs

/-!
# Courses of events

A course is whatever can happen to a kernel: any events in any order, requests that no program makes
and pins of the console among them. No event halts the machine, with one exception: whoever asks for
a process may catch the halt and go on, since it happens before the process has a thread. What the
request for the process has changed until then stays changed.

A course is entered in the books moment by moment (`Kernel.Course.posted`).
-/

namespace DemandPaging.Kernel

variable {σ : Type}

/-- Something that happens: an event, with the kernel before it and after it. -/
structure Moment (σ : Type) where
  before : Kernel σ
  event : Event
  after : Kernel σ

/-- How something can happen: an event has a result, or the halt of a request for a process is
caught. -/
inductive Moment.Happens [Extent σ] : Moment σ → Prop where
  | performed {k k' : Kernel σ} {e : Event} {r : Option (Response σ)}
      (h : k.perform e = some (.ok (r, k'))) : Happens ⟨k, e, k'⟩
  | caught {k k' : Kernel σ} {image : Image} {halt : Halt}
      (h : k.spawn image = (.error halt, k')) : Happens ⟨k, .spawn image, k'⟩

/-- The moments of a course, one after the other, and the kernel after them. -/
inductive Course [Extent σ] (k₀ : Kernel σ) : List (Moment σ) → Kernel σ → Prop where
  | nil : Course k₀ [] k₀
  | step {history : List (Moment σ)} {m : Moment σ} (h : Course k₀ history m.before)
      (hm : m.Happens) : Course k₀ (history ++ [m]) m.after

/-- The kernel after an event, if it can happen. -/
def afterEvent [Extent σ] (k : Kernel σ) : Event → Option (Kernel σ)
  | .spawn image => some (k.spawn image).2
  | e =>
      match k.perform e with
      | some (.ok (_, k)) => some k
      | _ => none

/-- The moments in which events happen one after the other, and the kernel after them. -/
def momentsOf [Extent σ] (k : Kernel σ) : List Event → Option (List (Moment σ) × Kernel σ)
  | [] => some ([], k)
  | e :: rest =>
      match k.afterEvent e with
      | some k' => (momentsOf k' rest).map fun (history, last) => (⟨k, e, k'⟩ :: history, last)
      | none => none

/-! ## What a moment is in the books -/

namespace Moment

/-- The processes that end. -/
def ended (m : Moment σ) : List UserProcess :=
  ((m.before.processes.zip m.after.processes).filter fun x => !x.1.exited && x.2.exited).map
    Prod.fst

/-- The slots that processes give back as they end. -/
def released (m : Moment σ) : Nat :=
  (m.ended.map fun p => (m.before.paging.swap.releaseAll p.pid).1).sum

end Moment

/-- The slots that processes have given back in a course. -/
def released (history : List (Moment σ)) : Nat := (history.map Moment.released).sum

theorem zip_filter_same (l l' : List UserProcess) :
    (l.zip (l ++ l')).filter (fun x => !x.1.exited && x.2.exited) = [] := by
  induction l with
  | nil => rfl
  | cons p rest ih => simp [ih]

theorem zip_filter_modify {l : List UserProcess} {place : Nat} {p : UserProcess}
    (hp : l[place]? = some p) (hlive : p.exited = false) :
    ((l.zip (l.modify place fun p => { p with exited := true })).filter fun x =>
      !x.1.exited && x.2.exited).map Prod.fst = [p] := by
  induction l generalizing place with
  | nil => cases hp
  | cons q rest ih =>
      cases place with
      | zero =>
          obtain rfl := Option.some.inj hp
          have hrest := zip_filter_same rest []
          rw [List.append_nil] at hrest
          simp [hlive, hrest]
      | succ place =>
          rw [List.getElem?_cons_succ] at hp
          simpa using ih hp

namespace Moment

variable {m : Moment σ}

theorem Happens.booked [Extent σ] (h : m.Happens) (hfree : m.before.region = {}) :
    m.before.Booked m.event m.after := by
  cases h with
  | performed h => exact perform_booked hfree h
  | caught h => exact spawn_booked h

/-- What is counted in a moment is what happens to the slots, but for those that are released. -/
theorem posted (h : m.before.Booked m.event m.after) :
    Paging.Posted m.before.owing m.after.owing m.released m.before.paging m.after.paging := by
  have hnone : ∀ l, m.after.processes = m.before.processes ++ l → m.released = 0 := by
    intro l hprocesses
    rw [released, ended, hprocesses, zip_filter_same]
    rfl
  cases h with
  | goes _ _ hprocesses _ hposted =>
      rw [hnone [] (by rw [hprocesses, List.append_nil])]
      exact hposted
  | @ends place p hp hlive _ _ hprocesses _ hposted =>
      have hended : m.ended = [p] := by
        rw [ended, hprocesses]
        exact zip_filter_modify hp hlive
      rw [released, hended]
      exact hposted
  | draws _ _ _ _ hprocesses _ hposted =>
      rcases hprocesses with hprocesses | ⟨p, -, -, hprocesses⟩
      · rw [hnone [] (by rw [hprocesses, List.append_nil])]
        exact hposted
      · rw [hnone [p] hprocesses]
        exact hposted

end Moment

variable [Extent σ] {k₀ k : Kernel σ} {history : List (Moment σ)}

namespace Course

/-- Nobody is inside the critical region between two moments. -/
theorem region_eq (hfree : k₀.region = {}) (h : Course k₀ history k) : k.region = {} := by
  induction h with
  | nil => exact hfree
  | step _ hm ih => rw [(hm.booked ih).region_eq, ih]

/-- What is counted in a course is what has happened to the slots, but for those that were
released. -/
theorem posted (hfree : k₀.region = {}) (h : Course k₀ history k) :
    Paging.Posted k₀.owing k.owing (released history) k₀.paging k.paging := by
  induction h with
  | nil => exact .of_eq le_rfl rfl rfl
  | @step history m h hm ih =>
      have hm := Moment.posted (hm.booked (h.region_eq hfree))
      have hreleased : released (history ++ [m]) = released history + m.released := by
        simp [released]
      rw [hreleased]
      exact ih.trans hm

theorem cons {m : Moment σ} (hm : m.Happens) (h : Course m.after history k) :
    Course m.before (m :: history) k := by
  induction h with
  | nil =>
      have hnil : Course m.before [] m.before := .nil
      exact hnil.step hm
  | step _ hm' ih => exact Course.step ih hm'

end Course

theorem Moment.happens_of_afterEvent {k' : Kernel σ} {e : Event} (h : k.afterEvent e = some k') :
    Happens ⟨k, e, k'⟩ := by
  have hperform : ∀ {e : Event}, (match k.perform e with
      | some (.ok (_, k)) => some k
      | _ => none) = some k' → Happens ⟨k, e, k'⟩ := by
    intro e h
    split at h
    · rename_i hrun
      obtain rfl := Option.some.inj h
      exact .performed hrun
    · cases h
  cases e with
  | spawn image =>
      obtain rfl := Option.some.inj h
      generalize hspawn : k.spawn image = spawned
      obtain ⟨outcome, k₁⟩ := spawned
      cases outcome with
      | error halt => exact .caught hspawn
      | ok outcome =>
          cases outcome <;> exact .performed (by rw [perform, hspawn])
  | _ => exact hperform h

theorem Course.of_momentsOf {events : List Event} (h : k₀.momentsOf events = some (history, k)) :
    Course k₀ history k := by
  induction events generalizing k₀ history with
  | nil =>
      obtain ⟨rfl, rfl⟩ := Prod.mk.inj (Option.some.inj h)
      exact .nil
  | cons e rest ih =>
      rw [momentsOf] at h
      split at h
      · rename_i k₁ hafter
        obtain ⟨⟨history', last⟩, hrest, h⟩ := Option.map_eq_some_iff.1 h
        obtain ⟨rfl, rfl⟩ := Prod.mk.inj h
        exact Course.cons (Moment.happens_of_afterEvent hafter) (ih hrest)
      · cases h

/-- Whether a machine can be booted on an extent of zeros, the events of a list can happen there one
after the other, and something holds of the moments and of the kernel after them. -/
def holdsOfCourse (c : Config) (events : List Event)
    (P : List (Moment MemoryExtent) → Kernel MemoryExtent → Bool) : Bool :=
  bootsTo c (⟨.zeros c.swapLength⟩ : MemoryExtent) fun k =>
    (k.momentsOf events).any fun (history, k) => P history k

/-- What is found to hold of a list of events holds of a course. -/
theorem exists_of_holdsOfCourse {c : Config} {events : List Event}
    {P : List (Moment MemoryExtent) → Kernel MemoryExtent → Bool}
    (h : holdsOfCourse c events P = true) :
    ∃ (k₀ k : Kernel MemoryExtent) (history : List (Moment MemoryExtent)),
      boot c (⟨.zeros c.swapLength⟩ : MemoryExtent) = .ok (.ok k₀) ∧ Course k₀ history k ∧
        P history k = true := by
  obtain ⟨k₀, hboot, hmoments⟩ := exists_of_bootsTo h
  obtain ⟨⟨history, k⟩, hmoments, hP⟩ := (Option.any_eq_true ..).1 hmoments
  exact ⟨k₀, k, history, hboot, .of_momentsOf hmoments, hP⟩

end DemandPaging.Kernel
