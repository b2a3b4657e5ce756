import DemandPaging.Halt

/-!
# Results of operations

What is known of the parts of an operation that went well: where a chain of operations has a result,
so has each of its links.
-/

namespace DemandPaging

variable {α β : Type}

theorem ok_of_bind {ε : Type} {x : Except ε α} {f : α → Except ε β} {b : β}
    (h : (x >>= f) = .ok b) : ∃ a, x = .ok a ∧ f a = .ok b := by
  cases x with
  | error halt => cases h
  | ok a => exact ⟨a, rfl, h⟩

theorem ok_of_map {ε : Type} {x : Except ε α} {f : α → β} {b : β} (h : x.map f = .ok b) :
    ∃ a, x = .ok a ∧ f a = b := by
  cases x with
  | error cause => cases h
  | ok a => exact ⟨a, rfl, Except.ok.inj h⟩

/-- A step of a thread that is not blocked, with something done to its result. -/
theorem step_of_map {x : Option (Except Halt α)} {f : Except Halt α → Except Halt β} {b : β}
    (h : x.map f = some (.ok b)) (hhalt : ∀ halt, ∃ halt', f (.error halt) = .error halt') :
    ∃ a, x = some (.ok a) ∧ f (.ok a) = .ok b := by
  obtain ⟨result, hx, h⟩ := Option.map_eq_some_iff.1 h
  cases result with
  | error halt =>
      obtain ⟨halt', herror⟩ := hhalt halt
      rw [herror] at h
      cases h
  | ok a => exact ⟨a, hx, h⟩

end DemandPaging
