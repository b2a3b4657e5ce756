import DemandPaging.Address

/-!
# Arithmetic that stays in a word

Numbers are natural numbers nearly everywhere, and the machine has words of 64 bits. An operation of
this module is the one of the machine: it has no result where the true one does not fit a word, and
a slice has none where it is not inside the list. A computation that is written with these
operations and has the result of the one with natural numbers is one in which nothing overflows.
-/

namespace DemandPaging.Checked

/-- The sum of two numbers, if it fits a word. -/
def sum? (a b : Nat) : Option Nat := if a + b < UInt64.size then some (a + b) else none

/-- The product of two numbers, if it fits a word. -/
def product? (a b : Nat) : Option Nat := if a * b < UInt64.size then some (a * b) else none

/-- What is left of a number, if it is not smaller than what is taken away. -/
def difference? (a b : Nat) : Option Nat := if b ≤ a then some (a - b) else none

/-- The sum of two numbers, or the largest word. -/
def saturatingSum (a b : Nat) : Nat := min (a + b) (UInt64.size - 1)

/-- The part of a list from one place up to another, if both are inside and in order. -/
def slice? {α : Type} (items : List α) (start stop : Nat) : Option (List α) :=
  if start ≤ stop ∧ stop ≤ items.length then some ((items.drop start).take (stop - start))
  else none

/-- The address of a byte of a page. -/
def address? (pageSize page offset : Nat) : Option Nat := do
  sum? (← product? page pageSize) offset

/-- The bytes of a page, or of a slot that takes one: the number of the first, and of the one after
the last. -/
def bounds? (pageSize page : Nat) : Option (Nat × Nat) := do
  let start ← product? page pageSize
  let stop ← sum? start pageSize
  some (start, stop)

theorem sum?_eq {a b : Nat} (h : a + b < UInt64.size) : sum? a b = some (a + b) := if_pos h

theorem sum?_eq_none {a b : Nat} (h : ¬ a + b < UInt64.size) : sum? a b = none := if_neg h

theorem any_sum?_le_iff {a b c : Nat} :
    (sum? a b).any (· ≤ c) = true ↔ a + b < UInt64.size ∧ a + b ≤ c := by
  by_cases h : a + b < UInt64.size
  · simp [sum?_eq h, h]
  · simp [sum?_eq_none h, h]

theorem product?_eq {a b : Nat} (h : a * b < UInt64.size) : product? a b = some (a * b) := if_pos h

theorem difference?_eq {a b : Nat} (h : b ≤ a) : difference? a b = some (a - b) := if_pos h

theorem slice?_eq {α : Type} {items : List α} {start stop : Nat} (h : start ≤ stop)
    (hstop : stop ≤ items.length) :
    slice? items start stop = some ((items.drop start).take (stop - start)) :=
  if_pos ⟨h, hstop⟩

theorem address?_eq {pageSize page offset : Nat}
    (h : Address.join pageSize page offset < UInt64.size) :
    address? pageSize page offset = some (Address.join pageSize page offset) := by
  rw [Address.join] at h
  rw [address?, product?_eq (Nat.lt_of_le_of_lt (Nat.le_add_right _ _) h)]
  exact sum?_eq h

theorem bounds?_eq {pageSize page : Nat} (h : (page + 1) * pageSize < UInt64.size) :
    bounds? pageSize page = some (page * pageSize, (page + 1) * pageSize) := by
  rw [Nat.succ_mul] at h ⊢
  simp only [bounds?, product?_eq (Nat.lt_of_le_of_lt (Nat.le_add_right _ _) h), sum?_eq h,
    Option.bind_eq_bind, Option.bind_some]

/-- The bytes of a page below the last of so many are inside the bytes of all. -/
theorem exists_bounds? {pageSize count page : Nat} (hpage : page < count)
    (hcount : count * pageSize < UInt64.size) :
    ∃ start stop, bounds? pageSize page = some (start, stop) ∧ stop ≤ count * pageSize := by
  have hle : (page + 1) * pageSize ≤ count * pageSize := Nat.mul_le_mul_right _ hpage
  exact ⟨_, _, bounds?_eq (Nat.lt_of_le_of_lt hle hcount), hle⟩

end DemandPaging.Checked
