import DemandPaging.FrameTable

/-!
# What a frame record keeps

A frame record is a word cut into fields that share no bit, so each setter is seen by its own getter
and by no other. The statements here are the only ones about the layout of these records that later
modules use.
-/

namespace DemandPaging

namespace FrameRecord

@[simp] theorem allocated_empty : empty.allocated = false := rfl

@[simp] theorem owner_empty : empty.owner = none := rfl

@[simp] theorem pins_empty : empty.pins = 0 := rfl

variable (e : FrameRecord)

@[simp] theorem allocated_withPins (n : Nat) : (e.withPins n).allocated = e.allocated :=
  BitField.test_set_of_outside (by decide) _ _

@[simp] theorem owned_withPins (n : Nat) : (e.withPins n).owned = e.owned :=
  BitField.test_set_of_outside (by decide) _ _

@[simp] theorem owner_withPins (n : Nat) : (e.withPins n).owner = e.owner := by
  have h1 : pidField.get (e.withPins n).bits = pidField.get e.bits :=
    BitField.get_set_of_disjoint (by decide) _ _
  have h2 : pageField.get (e.withPins n).bits = pageField.get e.bits :=
    BitField.get_set_of_disjoint (by decide) _ _
  rw [owner, owned_withPins, h1, h2]
  rfl

theorem pins_withPins {n : Nat} (h : n ≤ FrameTable.maxPins) : (e.withPins n).pins = n :=
  BitField.get_set_of_lt (Nat.lt_succ_of_le h) _

theorem withPins_pins : e.withPins e.pins = e :=
  congrArg FrameRecord.mk (BitField.set_get _ _)

theorem withPins_withPins (n k : Nat) : (e.withPins n).withPins k = e.withPins k :=
  congrArg FrameRecord.mk (BitField.set_set _ _ _ _)

theorem pins_le : e.pins ≤ FrameTable.maxPins :=
  Nat.le_of_lt_succ (BitField.get_lt _ _)

@[simp] theorem allocated_reserved (n : Nat) : (reserved n).allocated = true := by
  rw [reserved, allocated_withPins]
  rfl

@[simp] theorem owner_reserved (n : Nat) : (reserved n).owner = none := by
  rw [reserved, owner_withPins]
  rfl

theorem pins_reserved {n : Nat} (h : n ≤ FrameTable.maxPins) : (reserved n).pins = n :=
  pins_withPins _ h

variable (id : PageId)

@[simp] theorem allocated_ownedBy : (ownedBy id).allocated = true := by
  show allocatedField.test (pageField.set (pidField.set _ _) _) = true
  rw [BitField.test_set_of_outside (by decide), BitField.test_set_of_outside (by decide)]
  rfl

@[simp] theorem pins_ownedBy : (ownedBy id).pins = 0 := by
  show pinsField.get (pageField.set (pidField.set _ _) _) = 0
  rw [BitField.get_set_of_disjoint (by decide), BitField.get_set_of_disjoint (by decide)]
  rfl

/-- The owner of an owned record is read back: a process number has 16 bits, and a page number that
fits has 24. -/
theorem owner_ownedBy (h : id.page ≤ Address.maxPageNumber) : (ownedBy id).owner = some id := by
  have howned : (ownedBy id).owned = true := by
    show ownedField.test (pageField.set (pidField.set _ _) _) = true
    rw [BitField.test_set_of_outside (by decide), BitField.test_set_of_outside (by decide)]
    rfl
  have hpid : pidField.get (ownedBy id).bits = id.pid.toNat := by
    show pidField.get (pageField.set (pidField.set _ _) _) = id.pid.toNat
    rw [BitField.get_set_of_disjoint (by decide)]
    exact BitField.get_set_of_lt id.pid.toNat_lt _
  have hpage : pageField.get (ownedBy id).bits = id.page :=
    BitField.get_set_of_lt (Nat.lt_succ_of_le h) _
  rw [owner, if_pos howned, hpid, hpage, UInt16.ofNat_toNat]

/-- A record that names an owner is marked as owned. -/
theorem owned_eq_isSome_owner : e.owned = e.owner.isSome := by
  rw [owner]
  cases h : e.owned <;> simp

end FrameRecord

end DemandPaging
