import DemandPaging.Halt

/-!
# Addresses and pages

A virtual address is a page number and an offset inside the page (`page`, `offset`), and can be had
from the two again (`join_split`).
-/

namespace DemandPaging.Address

/-- The largest page or frame number that a mapping can hold. -/
def maxPageNumber : Nat := 0xffffff

/-- The most bytes that one block of memory can have. -/
def maxBlock : Nat := 0x7fffffffffffffff

/-- Refuses a block of memory for `count` items of `width` bytes that is larger than any can be. -/
def refuseBlock (count width : Nat) : Except Halt Unit :=
  if count * width ≤ maxBlock then .ok () else .error .blockTooLarge

/-- The page that holds an address. -/
def page (pageSize address : Nat) : Nat := address / pageSize

/-- The distance of an address from the start of its page. -/
def offset (pageSize address : Nat) : Nat := address % pageSize

/-- The address of byte `offset` of page `page`. -/
def join (pageSize page offset : Nat) : Nat := page * pageSize + offset

/-- The page and the offset of an address. Pages of no bytes hold no address. -/
def split (pageSize address : Nat) : Except Halt (Nat × Nat) :=
  if pageSize = 0 then .error .divisionByZero
  else .ok (page pageSize address, offset pageSize address)

/-- The start of the page that holds an address is in that page. -/
theorem page_join_page (pageSize address : Nat) :
    page pageSize (join pageSize (page pageSize address) 0) = page pageSize address := by
  rcases Nat.eq_zero_or_pos pageSize with rfl | hpos
  · simp [page, join]
  · simp [page, join, Nat.mul_div_left _ hpos]

theorem join_split (pageSize address : Nat) :
    join pageSize (page pageSize address) (offset pageSize address) = address := by
  simp [join, page, offset, Nat.mul_comm, Nat.div_add_mod]

end DemandPaging.Address
