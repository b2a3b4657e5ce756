import DemandPaging.WordArithmetic

/-!
# Extents

An extent is a run of bytes of fixed length that swap is kept in. It is read and written at any
offset, a call that would run past its end is refused, and it is deleted in the end. `patch` is
what a write does to a run of bytes.
-/

namespace DemandPaging

/-- What can be done with a run of bytes of fixed length. A failing call also gives the extent
after it. -/
class Extent (σ : Type) where
  /-- the length in bytes -/
  length : σ → Nat
  /-- the bytes from an offset, of a given count -/
  read : σ → (offset count : Nat) → Except IoError (List UInt8) × σ
  /-- puts bytes at an offset -/
  write : σ → (offset : Nat) → List UInt8 → Except IoError Unit × σ
  /-- deletes the extent, which is not used afterwards -/
  remove : σ → Except IoError Unit × σ

namespace Extent

/-- Refuses a call for `count` bytes from `offset` that run past the end of an extent, or past the
last number that a word can hold. -/
def refusePastEnd (offset count extent : Nat) : Except IoError Unit :=
  if (Checked.sum? offset count).any (· ≤ extent) then .ok ()
  else .error (.pastExtent count offset extent)

/-- The bytes with `data` put at `offset`. A gap before the data is filled with zeros. -/
def patch (bytes : List UInt8) (offset : Nat) (data : List UInt8) : List UInt8 :=
  let before := bytes.take offset
  before ++ List.replicate (offset - before.length) 0 ++ data ++ bytes.drop (offset + data.length)

theorem length_patch {bytes data : List UInt8} {offset : Nat}
    (h : offset + data.length ≤ bytes.length) :
    (patch bytes offset data).length = bytes.length := by
  simp [patch]
  omega

end Extent

end DemandPaging
