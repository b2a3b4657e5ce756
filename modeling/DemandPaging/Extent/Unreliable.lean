import DemandPaging.Extent

/-!
# Extents whose calls fail on a schedule

An unreliable extent counts its calls and fails those whose numbers are on its lists, leaving the
extent inside as it was. It shows what the rest of the machine does when a device fails.
-/

namespace DemandPaging

/-- An extent that fails the calls on its lists, counted from zero. -/
structure UnreliableExtent (σ : Type) where
  inner : σ
  failingReads : List Nat
  failingWrites : List Nat
  failsRemoval : Bool
  reads : Nat := 0
  writes : Nat := 0

namespace UnreliableExtent

variable {σ : Type} [Extent σ]

def read (e : UnreliableExtent σ) (offset count : Nat) :
    Except IoError (List UInt8) × UnreliableExtent σ :=
  let e' := { e with reads := e.reads + 1 }
  if e.failingReads.contains e.reads then (.error (.device "read failed"), e')
  else
    let (result, inner) := Extent.read e.inner offset count
    (result, { e' with inner })

def write (e : UnreliableExtent σ) (offset : Nat) (data : List UInt8) :
    Except IoError Unit × UnreliableExtent σ :=
  let e' := { e with writes := e.writes + 1 }
  if e.failingWrites.contains e.writes then (.error (.device "write failed"), e')
  else
    let (result, inner) := Extent.write e.inner offset data
    (result, { e' with inner })

def remove (e : UnreliableExtent σ) : Except IoError Unit × UnreliableExtent σ :=
  if e.failsRemoval then (.error (.device "remove failed"), e)
  else
    let (result, inner) := Extent.remove e.inner
    (result, { e with inner })

instance : Extent (UnreliableExtent σ) where
  length e := Extent.length e.inner
  read := read
  write := write
  remove := remove

end UnreliableExtent

end DemandPaging
