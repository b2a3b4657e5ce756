import DemandPaging.Extent.File
import DemandPaging.Extent.Memory
import DemandPaging.Extent.Unreliable

/-!
# The extents a machine can be given
-/

namespace DemandPaging

/-- One of the kinds of extent. -/
inductive ExtentChoice where
  | memory (e : MemoryExtent)
  | file (e : FileExtent)
  | unreliable (e : UnreliableExtent MemoryExtent)

namespace ExtentChoice

def length : ExtentChoice → Nat
  | memory e => Extent.length e
  | file e => Extent.length e
  | unreliable e => Extent.length e

def read (c : ExtentChoice) (offset count : Nat) : Except IoError (List UInt8) × ExtentChoice :=
  match c with
  | memory e => (Extent.read e offset count).map id memory
  | file e => (Extent.read e offset count).map id file
  | unreliable e => (Extent.read e offset count).map id unreliable

def write (c : ExtentChoice) (offset : Nat) (data : List UInt8) :
    Except IoError Unit × ExtentChoice :=
  match c with
  | memory e => (Extent.write e offset data).map id memory
  | file e => (Extent.write e offset data).map id file
  | unreliable e => (Extent.write e offset data).map id unreliable

def remove : ExtentChoice → Except IoError Unit × ExtentChoice
  | memory e => (Extent.remove e).map id memory
  | file e => (Extent.remove e).map id file
  | unreliable e => (Extent.remove e).map id unreliable

instance : Extent ExtentChoice where
  length := length
  read := read
  write := write
  remove := remove

/-- Whether the host has a file for the extent. -/
def hasFile : ExtentChoice → Bool
  | file e => e.named
  | memory _ | unreliable _ => false

/-- Someone else takes the name of the extent's file away. -/
def unlink : ExtentChoice → Bool × ExtentChoice
  | file e => e.unlink.map id file
  | other => (false, other)

/-- Someone else resizes the extent's file. -/
def resize (c : ExtentChoice) (size : Nat) : Bool × ExtentChoice :=
  match c with
  | file e => (e.resize size).map id file
  | other => (false, other)

end ExtentChoice

end DemandPaging
