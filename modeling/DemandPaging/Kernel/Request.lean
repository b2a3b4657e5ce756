import DemandPaging.Processor

/-!
# Requests

What a thread that runs a process can ask for while it holds the processor.
-/

namespace DemandPaging

/-- What a running thread asks for. -/
inductive Request where
  /-- load a byte -/
  | read (address : Nat)
  /-- store a byte -/
  | write (address : Nat) (value : UInt8)
  /-- copy bytes out of the address space, up to its end -/
  | copyOut (address count : Nat)
  /-- copy bytes into the address space, up to its end or a read-only page -/
  | copyIn (address : Nat) (data : List UInt8)
  /-- handle a trap, with the address that the processor kept -/
  | handle (trap : Trap)
  /-- save what the mapping cache knows, and empty it -/
  | save
  /-- empty the mapping cache -/
  | restore
  /-- let another thread have the processor -/
  | yield
  /-- keep a frame from being evicted -/
  | pin (frame : Nat)
  /-- take a pin off a frame -/
  | unpin (frame : Nat)
  /-- see the bytes of a frame -/
  | inspect (frame : Nat)
  /-- put an entry into a slot of the mapping cache -/
  | poke (slot page frame : Nat) (flags : Mapping.Flags)
  /-- look at everything -/
  | look
  /-- end the process, and the thread with it -/
  | exit
  /-- end the thread -/
  | leave
deriving DecidableEq

namespace Request

/-- Whether a request stores into memory. -/
def isWriting : Request → Bool
  | write .. | copyIn .. => true
  | _ => false

/-- Where in memory a request begins. -/
def address : Request → Nat
  | read address | write address _ | copyOut address _ | copyIn address _ => address
  | _ => 0

/-- How many bytes a copy is to move. -/
def count : Request → Nat
  | copyOut _ count => count
  | copyIn _ data => data.length
  | _ => 0

end Request

end DemandPaging
