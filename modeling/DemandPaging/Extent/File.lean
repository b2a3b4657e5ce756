import DemandPaging.Extent
import DemandPaging.Extent.SparseBytes
import DemandPaging.HostPath

/-!
# Extents in a file of the host

The file is created with the extent's length and stays open until the extent is removed. Someone
else may resize it or take its name away meanwhile; an open file without a name can still be read
and written.
-/

namespace DemandPaging

/-- An extent kept in a file. -/
structure FileExtent where
  /-- the length the extent was opened with -/
  length : Nat
  /-- what the file holds -/
  bytes : SparseBytes
  /-- the file still has its name -/
  named : Bool
  /-- the file is still open -/
  opened : Bool

namespace FileExtent

/-- Creates the file with this path, or empties it, and fills it with zeros. -/
def create (path : String) (length : Nat) : Except IoError FileExtent :=
  (HostPath.create path length).map fun () => ⟨length, .zeros length, true, true⟩

/-- The bytes that a file holds from an offset. Asking for nothing is asking for too little to
fail. -/
def readFile (bytes : SparseBytes) (offset count : Nat) : Except IoError (List UInt8) :=
  let found := bytes.slice offset count
  if found.length = count then .ok found else .error .endOfFile

def read (e : FileExtent) (offset count : Nat) : Except IoError (List UInt8) × FileExtent :=
  match Extent.refusePastEnd offset count e.length with
  | .error cause => (.error cause, e)
  | .ok () =>
      if e.opened then (readFile e.bytes offset count, e) else (.error .extentRemoved, e)

def write (e : FileExtent) (offset : Nat) (data : List UInt8) :
    Except IoError Unit × FileExtent :=
  match Extent.refusePastEnd offset data.length e.length with
  | .error cause => (.error cause, e)
  | .ok () =>
      if e.opened then (.ok (), { e with bytes := e.bytes.put offset data })
      else (.error .extentRemoved, e)

/-- Closes the file and deletes it by its name. A closed file is left alone. -/
def remove (e : FileExtent) : Except IoError Unit × FileExtent :=
  if ¬ e.opened then (.ok (), e)
  else if e.named then (.ok (), { e with opened := false, named := false })
  else (.error .notFound, { e with opened := false })

instance : Extent FileExtent where
  length := FileExtent.length
  read := read
  write := write
  remove := remove

/-- Someone else takes the file's name away. Answers whether it had one. -/
def unlink (e : FileExtent) : Bool × FileExtent := (e.named, { e with named := false })

/-- Someone else resizes the file by its name. Answers whether it had one and can have that many
bytes. -/
def resize (e : FileExtent) (size : Nat) : Bool × FileExtent :=
  if e.named ∧ size ≤ HostPlace.maxFileLength then (true, { e with bytes := e.bytes.resize size })
  else (false, e)

end FileExtent

end DemandPaging
