import DemandPaging.IoError

/-!
# Files of the host

The machine reads its configuration from a file of its host and may keep its swap extent in one.
Of the host it knows the root with its usual directories, the device directory with its empty
device, and the directory for scratch files; every other name is free. A path is walked from
directory to directory, and the first name that cannot be looked up decides the error.
-/

namespace DemandPaging

/-- What a path leads to. -/
inductive HostPlace where
  | root
  | devices
  | emptyDevice
  | scratch
  /-- one of the host's own directories below the root -/
  | system
  /-- the directory the machine was started in -/
  | working
  /-- a name in an existing directory that no file has -/
  | free
deriving DecidableEq

namespace HostPlace

/-- The most bytes that a name can have. -/
def maxNameLength : Nat := 255

/-- The most bytes that a path can have. -/
def maxPathLength : Nat := 4095

/-- The most bytes that a file can have. -/
def maxFileLength : Nat := 0x7fffffffffffffff

/-- The directories below the root that every host has, besides those for devices and scratch
files. -/
def systemNames : List String :=
  ["bin", "etc", "home", "lib", "opt", "proc", "root", "run", "sbin", "sys", "usr", "var"]

/-- Whether names can be looked up in a place. -/
def isDirectory : HostPlace → Bool
  | root | devices | scratch | system | working => true
  | emptyDevice | free => false

/-- Refuses to look for names in a place that has none. -/
def enter : HostPlace → Except IoError Unit
  | free => .error .notFound
  | emptyDevice => .error .notDirectory
  | _ => .ok ()

/-- The directory that holds a directory. The root holds itself, and of the directories above the
machine's own nothing is known. -/
def parent : HostPlace → HostPlace
  | working => working
  | _ => root

/-- What has a name in a directory. -/
def lookup (directory : HostPlace) (name : String) : HostPlace :=
  match directory, name with
  | root, "dev" => devices
  | root, "tmp" => scratch
  | root, name => if systemNames.contains name then system else free
  | devices, "null" => emptyDevice
  | _, _ => free

/-- Whether a name stands for a directory relative to the one it is looked up in. -/
def isRelative (name : String) : Bool := name = "." || name = ".."

/-- The place that a name leads to. -/
def child (place : HostPlace) (name : String) : Except IoError HostPlace := do
  place.enter
  if name = "." then .ok place
  else if name = ".." then .ok place.parent
  else if maxNameLength < name.utf8ByteSize then .error .nameTooLong
  else .ok (place.lookup name)

end HostPlace

/-- A path, taken apart. -/
structure HostPath where
  /-- where the walk starts -/
  start : HostPlace
  /-- the names on the way -/
  names : List String
  /-- a slash follows the last name, which has to be a directory then -/
  closed : Bool
deriving DecidableEq

namespace HostPath

/-- Takes a path apart. Slashes in a row are one slash. -/
def ofString (path : String) : Except IoError HostPath :=
  if path.toList.any (·.toNat = 0) then .error .zeroInName
  else if path.isEmpty then .error .notFound
  else if HostPlace.maxPathLength < path.utf8ByteSize then .error .nameTooLong
  else
    let parts := path.splitOn "/"
    .ok { start := if parts.head? = some "" then .root else .working
          names := parts.filter (· ≠ "")
          closed := parts.getLast? = some "" }

/-- Where the walk along some names ends. -/
def walk (start : HostPlace) (names : List String) : Except IoError HostPlace :=
  names.foldlM HostPlace.child start

/-- The place that a path leads to, when nothing is created on the way. -/
def find (p : HostPath) : Except IoError HostPlace := do
  let place ← walk p.start p.names
  if p.closed then place.enter
  .ok place

/-- The place that a path leads to, when a file is to be created there if its name is free. A slash
after a new name asks for a directory, whatever has the name. -/
def findForFile (p : HostPath) : Except IoError HostPlace :=
  match p.names.getLast? with
  | none => .ok p.start
  | some last => do
      let directory ← walk p.start p.names.dropLast
      directory.enter
      if p.closed && !HostPlace.isRelative last then .error .isDirectory
      else directory.child last

/-- The bytes of the file with this path. -/
def read (path : String) : Except IoError (List UInt8) := do
  match ← (← ofString path).find with
  | .free => .error .notFound
  | .emptyDevice => .ok []
  | _ => .error .isDirectory

/-- Whether a file with this path can be created or emptied, and given a length. -/
def create (path : String) (length : Nat) : Except IoError Unit := do
  let place ← (← ofString path).findForFile
  if place.isDirectory then .error .isDirectory
  else if HostPlace.maxFileLength < length then .error .lengthTooLarge
  else if place = .emptyDevice then .error .invalidArgument
  else .ok ()

end HostPath

end DemandPaging
