import DemandPaging.Address
import DemandPaging.PageId

/-!
# Page tables

A process's page table has an entry for each page of its address space. A page in memory has a
valid entry with the frame it lives in.
-/

namespace DemandPaging

/-- What is known of a page. -/
structure PageEntry where
  /-- the frame the page lives in -/
  frame : Option Nat := none
  /-- the page is in memory -/
  valid : Bool := false
  /-- memory holds the only copy of the page's contents -/
  dirty : Bool := false
  /-- the page was accessed since the bit was last cleared -/
  referenced : Bool := false
  /-- the page may not be written -/
  readOnly : Bool := false
deriving DecidableEq

/-- The bytes that an entry takes. -/
def PageEntry.numBytes : Nat := 24

/-- The entries of a process's pages. -/
structure PageTable where
  entries : Array PageEntry
deriving DecidableEq

namespace PageTable

/-- A table in which no page is in memory. -/
def create (numPages : Nat) : PageTable := ⟨Array.replicate numPages {}⟩

/-- How many pages the address space has. -/
def numPages (t : PageTable) : Nat := t.entries.size

/-- The entry of a page inside the address space. -/
def lookup (t : PageTable) (page : Nat) : Except PagingError PageEntry :=
  match t.entries[page]? with
  | some e => .ok e
  | none => .error (.outOfRange page t.numPages)

/-- The table with the entry of a page replaced. -/
def put (t : PageTable) (page : Nat) (e : PageEntry) : PageTable :=
  ⟨t.entries.setIfInBounds page e⟩

/-- Forgets the frame of a page, whose contents have to be somewhere else by now. -/
def forget (t : PageTable) (page : Nat) : Except PagingError PageTable :=
  (t.lookup page).map fun e => t.put page { readOnly := e.readOnly }

/-- Records that a page is in a frame, clean and not yet accessed. -/
def place (t : PageTable) (page frame : Nat) (readOnly : Bool) : Except PagingError PageTable :=
  (t.lookup page).map fun _ => t.put page { frame := some frame, valid := true, readOnly }

/-- What `f` makes of the entries of the first `n` pages, in page order, before the list given. -/
def collectUpTo {α : Type} (t : PageTable) (f : Nat → PageEntry → Option α) :
    Nat → List α → List α
  | 0, found => found
  | page + 1, found =>
      match t.entries[page]?.bind (f page) with
      | some x => collectUpTo t f page (x :: found)
      | none => collectUpTo t f page found

/-- What `f` makes of the entries, in page order. -/
def collect {α : Type} (t : PageTable) (f : Nat → PageEntry → Option α) : List α :=
  t.collectUpTo f t.numPages []

theorem collectUpTo_eq {α : Type} (t : PageTable) (f : Nat → PageEntry → Option α) (n : Nat)
    (found : List α) : t.collectUpTo f n found =
      ((List.range n).filterMap fun page => t.entries[page]?.bind (f page)) ++ found := by
  induction n generalizing found with
  | zero => rfl
  | succ page ih =>
    rw [collectUpTo, List.range_succ, List.filterMap_append]
    cases h : t.entries[page]?.bind (f page) <;> simp [ih, h]

theorem collect_eq {α : Type} (t : PageTable) (f : Nat → PageEntry → Option α) :
    t.collect f = (List.range t.numPages).filterMap fun page => t.entries[page]?.bind (f page) := by
  simp [collect, collectUpTo_eq]

/-- The pages in memory with their frames, in page order. -/
def inMemory (t : PageTable) : List (Nat × Nat) :=
  t.collect fun page e => if e.valid then e.frame.map fun frame => (page, frame) else none

end PageTable

/-- The page tables of all processes that have an address space. -/
abbrev PageTables := Std.TreeMap Pid PageTable

namespace PageTables

/-- The page table of a process that has one. -/
def table (t : PageTables) (pid : Pid) : Except PagingError PageTable :=
  match t[pid]? with
  | some table => .ok table
  | none => .error (.noSuchProcess pid)

/-- The tables with a new one of `numPages` entries for a process that has none. -/
def add (t : PageTables) (pid : Pid) (numPages : Nat) : Except Halt PageTables := do
  Address.refuseBlock numPages PageEntry.numBytes
  if t.contains pid then .error (.tableExists pid)
  else .ok (t.insert pid (PageTable.create numPages))

/-- The entry of a page. -/
def lookup (t : PageTables) (id : PageId) : Except PagingError PageEntry := do
  (← table t id.pid).lookup id.page

/-- The tables with the entry of a page replaced. -/
def put (t : PageTables) (id : PageId) (e : PageEntry) : PageTables :=
  t.modify id.pid fun table => table.put id.page e

/-- Whether a page is in memory, in this frame. -/
def holds (t : PageTables) (id : PageId) (frame : Nat) : Bool :=
  match lookup t id with
  | .ok e => e.valid && e.frame = some frame
  | .error _ => false

end PageTables

end DemandPaging
