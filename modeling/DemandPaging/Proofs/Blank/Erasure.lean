import DemandPaging.Kernel.Event

/-!
# Machines without byte values

`erased` takes the values out of every byte of a machine and leaves everything else: how many bytes
there are, and all tables, queues and counters. What it gives for a kernel, a request, an event or
an answer is one of a machine whose swap extent keeps nothing (`BlankExtent`), so a machine can run
without byte values, and two machines that differ in nothing else have the same erasure.
-/

namespace DemandPaging

/-- As many bytes, all of them zero. -/
def blank (bytes : List UInt8) : List UInt8 := bytes.map fun _ => 0

/-- An extent in which nothing is kept: every byte is read as zero. -/
structure BlankExtent where
deriving DecidableEq

instance : Extent BlankExtent where
  length _ := 0
  read e _ count := (.ok (List.replicate count 0), e)
  write e _ _ := (.ok (), e)
  remove e := (.ok (), e)

section Blank

variable {bytes data : List UInt8}

@[simp] theorem length_blank : (blank bytes).length = bytes.length := List.length_map _

@[simp] theorem blank_append : blank (bytes ++ data) = blank bytes ++ blank data := List.map_append

@[simp] theorem blank_take (n : Nat) : blank (bytes.take n) = (blank bytes).take n := List.map_take

@[simp] theorem blank_drop (n : Nat) : blank (bytes.drop n) = (blank bytes).drop n := List.map_drop

@[simp] theorem blank_replicate (n : Nat) (b : UInt8) :
    blank (List.replicate n b) = List.replicate n 0 := List.map_replicate

theorem blank_eq_replicate : blank bytes = List.replicate bytes.length 0 := List.map_const' ..

theorem blank_set (i : Nat) (b : UInt8) : blank (bytes.set i b) = (blank bytes).set i 0 :=
  List.map_set ..

/-- Writing bytes over others is blind to the values of both. -/
theorem blank_patch (offset : Nat) :
    blank (Extent.patch bytes offset data) = Extent.patch (blank bytes) offset (blank data) := by
  simp [Extent.patch]

end Blank

/-! ## Images and processes -/

/-- The section with bytes of value zero. -/
def Section.erased (s : Section) : Section := { s with data := blank s.data }

namespace Image

theorem sectionFault_erased (pageSize : Nat) (earlier : List Section) (s : Section) :
    sectionFault pageSize (earlier.map Section.erased) s.erased =
      sectionFault pageSize earlier s := by
  have hoverlap : (fun other => s.erased.overlaps other.toPageRun) ∘ Section.erased =
      fun other => s.overlaps other.toPageRun := rfl
  have hlength : s.erased.data.length = s.data.length := length_blank
  rw [sectionFault, sectionFault, List.findIdx?_map, hoverlap, List.length_map, hlength]
  rfl

theorem firstFault_erased (pageSize : Nat) (earlier sections : List Section) :
    firstFault pageSize (earlier.map Section.erased) (sections.map Section.erased) =
      firstFault pageSize earlier sections := by
  induction sections generalizing earlier with
  | nil => rfl
  | cons s rest ih =>
      have hrest := ih (earlier ++ [s])
      rw [List.map_append] at hrest
      rw [List.map_cons, firstFault, firstFault, sectionFault_erased]
      cases sectionFault pageSize earlier s with
      | some fault => rfl
      | none => exact hrest

/-- Whether sections make up an image does not hang on the values of their bytes. -/
theorem layoutFault_erased (pageSize : Nat) (sections : List Section) :
    layoutFault pageSize (sections.map Section.erased) = layoutFault pageSize sections := by
  have hfirst := firstFault_erased pageSize [] sections
  rw [List.map_nil] at hfirst
  rw [layoutFault, layoutFault, List.length_map, hfirst]

/-- The image with bytes of value zero. -/
def erased (image : Image) : Image :=
  ⟨image.sections.map Section.erased, image.pageSize,
    (layoutFault_erased _ _).trans image.sound⟩

variable (image : Image)

theorem sectionAt_erased (page : Nat) :
    image.erased.sectionAt page =
      (image.sectionAt page).map fun found => (found.1, found.2.erased) := by
  show ((image.sections.map Section.erased).zipIdx.find? fun s => s.1.contains page).map _ = _
  rw [List.zipIdx_map, List.find?_map, sectionAt, Option.map_map, Option.map_map]
  rfl

@[simp] theorem isReadOnly_erased (page : Nat) :
    image.erased.isReadOnly page = image.isReadOnly page := by
  rw [isReadOnly, sectionAt_erased, isReadOnly]
  cases image.sectionAt page <;> rfl

@[simp] theorem endPage_erased : image.erased.endPage = image.endPage := by
  show (image.sections.map Section.erased).foldl _ 0 = _
  rw [List.foldl_map]
  rfl

/-- A page starts with as many bytes. -/
theorem initialPage_erased (page size : Nat) :
    image.erased.initialPage page size = blank (image.initialPage page size) := by
  rw [initialPage, sectionAt_erased, initialPage]
  cases image.sectionAt page with
  | none => exact (blank_replicate size 0).symm
  | some found => simp [Section.pageBytes, Section.erased]

end Image

@[simp] theorem UserProcess.addressSpace_erased (image : Image) (stackPages : Nat) :
    addressSpace image.erased stackPages = addressSpace image stackPages := by
  rw [addressSpace, addressSpace, image.endPage_erased]

/-- The process with an image without byte values. -/
def UserProcess.erased (p : UserProcess) : UserProcess := { p with image := p.image.erased }

/-! ## Requests and answers -/

/-- The request with bytes of value zero. -/
def Request.erased : Request → Request
  | write address _ => write address 0
  | copyIn address data => copyIn address (blank data)
  | other => other

/-- The call with bytes of value zero. -/
def Call.erased (c : Call) : Call :=
  { c with request := c.request.erased, moved := blank c.moved }

/-- The phase with bytes of value zero. -/
def Phase.erased : Phase → Phase
  | busy call => busy call.erased
  | other => other

/-- The session with bytes of value zero. -/
def Session.erased (s : Session) : Session := { s with phase := s.phase.erased }

/-- The event with bytes of value zero. -/
def Event.erased : Event → Event
  | spawn image => spawn image.erased
  | ask session request => ask session request.erased
  | other => other

/-! ## The machine -/

/-- The processor with bytes of value zero in its memory. -/
def Processor.erased (p : Processor) : Processor := { p with memory := p.memory.map blank }

variable {σ : Type}

/-- The same slots, in an extent that keeps nothing. -/
def SwapArea.erased (s : SwapArea σ) : SwapArea BlankExtent := { s with extent := {} }

/-- The same tables, without byte values. -/
def Paging.erased (s : Paging σ) : Paging BlankExtent :=
  { s with processor := s.processor.erased, swap := s.swap.erased }

@[simp] theorem Paging.frameTable_erased (s : Paging σ) : s.erased.frameTable = s.frameTable := rfl

@[simp] theorem Paging.tables_erased (s : Paging σ) : s.erased.tables = s.tables := rfl

/-- The same kernel, without byte values. -/
def Kernel.erased (k : Kernel σ) : Kernel BlankExtent :=
  { k with
    paging := k.paging.erased
    processes := k.processes.map UserProcess.erased
    sessions := k.sessions.map Session.erased }

/-- The answer with bytes of value zero. -/
def Response.erased : Response σ → Response BlankExtent
  | done => done
  | byte _ => byte 0
  | copied data => copied (blank data)
  | stored count => stored count
  | contents data => contents (blank data)
  | failed cause => failed cause
  | spawned place => spawned place
  | seen kernel => seen kernel.erased

/-- What a step inside a request leads to, with bytes of value zero. -/
def CallResult.erased : CallResult σ → CallResult BlankExtent
  | continues call => continues call.erased
  | answered response => answered response.erased
  | ended response => ended (response.map Response.erased)

end DemandPaging
