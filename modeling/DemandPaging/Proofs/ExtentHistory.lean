import DemandPaging.Proofs.Extent
import DemandPaging.Proofs.Results
import DemandPaging.WordArithmetic
import Mathlib

/-!
# What an extent remembers

An extent is called in any order, at any offsets and for any number of bytes. What a byte is then is
what it was last written with, or zero (`lastWritten`), and this decides what every call has to
answer (`ExtentCall.due`).

A fresh extent in memory and a fresh one in a file both answer so, and therefore nobody who only
calls them can tell them apart (`Extent.file_agrees_with_memory`).
-/

namespace DemandPaging

/-- What an extent can be called for, as long as it is not deleted. -/
inductive ExtentCall where
  | read (offset count : Nat)
  | write (offset : Nat) (data : List UInt8)
deriving DecidableEq

/-- What a call answers. -/
inductive ExtentAnswer where
  | gave (data : List UInt8)
  | written
  | failed (cause : IoError)
deriving DecidableEq

namespace ExtentCall

/-- The first byte that a call is for. -/
def offset : ExtentCall → Nat
  | read offset _ => offset
  | write offset _ => offset

/-- How many bytes a call is for. -/
def count : ExtentCall → Nat
  | read _ count => count
  | write _ data => data.length

end ExtentCall

/-- The value that a byte was last written with, by a history of calls of which the last one is
first. Only the writes that did not fail count. -/
def lastWritten : List (ExtentCall × ExtentAnswer) → Nat → UInt8
  | [], _ => 0
  | (.write offset data, .written) :: before, i =>
      if offset ≤ i ∧ i < offset + data.length then data[i - offset]?.getD 0
      else lastWritten before i
  | _ :: before, i => lastWritten before i

theorem lastWritten_failed (call : ExtentCall) (cause : IoError)
    (history : List (ExtentCall × ExtentAnswer)) (i : Nat) :
    lastWritten ((call, .failed cause) :: history) i = lastWritten history i := by
  cases call <;> rfl

/-- What a call has to answer after a history of calls. -/
def ExtentCall.due (length : Nat) (history : List (ExtentCall × ExtentAnswer)) (call : ExtentCall) :
    ExtentAnswer :=
  if length < call.offset + call.count then .failed (.pastExtent call.count call.offset length)
  else
    match call with
    | read offset count => .gave ((List.range' offset count).map (lastWritten history))
    | write .. => .written

namespace ExtentCall

variable {length offset count : Nat} {data : List UInt8} {call : ExtentCall}
  {history : List (ExtentCall × ExtentAnswer)}

theorem due_past (h : length < call.offset + call.count) :
    call.due length history = .failed (.pastExtent call.count call.offset length) := if_pos h

theorem due_read (h : offset + count ≤ length) : (read offset count).due length history =
    .gave ((List.range' offset count).map (lastWritten history)) := if_neg (Nat.not_lt_of_le h)

theorem due_write (h : offset + data.length ≤ length) :
    (write offset data).due length history = .written := if_neg (Nat.not_lt_of_le h)

theorem exists_due_eq_failed_iff (call : ExtentCall) :
    (∃ cause, call.due length history = .failed cause) ↔ length < call.offset + call.count := by
  constructor
  · rintro ⟨cause, hdue⟩
    apply Nat.lt_of_not_le
    intro hinside
    cases call with
    | read offset count =>
        have hinside : offset + count ≤ length := hinside
        rw [due_read hinside] at hdue
        cases hdue
    | write offset data =>
        have hinside : offset + data.length ≤ length := hinside
        rw [due_write hinside] at hdue
        cases hdue
  · intro hpast
    exact ⟨_, due_past hpast⟩

end ExtentCall

/-- The history of calls that are answered as they have to be. -/
def dueAll (length : Nat) (history : List (ExtentCall × ExtentAnswer)) :
    List ExtentCall → List (ExtentCall × ExtentAnswer)
  | [] => history
  | call :: rest => dueAll length ((call, call.due length history) :: history) rest

namespace Extent

variable {σ : Type} [Extent σ]

/-- What a call does, and its answer. -/
def serve (e : σ) : ExtentCall → ExtentAnswer × σ
  | .read offset count =>
      match Extent.read e offset count with
      | (.ok data, e) => (.gave data, e)
      | (.error cause, e) => (.failed cause, e)
  | .write offset data =>
      match Extent.write e offset data with
      | (.ok (), e) => (.written, e)
      | (.error cause, e) => (.failed cause, e)

/-- Calls one after the other, after a history of others. -/
def serveAll (e : σ) (history : List (ExtentCall × ExtentAnswer)) :
    List ExtentCall → List (ExtentCall × ExtentAnswer) × σ
  | [] => (history, e)
  | call :: rest => serveAll (serve e call).2 ((call, (serve e call).1) :: history) rest

variable [Reliable σ]

/-- After a history of calls an extent of this length holds what was last written. -/
structure Remembers (length : Nat) (history : List (ExtentCall × ExtentAnswer)) (e : σ) :
    Prop where
  intact : Reliable.Intact e
  length_eq : Extent.length e = length
  content : ∀ i < length, (Reliable.content e)[i]? = some (lastWritten history i)

variable {length : Nat} {history : List (ExtentCall × ExtentAnswer)} {e e' : σ}

namespace Remembers

theorem of_content_eq (h : Remembers length history e) (hintact : Reliable.Intact e')
    (hcontent : Reliable.content e' = Reliable.content e)
    {history' : List (ExtentCall × ExtentAnswer)}
    (hlast : ∀ i, lastWritten history' i = lastWritten history i) :
    Remembers length history' e' := by
  have hlength : Extent.length e' = Extent.length e := by
    rw [← Reliable.length_content hintact, ← Reliable.length_content h.intact, hcontent]
  refine ⟨hintact, hlength.trans h.length_eq, ?_⟩
  intro i hi
  rw [hcontent, hlast]
  exact h.content i hi

/-- The bytes of a part of the extent are what they were last written with. -/
theorem take_drop_content (h : Remembers length history e) {offset count : Nat}
    (hinside : offset + count ≤ length) :
    ((Reliable.content e).drop offset).take count =
      (List.range' offset count).map (lastWritten history) := by
  apply List.ext_getElem?
  intro i
  by_cases hi : i < count
  · rw [List.getElem?_take_of_lt hi, List.getElem?_drop, h.content _ (by omega), List.getElem?_map,
      List.getElem?_range' hi, Nat.one_mul]
    rfl
  · rw [List.getElem?_eq_none (by simp; omega), List.getElem?_eq_none (by simp; omega)]

/-- A read inside the extent gives what was last written, and nothing is different then. -/
theorem serve_read (h : Remembers length history e) {offset count : Nat}
    (hinside : offset + count ≤ length) :
    ∃ e', serve e (.read offset count) =
        (.gave ((List.range' offset count).map (lastWritten history)), e') ∧
      ∀ answer, Remembers length ((.read offset count, answer) :: history) e' := by
  have hle : offset + count ≤ Extent.length e := h.length_eq ▸ hinside
  obtain ⟨e', hread, hintact, hcontent⟩ := Reliable.read_intact h.intact hle
  refine ⟨e', ?_, fun answer => h.of_content_eq hintact hcontent fun _ => rfl⟩
  rw [serve, hread, h.take_drop_content hinside]

/-- A write inside the extent is what was last written to its bytes. -/
theorem serve_write (h : Remembers length history e) {offset : Nat} {data : List UInt8}
    (hinside : offset + data.length ≤ length) :
    ∃ e', serve e (.write offset data) = (.written, e') ∧
      Remembers length ((.write offset data, .written) :: history) e' := by
  have hle : offset + data.length ≤ Extent.length e := h.length_eq ▸ hinside
  obtain ⟨e', hwrite, hintact, hcontent⟩ := Reliable.write_intact h.intact hle
  have hbytes : (Reliable.content e).length = length :=
    (Reliable.length_content h.intact).trans h.length_eq
  have hfits : offset + data.length ≤ (Reliable.content e).length := hbytes ▸ hinside
  refine ⟨e', by rw [serve, hwrite], hintact, ?_, ?_⟩
  · rw [← Reliable.length_content hintact, hcontent, length_patch hfits, hbytes]
  · intro i hi
    rw [hcontent, getElem?_patch hfits, lastWritten]
    split
    · rw [List.getElem?_eq_getElem (by omega)]
      rfl
    · exact h.content i hi

variable [Refusing σ]

/-- A call past the end is refused, and the extent stays as it is. -/
theorem serve_past (h : Remembers length history e) {call : ExtentCall}
    (hpast : length < call.offset + call.count) :
    serve e call = (.failed (.pastExtent call.count call.offset length), e) := by
  rw [← h.length_eq] at hpast ⊢
  cases call with
  | read offset count =>
      have hpast : Extent.length e < offset + count := hpast
      rw [serve, Refusing.read_past hpast]
      rfl
  | write offset data =>
      have hpast : Extent.length e < offset + data.length := hpast
      rw [serve, Refusing.write_past hpast]
      rfl

/-- What is remembered decides the answer to every call, and the call is then remembered with it. -/
theorem serve_due (h : Remembers length history e) (call : ExtentCall) :
    ∃ e', serve e call = (call.due length history, e') ∧
      Remembers length ((call, call.due length history) :: history) e' := by
  by_cases hpast : length < call.offset + call.count
  · rw [h.serve_past hpast, ExtentCall.due_past hpast]
    exact ⟨e, rfl, h.of_content_eq h.intact rfl (lastWritten_failed _ _ _)⟩
  · cases call with
    | read offset count =>
        have hinside : offset + count ≤ length := Nat.le_of_not_lt hpast
        obtain ⟨e', hserve, hnext⟩ := h.serve_read hinside
        rw [hserve, ExtentCall.due_read hinside]
        exact ⟨e', rfl, hnext _⟩
    | write offset data =>
        have hinside : offset + data.length ≤ length := Nat.le_of_not_lt hpast
        obtain ⟨e', hserve, hnext⟩ := h.serve_write hinside
        rw [hserve, ExtentCall.due_write hinside]
        exact ⟨e', rfl, hnext⟩

theorem serveAll_due (h : Remembers length history e) (calls : List ExtentCall) :
    ∃ e', serveAll e history calls = (dueAll length history calls, e') ∧
      Remembers length (dueAll length history calls) e' := by
  induction calls generalizing e history with
  | nil => exact ⟨e, rfl, h⟩
  | cons call rest ih =>
      obtain ⟨e', hserve, hnext⟩ := h.serve_due call
      rw [serveAll, hserve, dueAll]
      exact ih hnext

end Remembers

/-! ## Fresh extents -/

/-- An extent of zeros holds what was last written before any call. -/
theorem remembers_zeros {e : σ} (hintact : Reliable.Intact e)
    (hcontent : Reliable.content e = (SparseBytes.zeros length).toList) :
    Remembers length [] e := by
  refine ⟨hintact, ?_, ?_⟩
  · rw [← Reliable.length_content hintact, hcontent, SparseBytes.length_toList]
    rfl
  · intro i hi
    have hi : i < (SparseBytes.zeros length).length := hi
    rw [hcontent, SparseBytes.getElem?_toList, if_pos hi, SparseBytes.byteAt_zeros, lastWritten]

end Extent

/-- The host has no files that are longer than the longest. -/
theorem HostPath.length_le_of_create {path : String} {length : Nat}
    (h : HostPath.create path length = .ok ()) : length ≤ HostPlace.maxFileLength := by
  unfold HostPath.create at h
  obtain ⟨parts, -, h⟩ := ok_of_bind h
  obtain ⟨place, -, h⟩ := ok_of_bind h
  split at h
  · cases h
  · split at h
    · cases h
    · rename_i hlength
      exact Nat.le_of_not_lt hlength

theorem FileExtent.length_lt_of_create {path : String} {length : Nat} {file : FileExtent}
    (h : create path length = .ok file) : length < UInt64.size := by
  obtain ⟨_, hcreate, -⟩ := ok_of_map h
  exact Nat.lt_of_le_of_lt (HostPath.length_le_of_create hcreate) (by decide)

theorem FileExtent.remembers_create {path : String} {length : Nat} {file : FileExtent}
    (h : create path length = .ok file) : Extent.Remembers length [] file := by
  have hword := length_lt_of_create h
  rw [create] at h
  obtain ⟨-, -, rfl⟩ := ok_of_map h
  exact Extent.remembers_zeros ⟨rfl, rfl, hword⟩ rfl

/-- An extent in memory is one block, so its length fits a word. -/
theorem MemoryExtent.length_lt_of_zeros {length : Nat} {memory : MemoryExtent}
    (h : zeros length = .ok memory) : length < UInt64.size := by
  rw [zeros, Address.refuseBlock, Nat.mul_one] at h
  obtain ⟨_, hblock, _⟩ := ok_of_map h
  split at hblock
  · rename_i hle
    exact Nat.lt_of_le_of_lt hle (by decide)
  · cases hblock

theorem MemoryExtent.remembers_zeros {length : Nat} {memory : MemoryExtent}
    (h : zeros length = .ok memory) : Extent.Remembers length [] memory := by
  have hword := length_lt_of_zeros h
  rw [zeros] at h
  obtain ⟨-, -, rfl⟩ := ok_of_map h
  exact Extent.remembers_zeros (intact_zeros hword) rfl

/-- A call is past the end exactly if the sum of its offset and its count, in words, overflows or is
too large. -/
theorem ExtentCall.past_iff {length : Nat} (hword : length < UInt64.size) (call : ExtentCall) :
    length < call.offset + call.count ↔
      ∀ stop, Checked.sum? call.offset call.count = some stop → length < stop := by
  by_cases hsum : call.offset + call.count < UInt64.size
  · rw [Checked.sum?_eq hsum]
    simp
  · rw [Checked.sum?_eq_none hsum]
    simp only [reduceCtorEq, false_implies, implies_true, iff_true]
    omega

/-- A fresh extent in a file that nobody else touches and one of the same length in memory answer
all calls alike. A call fails exactly if it is past the end, and then it changes nothing. A read
inside the extent gives every byte as it was last written. -/
theorem Extent.file_agrees_with_memory {path : String} {length : Nat} {file : FileExtent}
    {memory : MemoryExtent} (hfile : FileExtent.create path length = .ok file)
    (hmemory : MemoryExtent.zeros length = .ok memory) (calls : List ExtentCall) :
    ∃ history file' memory', serveAll file [] calls = (history, file') ∧
      serveAll memory [] calls = (history, memory') ∧
      ∀ call, ∃ answer file'' memory'', serve file' call = (answer, file'') ∧
        serve memory' call = (answer, memory'') ∧
        ((∃ cause, answer = .failed cause) ↔ length < call.offset + call.count) ∧
        (length < call.offset + call.count ↔
          ∀ stop, Checked.sum? call.offset call.count = some stop → length < stop) ∧
        (∀ cause, answer = .failed cause →
          cause.kind = .invalidInput ∧ file'' = file' ∧ memory'' = memory') ∧
        ∀ offset count, call = .read offset count → offset + count ≤ length →
          ∃ data, answer = .gave data ∧ data.length = count ∧
            ∀ i < count, data[i]? = some (lastWritten history (offset + i)) := by
  obtain ⟨file', hall, hheld⟩ := (FileExtent.remembers_create hfile).serveAll_due calls
  obtain ⟨memory', hall', hheld'⟩ := (MemoryExtent.remembers_zeros hmemory).serveAll_due calls
  refine ⟨_, file', memory', hall, hall', ?_⟩
  intro call
  obtain ⟨file'', hserve, -⟩ := hheld.serve_due call
  obtain ⟨memory'', hserve', -⟩ := hheld'.serve_due call
  refine ⟨_, file'', memory'', hserve, hserve', ?_,
    call.past_iff (MemoryExtent.length_lt_of_zeros hmemory), ?_, ?_⟩
  · exact call.exists_due_eq_failed_iff
  · intro cause hfailed
    have hpast := call.exists_due_eq_failed_iff.1 ⟨cause, hfailed⟩
    rw [ExtentCall.due_past hpast] at hfailed
    obtain rfl := ExtentAnswer.failed.inj hfailed
    exact ⟨rfl, (Prod.mk.inj (hserve.symm.trans (hheld.serve_past hpast))).2,
      (Prod.mk.inj (hserve'.symm.trans (hheld'.serve_past hpast))).2⟩
  · rintro offset count rfl hinside
    refine ⟨_, ExtentCall.due_read hinside, by simp, ?_⟩
    intro i hi
    rw [List.getElem?_map, List.getElem?_range' hi, Nat.one_mul]
    rfl

/-- Writes that overlap, and one that is past the end of four bytes. -/
def overlappingCalls : List ExtentCall := [.write 0 [1, 2, 3], .write 1 [7, 8], .write 3 [9, 9]]

/-- After the overlapping writes the file and the memory give the same four bytes: one of the first
write, two of the second, and one that was never written. -/
theorem Extent.file_agrees_with_memory_four :
    ∃ (file file' : FileExtent) (memory memory' : MemoryExtent)
      (history : List (ExtentCall × ExtentAnswer)),
      FileExtent.create "swap" 4 = .ok file ∧ MemoryExtent.zeros 4 = .ok memory ∧
        serveAll file [] overlappingCalls = (history, file') ∧
        serveAll memory [] overlappingCalls = (history, memory') ∧
        (serve file' (.read 0 4)).1 = .gave [1, 7, 8, 0] ∧
        (serve memory' (.read 0 4)).1 = .gave [1, 7, 8, 0] := by
  have hfile : FileExtent.create "swap" 4 = .ok ⟨4, .zeros 4, true, true⟩ := by cbv
  have hmemory : MemoryExtent.zeros 4 = .ok ⟨.zeros 4⟩ := rfl
  obtain ⟨history, file', memory', hall, hall', hnext⟩ :=
    Extent.file_agrees_with_memory hfile hmemory overlappingCalls
  obtain ⟨answer, file'', memory'', hserve, hserve', -, -, -, hread⟩ := hnext (.read 0 4)
  obtain ⟨data, rfl, hlength, hbytes⟩ := hread 0 4 rfl (Nat.le_refl 4)
  have hhistory : history = dueAll 4 [] overlappingCalls := by
    have hcomputed : (serveAll (⟨.zeros 4⟩ : MemoryExtent) [] overlappingCalls).1 =
        dueAll 4 [] overlappingCalls := by decide +kernel
    rw [← hcomputed, hall']
  have hvalues : ∀ i < 4, some (lastWritten (dueAll 4 [] overlappingCalls) (0 + i)) =
      ([1, 7, 8, 0] : List UInt8)[i]? := by decide
  have hdata : data = [1, 7, 8, 0] := by
    apply List.ext_getElem?
    intro i
    by_cases hi : i < 4
    · rw [hbytes i hi, hhistory, hvalues i hi]
    · rw [List.getElem?_eq_none (by omega), List.getElem?_eq_none (by simp; omega)]
  rw [hdata] at hserve hserve'
  refine ⟨_, file', _, memory', history, hfile, hmemory, hall, hall', ?_, ?_⟩
  · rw [hserve]
  · rw [hserve']

end DemandPaging
