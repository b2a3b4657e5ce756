import DemandPaging.Proofs.Extent

/-!
# An extent as it would be if no call failed

A fail-safe extent does what a reliable one does until one of its calls fails. The reliable one is
the extent itself with other calls: `Extent.mended` does what a failing call was for after all. Its
states are those of the extent, so what has been reached with calls that succeeded has been reached
with both (`Extent.mended_covers`).
-/

namespace DemandPaging

namespace Extent

variable {σ : Type}

/-- Where a call of the first extent succeeds, the second one gives the same result, and is in the
same state after it. -/
structure Covers (E E' : Extent σ) : Prop where
  length_eq : ∀ e, E'.length e = E.length e
  read_eq : ∀ {e e' : σ} {offset count : Nat} {bytes : List UInt8},
    E.read e offset count = (.ok bytes, e') → E'.read e offset count = (.ok bytes, e')
  write_eq : ∀ {e e' : σ} {offset : Nat} {data : List UInt8},
    E.write e offset data = (.ok (), e') → E'.write e offset data = (.ok (), e')

/-- A write that the first extent fails leaves the bytes of the reliable one as they are. -/
def KeepsBytes (E : Extent σ) [Extent σ] [Reliable σ] : Prop :=
  ∀ {e e' : σ} {offset : Nat} {data : List UInt8} {cause : IoError}, Reliable.Intact e →
    offset + data.length ≤ Extent.length e → E.write e offset data = (.error cause, e') →
    Reliable.content e' = Reliable.content e

variable [Extent σ] [FailSafe σ]

open Classical in
/-- Reads bytes, or gives those that the extent holds where it fails to. -/
noncomputable def readAnyway (e : σ) (offset count : Nat) : Except IoError (List UInt8) × σ :=
  match Extent.read e offset count with
  | (.ok bytes, e') => (.ok bytes, e')
  | (.error cause, e') =>
      if FailSafe.Intact e ∧ offset + count ≤ Extent.length e then
        (.ok (((FailSafe.content e).drop offset).take count), e')
      else (.error cause, e')

theorem readAnyway_intact {e : σ} {offset count : Nat} (hintact : FailSafe.Intact e)
    (h : offset + count ≤ Extent.length e) :
    ∃ e', readAnyway e offset count =
        (.ok (((FailSafe.content e).drop offset).take count), e') ∧
      FailSafe.Intact e' ∧ FailSafe.content e' = FailSafe.content e := by
  obtain ⟨result, e', hread, hintact', hcontent, hbytes⟩ := FailSafe.read_intact hintact h
  refine ⟨e', ?_, hintact', hcontent⟩
  rw [readAnyway, hread]
  cases result with
  | ok bytes => rw [hbytes bytes rfl]
  | error cause => exact if_pos ⟨hintact, h⟩

/-- Fail-safe extents that can hold any bytes: for all bytes of its length, a state holds them. -/
class Rewritable (σ : Type) [Extent σ] [FailSafe σ] : Prop where
  exists_holding : ∀ {e : σ} {bytes : List UInt8}, FailSafe.Intact e →
    bytes.length = Extent.length e → ∃ e' : σ, FailSafe.Intact e' ∧ FailSafe.content e' = bytes

variable [Rewritable σ]

/-- Bytes inside an intact extent can be written: a state holds them. -/
theorem exists_patched {e : σ} {offset : Nat} {data : List UInt8} (hintact : FailSafe.Intact e)
    (h : offset + data.length ≤ Extent.length e) :
    ∃ e' : σ, FailSafe.Intact e' ∧
      FailSafe.content e' = patch (FailSafe.content e) offset data := by
  have hlength := FailSafe.length_content hintact
  apply Rewritable.exists_holding hintact
  rw [length_patch (hlength ▸ h), hlength]

open Classical in
/-- Writes bytes, or takes a state that holds them where the extent fails to. -/
noncomputable def writeAnyway (e : σ) (offset : Nat) (data : List UInt8) :
    Except IoError Unit × σ :=
  match Extent.write e offset data with
  | (.ok (), e') => (.ok (), e')
  | (.error cause, e') =>
      if h : FailSafe.Intact e ∧ offset + data.length ≤ Extent.length e then
        (.ok (), Classical.choose (exists_patched h.1 h.2))
      else (.error cause, e')

variable (σ) in
/-- The extent with calls that do not fail. -/
@[reducible]
noncomputable def mended : Extent σ where
  length := Extent.length
  read := readAnyway
  write := writeAnyway
  remove := Extent.remove

theorem writeAnyway_intact {e : σ} {offset : Nat} {data : List UInt8}
    (hintact : FailSafe.Intact e) (h : offset + data.length ≤ Extent.length e) :
    ∃ e', writeAnyway e offset data = (.ok (), e') ∧
      FailSafe.Intact e' ∧ FailSafe.content e' = patch (FailSafe.content e) offset data := by
  obtain ⟨result, e', hwrite, hintact', hcontent, -⟩ := FailSafe.write_intact hintact h
  rw [writeAnyway, hwrite]
  -- the write has done it, or a state that holds the bytes stands in for the one it has left
  cases result with
  | ok _ => exact ⟨e', rfl, hintact', hcontent rfl⟩
  | error cause =>
      obtain ⟨hpatched, hbytes⟩ := Classical.choose_spec (exists_patched hintact h)
      exact ⟨_, dif_pos ⟨hintact, h⟩, hpatched, hbytes⟩

variable (σ) in
/-- A mended extent is reliable, and holds the bytes that the extent holds. -/
@[reducible]
noncomputable def mendedReliable : @Reliable σ (mended σ) :=
  @Reliable.mk σ (mended σ) FailSafe.Intact FailSafe.content FailSafe.length_content
    readAnyway_intact writeAnyway_intact

variable (σ) in
/-- As long as calls succeed, nothing has to be mended. -/
theorem mended_covers : Covers ‹Extent σ› (mended σ) where
  length_eq _ := rfl
  read_eq {e e' offset count bytes} h := by
    show readAnyway e offset count = _
    rw [readAnyway, show Extent.read e offset count = _ from h]
  write_eq {e e' offset data} h := by
    show writeAnyway e offset data = _
    rw [writeAnyway, show Extent.write e offset data = _ from h]

variable (σ) in
/-- What a failing write leaves alone counts for the mended extent, too. -/
theorem mended_keepsBytes : @KeepsBytes σ ‹Extent σ› (mended σ) (mendedReliable σ) := by
  intro e e' offset data cause hintact hinside hfails
  obtain ⟨result, e'', hwrite, -, -, hkept⟩ := FailSafe.write_intact hintact hinside
  obtain ⟨rfl, rfl⟩ := Prod.mk.inj (hfails.symm.trans hwrite)
  exact hkept cause rfl

end Extent

/-- The bytes of an extent in memory are put there all at once. -/
instance : Extent.Rewritable MemoryExtent where
  exists_holding {e bytes} hword hlength := by
    have hzeros : (SparseBytes.zeros bytes.length).toList.length = bytes.length :=
      SparseBytes.length_toList (.zeros bytes.length)
    have hinside : 0 + bytes.length ≤ (SparseBytes.zeros bytes.length).length :=
      Nat.le_of_eq (Nat.zero_add _)
    refine ⟨⟨(SparseBytes.zeros bytes.length).put 0 bytes⟩, ?_, ?_⟩
    · show ((SparseBytes.zeros bytes.length).put 0 bytes).length < UInt64.size
      rw [SparseBytes.length_put hinside]
      exact Nat.lt_of_le_of_lt (Nat.le_of_eq hlength) hword
    show ((SparseBytes.zeros bytes.length).put 0 bytes).toList = bytes
    rw [SparseBytes.toList_put hinside]
    simp [Extent.patch, hzeros]

/-- A scheduled failure leaves what the extent inside can hold. -/
instance (σ : Type) [Extent σ] [Extent.FailSafe σ] [Extent.Rewritable σ] :
    Extent.Rewritable (UnreliableExtent σ) where
  exists_holding {e bytes} hintact hlength := by
    obtain ⟨inner, hinner, hbytes⟩ := Extent.Rewritable.exists_holding (σ := σ) hintact hlength
    exact ⟨{ e with inner }, hinner, hbytes⟩

end DemandPaging
