import DemandPaging.FrameTable
import DemandPaging.PageTable
import DemandPaging.Random

/-!
# Replacement

Which page leaves memory when no frame is free. Both policies choose among the frames that a page
owns and nobody pins. Second chance sweeps a hand over the frames, clears the referenced bits it
meets, and takes the first page whose bit is clear; the other policy takes any page with equal
chance.
-/

namespace DemandPaging

/-- How the page to leave memory is chosen, with what the policy remembers. -/
inductive Policy where
  /-- second chance, with the frame that the hand points at -/
  | clock (hand : Nat)
  /-- equal chance -/
  | random (generator : Random)
deriving DecidableEq

namespace Policy

/-- The name of a policy. -/
def name : Policy → String
  | clock _ => "clock"
  | random _ => "random"

/-- Moves the hand over at most `steps` frames. Gives the frame found, the hand after it, and the
tables with the referenced bits cleared on the way, even when no frame is found. -/
def sweep (m : FrameTable) :
    (steps hand : Nat) → PageTables → Except PagingError Nat × Nat × PageTables
  | 0, hand, tables => (.error .noVictim, hand, tables)
  | steps + 1, hand, tables =>
      let frame := hand % m.size
      let next := (frame + 1) % m.size
      if m.isPinned frame then sweep m steps next tables
      else match m.owner frame with
        | none => sweep m steps next tables
        | some id =>
            match PageTables.lookup tables id with
            | .error _ => (.error (.frameTableCorrupt frame), next, tables)
            | .ok e =>
                -- the page table has to agree on who lives in the frame
                if ¬ e.valid ∨ e.frame ≠ some frame then
                  (.error (.frameTableCorrupt frame), next, tables)
                else if e.referenced then
                  sweep m steps next (PageTables.put tables id { e with referenced := false })
                else (.ok frame, next, tables)

/-- The frames that a page owns and nobody pins. -/
def candidates (m : FrameTable) : List Nat :=
  (List.range m.size).filter fun frame => !m.isPinned frame && (m.owner frame).isSome

/-- One of the candidates, each with equal chance. -/
def draw (generator : Random) (m : FrameTable) : Except PagingError Nat × Random :=
  match (candidates m)[(generator.next.1.toNat % (candidates m).length)]? with
  | some frame => (.ok frame, generator.next.2)
  | none => (.error .noVictim, generator)

/-- The frame whose page is to leave memory. Two sweeps suffice, for the first can only fail by
clearing bits. -/
def select (p : Policy) (m : FrameTable) (tables : PageTables) :
    Except PagingError Nat × Policy × PageTables :=
  match p with
  | clock hand => (sweep m (2 * m.size) hand tables).map id (Prod.map clock id)
  | random generator =>
      let (result, generator) := draw generator m
      (result, random generator, tables)

end Policy

end DemandPaging
