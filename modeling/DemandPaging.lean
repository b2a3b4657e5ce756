import DemandPaging.Random
import DemandPaging.Mapping
import DemandPaging.Pid
import DemandPaging.Config.Parser
import DemandPaging.Image.Codec
import DemandPaging.Extent.Choice
import DemandPaging.Paging.Audit
import DemandPaging.Sync.Crew
import DemandPaging.Kernel.Schedule
import DemandPaging.Proofs.Refinement
import DemandPaging.Proofs.Consistency
import DemandPaging.Proofs.CleanPages
import DemandPaging.Proofs.CacheAgreement
import DemandPaging.Proofs.SavedPages
import DemandPaging.Proofs.LackOfVictims
import DemandPaging.Proofs.WakeUps
import DemandPaging.Proofs.FreeFrames
import DemandPaging.Proofs.EnoughSwap
import DemandPaging.Proofs.UnbrokenAssumptions
import DemandPaging.Proofs.ExitedProcesses
import DemandPaging.Proofs.CallersPins
import DemandPaging.Proofs.SwapHistory
import DemandPaging.Proofs.ByteValues
import DemandPaging.Proofs.PinnedFrames
import DemandPaging.Proofs.RefusedAccesses
import DemandPaging.Proofs.ImageCodec
import DemandPaging.Proofs.CopiedBytes
import DemandPaging.Proofs.HandledMisses
import DemandPaging.Proofs.FailedEvictions
import DemandPaging.Proofs.OrphanedThreads
import DemandPaging.Proofs.SecondChance
import DemandPaging.Proofs.CacheSync
import DemandPaging.Proofs.PackedFrames
import DemandPaging.Proofs.SwapAudit
import DemandPaging.Proofs.SectionPages
import DemandPaging.Proofs.Geometry.Runs
import DemandPaging.Proofs.ConfigText
import DemandPaging.Proofs.Crew.FairLock
import DemandPaging.Proofs.Crew.Sleepers
import DemandPaging.Proofs.Crew.GuardedRegion
import DemandPaging.Proofs.ExtentHistory
import DemandPaging.Proofs.SwapAccounts
import DemandPaging.Proofs.ProcessNumbers
import DemandPaging.Proofs.Random
import DemandPaging.Proofs.MappingFields
