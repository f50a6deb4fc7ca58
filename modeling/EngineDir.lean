import EngineDir.World
import EngineDir.Proofs.FileSystem.Operations
import EngineDir.Proofs.FileSystem.Entries
import EngineDir.Proofs.FileSystem.Preparing
import EngineDir.Proofs.Pointer
import EngineDir.Proofs.Effects
import EngineDir.Proofs.Publishing
import EngineDir.Proofs.Works
import EngineDir.Proofs.Staging
import EngineDir.Proofs.Bookkeeping
import EngineDir.Proofs.Moves
import EngineDir.Proofs.Runs
import EngineDir.Proofs.OpenTable
import EngineDir.Proofs.Holders
import EngineDir.Proofs.OneOwner
import EngineDir.Proofs.Lifetime
import EngineDir.Proofs.AtomicPublish
import EngineDir.Proofs.Warnings
import EngineDir.Proofs.Duties
import EngineDir.Proofs.Opening
import EngineDir.Proofs.Lineage
import EngineDir.Proofs.Access
import EngineDir.Proofs.InUse
import EngineDir.Proofs.FailedPublish
import EngineDir.Proofs.Reserved
import EngineDir.Proofs.Register
import EngineDir.Proofs.Pinned
import EngineDir.Proofs.Shelf
import EngineDir.Proofs.Refinement
import EngineDir.Proofs.Refusals
import EngineDir.Proofs.Closing
import EngineDir.Proofs.FailedOpen
import EngineDir.Proofs.Rotation
import EngineDir.Proofs.Chronicle
import EngineDir.Proofs.FileNames
import EngineDir.Proofs.PointerLine
import EngineDir.Proofs.Plots
import EngineDir.Proofs.Locality
import EngineDir.Proofs.Apart
import EngineDir.Proofs.Places
import EngineDir.Proofs.Multiplicity
import EngineDir.Proofs.Turns
import EngineDir.Proofs.ExactReads
import EngineDir.Proofs.ClosedHandles
import EngineDir.Proofs.LiveLogs
import EngineDir.Proofs.StampOrder
import EngineDir.Proofs.Spellings
