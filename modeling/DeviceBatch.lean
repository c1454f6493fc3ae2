import DeviceBatch.Batch.Scripted
import DeviceBatch.Config.Document
import DeviceBatch.Config.Environment
import DeviceBatch.Logging.Setup
import DeviceBatch.Proofs.Accounting
import DeviceBatch.Proofs.Allocating
import DeviceBatch.Proofs.Codec
import DeviceBatch.Proofs.Combining
import DeviceBatch.Proofs.Configuration
import DeviceBatch.Proofs.Copying
import DeviceBatch.Proofs.Costs
import DeviceBatch.Proofs.Counting
import DeviceBatch.Proofs.Delivery
import DeviceBatch.Proofs.DeviceRanges
import DeviceBatch.Proofs.DeviceTable
import DeviceBatch.Proofs.Discipline
import DeviceBatch.Proofs.DrainOrder
import DeviceBatch.Proofs.Environments
import DeviceBatch.Proofs.Failures
import DeviceBatch.Proofs.Grounded
import DeviceBatch.Proofs.Grounding
import DeviceBatch.Proofs.HostExchange
import DeviceBatch.Proofs.HostWork
import DeviceBatch.Proofs.Inputs
import DeviceBatch.Proofs.IssueOrder
import DeviceBatch.Proofs.Leftovers
import DeviceBatch.Proofs.Lifecycle
import DeviceBatch.Proofs.Lifetimes
import DeviceBatch.Proofs.Moving
import DeviceBatch.Proofs.Postings
import DeviceBatch.Proofs.Proceedings
import DeviceBatch.Proofs.Readiness
import DeviceBatch.Proofs.Recorders
import DeviceBatch.Proofs.Refinement
import DeviceBatch.Proofs.Relays
import DeviceBatch.Proofs.Returns
import DeviceBatch.Proofs.Rows
import DeviceBatch.Proofs.Tiling
import DeviceBatch.Proofs.Transparency
import DeviceBatch.Proofs.Waiting
import DeviceBatch.Proofs.Widths
import DeviceBatch.Session
