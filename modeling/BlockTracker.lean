import BlockTracker.Main
import BlockTracker.Lock
import BlockTracker.Script.MemoryScript
import BlockTracker.Script.ProcessScript
import BlockTracker.Script.SelectionScript
import BlockTracker.Script.TrackerScript
import BlockTracker.Script.WindowScript
import BlockTracker.Window.Lemmas
import BlockTracker.Workload.Clients
import BlockTracker.Proofs.Ledger
import BlockTracker.Proofs.Refinement
import BlockTracker.Proofs.Runs
import BlockTracker.Proofs.Accounting
import BlockTracker.Proofs.Ownership
import BlockTracker.Proofs.Workers
import BlockTracker.Proofs.Turns
import BlockTracker.Proofs.Crew
import BlockTracker.Proofs.Conservation
import BlockTracker.Proofs.Layout
import BlockTracker.Proofs.Routes
import BlockTracker.Proofs.Holdings
import BlockTracker.Proofs.Addresses
import BlockTracker.Proofs.Stores
import BlockTracker.Proofs.Copies
import BlockTracker.Proofs.SizedAllocators
import BlockTracker.Proofs.Regions
import BlockTracker.Proofs.Headers
import BlockTracker.Proofs.Exclusion
import BlockTracker.Proofs.ClientPrograms
import BlockTracker.Proofs.Interleavings
import BlockTracker.Proofs.Intake
import BlockTracker.Proofs.Drains
import BlockTracker.Proofs.FunctionTables
import BlockTracker.Proofs.Transport
import BlockTracker.Proofs.Wrappers
import BlockTracker.Proofs.CheckedWindow
import BlockTracker.Proofs.CheckedTracker
import BlockTracker.Proofs.Exports
import BlockTracker.Proofs.Slices
import BlockTracker.Proofs.Numerals
import BlockTracker.Proofs.Seeds
import BlockTracker.Proofs.Environments
import BlockTracker.Proofs.RandomStreams
import BlockTracker.Proofs.CheckedWorkers
import BlockTracker.Proofs.WorkerRounds
