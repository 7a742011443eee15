import TokenLedger.Main
import TokenLedger.Proofs.Store.Holding
import TokenLedger.Proofs.Classification.Inputs
import TokenLedger.Proofs.Record
import TokenLedger.Proofs.Classification.Outputs
import TokenLedger.Proofs.Classification
import TokenLedger.Proofs.Derivation
import TokenLedger.Proofs.Chain.Isolation
import TokenLedger.Proofs.Chain.Run
import TokenLedger.Proofs.Chain.Growth
import TokenLedger.Proofs.Supply
import TokenLedger.Proofs.Overwriting
import TokenLedger.Proofs.Bytes.Utf8
import TokenLedger.Proofs.OutputRef
import TokenLedger.Proofs.Wire.RoundTrip
import TokenLedger.Proofs.Sync.CatchUp
import TokenLedger.Proofs.History
import TokenLedger.Proofs.Root
import TokenLedger.Proofs.Store.Database
import TokenLedger.Proofs.Chain.Restart
import TokenLedger.Proofs.Acceptance
import TokenLedger.Proofs.Selection
import TokenLedger.Proofs.Chain.WellFormed
import TokenLedger.Proofs.Wire.Refusal
import TokenLedger.Proofs.Chain.Readable
import TokenLedger.Proofs.Wire.Exact
import TokenLedger.Proofs.Wire.Spelling
import TokenLedger.Proofs.Wire.Canonical
import TokenLedger.Proofs.Sync.Correlation
import TokenLedger.Proofs.Fee.Settling
import TokenLedger.Proofs.Fee.Result
import TokenLedger.Proofs.Store.HeldBack
import TokenLedger.Proofs.Classification.Payment
import TokenLedger.Proofs.Classification.Kind
import TokenLedger.Proofs.Classification.BroughtIn
import TokenLedger.Proofs.Classification.PassedOver
import TokenLedger.Proofs.Governance
import TokenLedger.Proofs.Chain.Peer
import TokenLedger.Proofs.Chain.Commutation
import TokenLedger.Proofs.Store.Persistence
import TokenLedger.Proofs.Store.Commits
import TokenLedger.Proofs.Chain.Ranges
import TokenLedger.Proofs.Fee.Retrying
import TokenLedger.Proofs.OutputRef.Grammar
import TokenLedger.Proofs.Bytes.Hex
import TokenLedger.Proofs.Json.Scan
import TokenLedger.Proofs.Json.Form
import TokenLedger.Proofs.Json.RoundTrip
import TokenLedger.Proofs.Json.Loaded
import TokenLedger.Proofs.Chain.Replay
import TokenLedger.Proofs.Command.Replay
