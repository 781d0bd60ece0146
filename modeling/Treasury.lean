import Treasury.Model.Ledger
import Treasury.Model.Types
import Treasury.Model.Dispatch
import Treasury.Model.SpendFunds
import Treasury.Model.Runtime
import Treasury.Spec.FirstFit
import Treasury.Spec.Registry
import Treasury.Proofs.Calls
import Treasury.Proofs.Disbursement
import Treasury.Proofs.Promotion
import Treasury.Proofs.Steps
import Treasury.Proofs.Counters
import Treasury.Proofs.Occurrences
import Treasury.Proofs.Approvals
import Treasury.Proofs.Bonds
import Treasury.Proofs.Pot
import Treasury.Proofs.Events
import Treasury.Proofs.SpendCycles
