-- SUMMARY: The pallet as a state machine: calls, block initialisation, runs from genesis.
import Treasury.Model.SpendFunds

/-!
# Runs

The chain drives the pallet with two kinds of step: a call dispatched in the current block, and
the start of the next block, which runs `on_initialize`. A failed call keeps the storage its
dispatchable returned with the error, since the calls are not `#[transactional]`.
-/

namespace Treasury

/-- The calls of the pallet. -/
inductive Call
  | proposeSpend (origin : Origin) (value : Nat) (beneficiary : AccountId) (chunks : UInt32)
  | rejectProposal (origin : Origin) (proposalId : ProposalIndex)
  | approveProposal (origin : Origin) (proposalId : ProposalIndex)
  deriving DecidableEq, Repr

/-- A step of the chain: dispatch a call, or start the next block. -/
inductive Action
  | dispatch (call : Call)
  | nextBlock
  deriving DecidableEq, Repr

variable {cfg : Config}

/-- The dispatchable a call runs. -/
def Call.run : Call → DispatchM cfg Unit
  | .proposeSpend origin value beneficiary chunks =>
    Treasury.proposeSpend origin value beneficiary chunks
  | .rejectProposal origin proposalId => Treasury.rejectProposal origin proposalId
  | .approveProposal origin proposalId => Treasury.approveProposal origin proposalId

/-- The storage a dispatch leaves, whether it succeeded or failed. -/
def storageOf {ε σ α : Type} : EStateM.Result ε σ α → σ
  | .ok _ s => s
  | .error _ s => s

/-- One step: a dispatch, or `initialize_block` for the next block number followed by
`on_initialize`. -/
def step (s : State cfg) : Action → State cfg
  | .dispatch call => storageOf (call.run.run s)
  | .nextBlock =>
    (onInitialize (s.blockNumber + 1) { s with blockNumber := s.blockNumber + 1 }).1

/-- The storage after a run of steps. -/
def exec (s : State cfg) (run : List Action) : State cfg := run.foldl step s

/-- The state at genesis: empty storage, and the treasury's account topped up to the minimum
balance by the genesis build. -/
def genesis (cfg : Config) (ledger : Ledger) : State cfg where
  blockNumber := 0
  proposals := .empty
  waitingProposals := .empty
  approvals := ⟨[], Nat.zero_le _⟩
  ledger :=
    if ledger.free cfg.accountId < cfg.minimumBalance then
      ledger.makeFreeBalanceBe cfg.accountId cfg.minimumBalance
    else ledger
  events := []

@[simp] theorem genesis_blockNumber (l : Ledger) : (genesis cfg l).blockNumber = 0 := rfl
@[simp] theorem genesis_proposals (l : Ledger) : (genesis cfg l).proposals = .empty := rfl
@[simp] theorem genesis_waitingProposals (l : Ledger) :
    (genesis cfg l).waitingProposals = .empty := rfl

@[simp] theorem exec_nil (s : State cfg) : exec s [] = s := rfl
@[simp] theorem exec_cons (s : State cfg) (a : Action) (run : List Action) :
    exec s (a :: run) = exec (step s a) run := rfl
theorem exec_append (s : State cfg) (r₁ r₂ : List Action) :
    exec s (r₁ ++ r₂) = exec (exec s r₁) r₂ := List.foldl_append ..

/-! ## The mock runtime -/

/-- A runtime of our own for the runs stated below; the repository has none. `ProposalBond` is
`Permill::from_percent(5)`, and `Permill * value` rounds to the nearest integer, an exact half
down, so the bond is `(5 * value + 49) / 100`, and at least `1`. `Burn` is
`Permill::from_percent(50)`, whose product is half the budget rounded down. A spend period of `2`
blocks whose first block takes proposals; root as the approve and reject origin; slashed and
burnt funds dropped; no `SpendFunds` hook; at most `100` approvals; the identity lookup; a minimum
balance of `1`. Account `0` is the treasury's. -/
def mockConfig : Config where
  approveOrigin o := decide (o = .root)
  rejectOrigin o := decide (o = .root)
  onSlash := .drop
  proposalBond value := (value * 5 + 49) / 100
  proposalBondMinimum := 1
  allowedProposalPeriod := 1
  spendPeriod := 2
  spendPeriod_pos := Nat.two_pos
  burn budget := budget / 2
  accountId := 0
  burnDestination := .drop
  spendFunds := id
  maxApprovals := 100
  lookup := some
  minimumBalance := 1
  onInitializeProposals _ := 0

/-- The balances of the mock: the treasury holds `1000`, every other account `100`. -/
def mockLedger : Ledger := ⟨fun a => if a = 0 then 1000 else 100, fun _ => 0⟩

/-- A ledger in which every account holds `2^33`, enough to bond `2^32` proposals of bond `1`. -/
def richLedger : Ledger := ⟨fun _ => 2 ^ 33, fun _ => 0⟩

end Treasury
