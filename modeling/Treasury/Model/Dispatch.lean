-- SUMMARY: The dispatchable calls propose_spend, reject_proposal and approve_proposal, with the helpers they share.
import Treasury.Model.Types

/-!
# Dispatchables

`propose_spend`, `reject_proposal` and `approve_proposal`, each a computation in `DispatchM`: it
reads and writes the storage, and when it fails it returns its error together with the storage
as it has written it so far. The three calls are not `#[transactional]`, so nothing undoes a
write made before a `?`.
-/

namespace Treasury

/-- The computation of a dispatchable that is not `#[transactional]`: an error keeps the writes
made before it. -/
abbrev DispatchM (cfg : Config) := EStateM DispatchError (State cfg)

variable {cfg : Config}

namespace State

variable (s : State cfg)

/-- `Self::deposit_event(e)`. -/
def depositEvent (e : Event) : State cfg := { s with events := s.events ++ [e] }

/-- `WaitingProposalCount` with `WaitingProposals` when `waiting`, else `ProposalCount` with
`Proposals`. -/
def registry (waiting : Bool) : Registry :=
  if waiting then s.waitingProposals else s.proposals

/-- Write back the registry that `registry waiting` reads. -/
def setRegistry (waiting : Bool) (r : Registry) : State cfg :=
  if waiting then { s with waitingProposals := r } else { s with proposals := r }

/-- `OnUnbalanced::on_unbalanced` for a negative imbalance of `amount`. A zero imbalance is
dropped; otherwise the pallet's own handler pays it into the treasury's account with
`resolve_creating` and emits `Deposit`. -/
def onUnbalanced (sink : Sink) (amount : Nat) : State cfg :=
  match sink with
  | .drop => s
  | .treasury =>
    if amount = 0 then s
    else { s with ledger := (s.ledger.depositCreating cfg.accountId amount cfg.minimumBalance).1 }
      |>.depositEvent (.deposit amount)

@[simp] theorem depositEvent_proposals (e : Event) : (s.depositEvent e).proposals = s.proposals :=
  rfl
@[simp] theorem depositEvent_waitingProposals (e : Event) :
    (s.depositEvent e).waitingProposals = s.waitingProposals := rfl
@[simp] theorem depositEvent_approvals (e : Event) :
    (s.depositEvent e).approvals = s.approvals := rfl
@[simp] theorem depositEvent_ledger (e : Event) : (s.depositEvent e).ledger = s.ledger := rfl
@[simp] theorem depositEvent_blockNumber (e : Event) :
    (s.depositEvent e).blockNumber = s.blockNumber := rfl
@[simp] theorem depositEvent_events (e : Event) : (s.depositEvent e).events = s.events ++ [e] :=
  rfl

@[simp] theorem registry_false : s.registry false = s.proposals := rfl
@[simp] theorem registry_true : s.registry true = s.waitingProposals := rfl
@[simp] theorem registry_setRegistry (w : Bool) (r : Registry) :
    (s.setRegistry w r).registry w = r := by
  cases w <;> rfl
@[simp] theorem registry_not_setRegistry (w : Bool) (r : Registry) :
    (s.setRegistry w r).registry (!w) = s.registry (!w) := by
  cases w <;> rfl
@[simp] theorem setRegistry_blockNumber (w : Bool) (r : Registry) :
    (s.setRegistry w r).blockNumber = s.blockNumber := by
  cases w <;> rfl
@[simp] theorem setRegistry_approvals (w : Bool) (r : Registry) :
    (s.setRegistry w r).approvals = s.approvals := by
  cases w <;> rfl
@[simp] theorem setRegistry_ledger (w : Bool) (r : Registry) :
    (s.setRegistry w r).ledger = s.ledger := by
  cases w <;> rfl
@[simp] theorem setRegistry_events (w : Bool) (r : Registry) :
    (s.setRegistry w r).events = s.events := by
  cases w <;> rfl
@[simp] theorem depositEvent_registry (e : Event) (w : Bool) :
    (s.depositEvent e).registry w = s.registry w := rfl

@[simp] theorem onUnbalanced_proposals (k : Sink) (a : Nat) :
    (s.onUnbalanced k a).proposals = s.proposals := by
  unfold onUnbalanced; split <;> (try split) <;> rfl
@[simp] theorem onUnbalanced_waitingProposals (k : Sink) (a : Nat) :
    (s.onUnbalanced k a).waitingProposals = s.waitingProposals := by
  unfold onUnbalanced; split <;> (try split) <;> rfl
@[simp] theorem onUnbalanced_approvals (k : Sink) (a : Nat) :
    (s.onUnbalanced k a).approvals = s.approvals := by
  unfold onUnbalanced; split <;> (try split) <;> rfl
@[simp] theorem onUnbalanced_blockNumber (k : Sink) (a : Nat) :
    (s.onUnbalanced k a).blockNumber = s.blockNumber := by
  unfold onUnbalanced; split <;> (try split) <;> rfl

end State

/-- Whether a proposal made now has to wait: the current block lies past the first
`AllowedProposalPeriod` blocks of its spend period. -/
def State.inWaitingPeriod (s : State cfg) : Bool :=
  !decide (s.blockNumber % cfg.spendPeriod < cfg.allowedProposalPeriod)

/-- Return the amount of money in the pot: the free balance of the treasury's account less the
minimum balance, which is kept out of the pot so that the account is never deleted. The
subtraction saturates at `0`. -/
def pot (s : State cfg) : Nat := s.ledger.free cfg.accountId - cfg.minimumBalance

/-- The needed bond for a proposal whose spend is `value`. -/
def calculateBond (cfg : Config) (value : Nat) : Nat :=
  max cfg.proposalBondMinimum (cfg.proposalBond value)

/-- The amount paid at each occurrence: `value / chunks`, or all of `value` when `chunks` is
`0`. -/
def chunkOf (value : Nat) (chunks : UInt32) : Nat :=
  if chunks > 0 then value / chunks.toNat else value

/-- `ensure_signed(origin)`. -/
def ensureSigned : Origin → DispatchM cfg AccountId
  | .signed who => pure who
  | _ => throw .badOrigin

/-- `EnsureOrigin::ensure_origin(origin)` for an origin check `allowed`. -/
def ensureOrigin (allowed : Origin → Bool) (origin : Origin) : DispatchM cfg Unit :=
  if allowed origin then pure () else throw .badOrigin

/-- `T::Lookup::lookup(source)`. -/
def lookup (source : AccountId) : DispatchM cfg AccountId :=
  match cfg.lookup source with
  | some who => pure who
  | none => throw .cannotLookup

/-- `T::Currency::reserve(who, value).map_err(|_| error)?`. -/
def reserve (who : AccountId) (value : Nat) (error : Error) : DispatchM cfg Unit := do
  let s ← get
  match s.ledger.reserve who value with
  | some ledger => set { s with ledger }
  | none => throw (.module error)

/-- Put forward a suggestion for spending: reserve the bond, then store the proposal in
`Proposals` when the block falls in the first `AllowedProposalPeriod` blocks of a spend period,
and in `WaitingProposals` otherwise. The two branches of the code differ only in the counter,
the map and the event, which `waiting` selects. -/
def proposeSpend (origin : Origin) (value : Nat) (beneficiary : AccountId)
    (chunks : UInt32) : DispatchM cfg Unit := do
  let proposer ← ensureSigned origin
  let beneficiary ← lookup beneficiary
  let waiting := (← get).inWaitingPeriod
  let chunk := chunkOf value chunks
  let bond := calculateBond cfg value
  reserve proposer bond .insufficientProposersBalance
  let c := ((← get).registry waiting).count
  modify fun s => s.setRegistry waiting ((s.registry waiting).push
    { proposer, value := chunk, beneficiary, bond, occurs := chunks, remainingOccurs := chunks })
  modify (·.depositEvent (if waiting then .waitingProposed c else .proposed c))

/-- Reject a proposed spend: take it out of `Proposals` and slash its bond. -/
def rejectProposal (origin : Origin) (proposalId : ProposalIndex) : DispatchM cfg Unit := do
  ensureOrigin cfg.rejectOrigin origin
  let taken ← modifyGet fun s =>
    (s.proposals.items proposalId, { s with proposals := s.proposals.remove proposalId })
  let some proposal := taken | throw (.module .invalidIndex)
  let value := proposal.bond
  let s ← get
  let (ledger, imbalance, _) := s.ledger.slashReserved proposal.proposer value
  set ({ s with ledger }.onUnbalanced cfg.onSlash imbalance)
  modify (·.depositEvent (.rejected proposalId value))

/-- Approve a proposal: append its index to `Approvals`. -/
def approveProposal (origin : Origin) (proposalId : ProposalIndex) : DispatchM cfg Unit := do
  ensureOrigin cfg.approveOrigin origin
  let s ← get
  if (s.proposals.items proposalId).isNone then throw (.module .invalidIndex)
  match s.approvals.tryAppend proposalId with
  | some approvals => set { s with approvals }
  | none => throw (.module .tooManyApprovals)

end Treasury
