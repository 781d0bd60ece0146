-- SUMMARY: The spend cycle spend_funds, phase by phase: pay approvals, run the hooks, burn, settle, promote waiting proposals.
import Treasury.Model.Dispatch

/-!
# The spend cycle

`spend_funds`, which `on_initialize` runs at the first block of every spend period, written as
the phases the code runs in order:

1. `disburse`: the `Approvals::retain` pass, which pays every approved proposal the budget still
   covers, keeps the indices it cannot pay, and drops the stale ones;
2. the `SpendFunds` hooks;
3. `burnSurplus`: when nothing was missed, burn `min(Burn * budget, budget)`;
4. `settleImbalance`: withdraw the positive imbalance from the treasury's account;
5. `promoteWaiting`: the loop over `0..w_proposals` that moves `WaitingProposals` into
   `Proposals`.

The local variables the phases share (`budget_remaining`, `imbalance`, `total_weight`,
`missed_any`) are a `Cycle`.
-/

namespace Treasury

/-- `Vec::retain` with a closure that updates the variables it captures: visit each element
once, in order, and keep those for which the closure answers `true`. -/
def retainWith {α σ : Type} (f : α → σ → Bool × σ) : List α → σ → List α × σ
  | [], x => ([], x)
  | a :: as, x =>
    let (keep, x) := f a x
    let (kept, x) := retainWith f as x
    (if keep then a :: kept else kept, x)

theorem retainWith_sublist {α σ : Type} (f : α → σ → Bool × σ) (l : List α) (x : σ) :
    (retainWith f l x).1.Sublist l := by
  induction l generalizing x with
  | nil => exact List.Sublist.slnil
  | cons a as ih =>
    simp only [retainWith]
    split
    · exact (ih _).cons₂ a
    · exact (ih _).cons a

variable {cfg : Config}

namespace State

variable (s : State cfg)

/-- What the code writes when it pays the proposal `p` read at `index`: `remaining_occurs` is
decremented without a check, the proposal is removed when that reaches `0` and stored again
otherwise, the bond is unreserved, the value is minted to the beneficiary, and `Awarded` is
emitted. Returns the new storage and the positive imbalance the minting made. -/
def award (index : ProposalIndex) (p : Proposal) : State cfg × Nat :=
  let p := { p with remainingOccurs := p.remainingOccurs - 1 }
  let proposals := if p.remainingOccurs ≤ 0 then s.proposals.remove index
    else (s.proposals.remove index).insert index p
  let (ledger, _errAmount) := s.ledger.unreserve p.proposer p.bond
  let (ledger, minted) := ledger.depositCreating p.beneficiary p.value cfg.minimumBalance
  ({ s with proposals, ledger }.depositEvent (.awarded index p.value p.beneficiary), minted)

/-- The storage after `settle`: the imbalance is withdrawn from the treasury's account, or, if
settlement fails ("Inconsistent state"), nothing is withdrawn and the imbalance is dropped. -/
def settleImbalance (imbalance : Nat) : State cfg :=
  match s.ledger.settle cfg.accountId imbalance cfg.minimumBalance with
  | some ledger => { s with ledger }
  | none => s

end State

/-- The closure `spend_funds` gives `Approvals::retain`. An index whose proposal is gone is
dropped; a proposal the budget covers is paid and its index dropped; any other index is kept,
and `missed_any` is set. -/
def payOrKeep (index : ProposalIndex) (x : State cfg × Cycle) : Bool × (State cfg × Cycle) :=
  match x.1.proposals.items index with
  | none => (false, x)
  | some p =>
    if p.value ≤ x.2.budgetRemaining then
      let (s, minted) := x.1.award index p
      (false, (s, { x.2 with budgetRemaining := x.2.budgetRemaining - p.value,
                             imbalance := x.2.imbalance + minted }))
    else (true, (x.1, { x.2 with missedAny := true }))

/-- The `Approvals::mutate(|v| v.retain(..))` pass of `spend_funds`. -/
def disburse (s : State cfg) (c : Cycle) : State cfg × Cycle :=
  let r := retainWith payOrKeep s.approvals.toList (s, c)
  ({ r.2.1 with approvals := s.approvals.ofSublist r.1 (retainWith_sublist _ _ _) }, r.2.2)

/-- When no spend was missed, burn `min(Burn * budget_remaining, budget_remaining)`: the debit of
`pair(burn)` joins the imbalance and the credit goes to `BurnDestination`. -/
def burnSurplus (s : State cfg) (c : Cycle) : State cfg × Cycle :=
  if !c.missedAny then
    let burn := min (cfg.burn c.budgetRemaining) c.budgetRemaining
    ((s.onUnbalanced cfg.burnDestination burn).depositEvent (.burnt burn),
      { c with budgetRemaining := c.budgetRemaining - burn, imbalance := c.imbalance + burn })
  else (s, c)

/-- One turn `i` of the loop `for i in 0..w_proposals` at the end of `spend_funds`. -/
def promoteOne (w : ProposalIndex) (s : State cfg) (i : ProposalIndex) : State cfg :=
  let cProposals := s.proposals.count
  let s := match s.waitingProposals.items i with
    | some p => { s with proposals := s.proposals.push p }
    | none => s
  let s := { s with waitingProposals := { s.waitingProposals with count := w - 1 }.remove i }
  (s.depositEvent (.waitingProposalTransfered w)).depositEvent (.proposed cProposals)

/-- The loop over `0..w_proposals`, with `w_proposals` read once before it. -/
def promoteWaiting (s : State cfg) : State cfg :=
  let w := s.waitingProposals.count
  (List.range w.toNat).foldl (fun s i => promoteOne w s (UInt32.ofNat i)) s

/-- `spend_funds` up to the settlement: emit `Spending(pot)`, pay the approvals, run the hooks and
burn the surplus. Returns the storage and the local variables at that point. -/
def payout (s : State cfg) : State cfg × Cycle :=
  let budgetRemaining := pot s
  let s := s.depositEvent (.spending budgetRemaining)
  let proposalsLen := s.approvals.toList.length
  let (s, c) := disburse s ⟨budgetRemaining, 0, 0, false⟩
  let c := cfg.spendFunds
    { c with totalWeight := c.totalWeight + cfg.onInitializeProposals proposalsLen }
  burnSurplus s c

/-- Spend some money: returns the new storage and the weight used. -/
def spendFunds (s : State cfg) : State cfg × Nat :=
  let (s, c) := payout s
  let s := promoteWaiting (s.settleImbalance c.imbalance)
  (s.depositEvent (.rollover c.budgetRemaining), c.totalWeight)

/-- `on_initialize(n)`: spend at the first block of every spend period. -/
def onInitialize (n : Nat) (s : State cfg) : State cfg × Nat :=
  if n % cfg.spendPeriod = 0 then spendFunds s else (s, 0)

end Treasury
