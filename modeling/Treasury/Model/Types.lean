-- SUMMARY: The treasury pallet's data: proposals, events, errors, origins, the configuration and the storage it keeps.
import Treasury.Model.Ledger

/-!
# Types and storage

The data of `pallet-treasury`: a `Proposal`, the `Event`s and `Error`s the pallet declares, the
constants and handlers of its `Config`, and the storage items it reads and writes.

`ProposalIndex` and the two `occurs` fields are `u32` in the code and are incremented or
decremented there without a check, so they are `UInt32` here and wrap as a release build does.
Block numbers and weights are natural numbers. Each storage map with its counter (`ProposalCount` with `Proposals`, `WaitingProposalCount` with
`WaitingProposals`) is one `Registry`; a map of `OptionQuery` storage is a function to `Option`.
-/

namespace Treasury

/-- `ProposalIndex`: "An index of a proposal. Just a `u32`." -/
abbrev ProposalIndex := UInt32

/-- A spending proposal. -/
structure Proposal where
  /-- The account proposing it. -/
  proposer : AccountId
  /-- The amount paid at each occurrence. -/
  value : Nat
  /-- The account to whom the payment should be made. -/
  beneficiary : AccountId
  /-- The amount held on deposit (reserved) for making this proposal. -/
  bond : Nat
  /-- How many times should this be repeated. -/
  occurs : UInt32
  /-- How many times left to be repeated. -/
  remainingOccurs : UInt32
  deriving DecidableEq, Repr

/-- The events of the pallet. -/
inductive Event
  | proposed (proposalIndex : ProposalIndex)
  | waitingProposed (proposalIndex : ProposalIndex)
  | waitingProposalTransfered (proposalIndex : ProposalIndex)
  | spending (budgetRemaining : Nat)
  | awarded (proposalIndex : ProposalIndex) (award : Nat) (beneficiary : AccountId)
  | rejected (proposalIndex : ProposalIndex) (slashed : Nat)
  | burnt (burn : Nat)
  | rollover (budgetRemaining : Nat)
  | deposit (deposit : Nat)
  deriving DecidableEq, Repr

/-- The errors of the pallet. -/
inductive Error
  | insufficientProposersBalance
  | invalidIndex
  | tooManyApprovals
  deriving DecidableEq, Repr

/-- The errors a dispatchable of the pallet can return: a bad origin, a failed lookup of the
beneficiary, or one of the pallet's own errors. -/
inductive DispatchError
  | badOrigin
  | cannotLookup
  | module (error : Error)
  deriving DecidableEq, Repr

/-- The origin of a call. -/
inductive Origin
  | root
  | signed (who : AccountId)
  | none
  deriving DecidableEq, Repr

/-- An `OnUnbalanced` handler for negative imbalances: dropped, which burns the funds, or this
pallet's own handler, which pays them into the pot. -/
inductive Sink
  | drop
  | treasury
  deriving DecidableEq, Repr

/-- The local variables of `spend_funds` that the `SpendFunds` hooks receive by mutable
reference. -/
structure Cycle where
  budgetRemaining : Nat
  imbalance : Nat
  totalWeight : Nat
  missedAny : Bool
  deriving DecidableEq, Repr

/-- The pallet's `Config`. `Permill` products are given as the functions they compute, since
their rounding belongs to the arithmetic library; the `SpendFunds` hooks act on the four values
they are passed. -/
structure Config where
  /-- `T::ApproveOrigin::ensure_origin` succeeds. -/
  approveOrigin : Origin → Bool
  /-- `T::RejectOrigin::ensure_origin` succeeds. -/
  rejectOrigin : Origin → Bool
  /-- `T::OnSlash`. -/
  onSlash : Sink
  /-- `T::ProposalBond::get() * value`. -/
  proposalBond : Nat → Nat
  /-- `T::ProposalBondMinimum`. -/
  proposalBondMinimum : Nat
  /-- `T::AllowedProposalPeriod`. -/
  allowedProposalPeriod : Nat
  /-- `T::SpendPeriod`; the code takes blocks modulo it, so it is positive. -/
  spendPeriod : Nat
  spendPeriod_pos : 0 < spendPeriod
  /-- `T::Burn::get() * budget_remaining`. -/
  burn : Nat → Nat
  /-- The treasury's account, `T::PalletId::get().into_account()`. -/
  accountId : AccountId
  /-- `T::BurnDestination`. -/
  burnDestination : Sink
  /-- `T::SpendFunds`. -/
  spendFunds : Cycle → Cycle
  /-- `T::MaxApprovals`. -/
  maxApprovals : Nat
  /-- `T::Lookup::lookup`. -/
  lookup : AccountId → Option AccountId
  /-- `T::Currency::minimum_balance()`. -/
  minimumBalance : Nat
  /-- `T::WeightInfo::on_initialize_proposals`. -/
  onInitializeProposals : Nat → Nat

/-- `BoundedVec<T, S>`: a list that never holds more than `bound` elements. -/
structure BoundedVec (α : Type) (bound : Nat) where
  toList : List α
  length_le : toList.length ≤ bound
  deriving DecidableEq, Repr

namespace BoundedVec

variable {α : Type} {bound : Nat}

/-- `try_append`: push `x` at the end, or fail when the vector is full. -/
def tryAppend (v : BoundedVec α bound) (x : α) : Option (BoundedVec α bound) :=
  if h : v.toList.length < bound then
    some ⟨v.toList ++ [x], by simp only [List.length_append, List.length_singleton]; omega⟩
  else none

/-- The vector holding `l`, a subsequence of `v`'s elements, as `retain` leaves it. -/
def ofSublist (v : BoundedVec α bound) (l : List α) (h : l.Sublist v.toList) :
    BoundedVec α bound :=
  ⟨l, Nat.le_trans h.length_le v.length_le⟩

@[simp] theorem ofSublist_toList (v : BoundedVec α bound) (l : List α) (h : l.Sublist v.toList) :
    (v.ofSublist l h).toList = l := rfl

theorem tryAppend_eq_some {v v' : BoundedVec α bound} {x : α} (h : v.tryAppend x = some v') :
    v'.toList = v.toList ++ [x] := by
  unfold tryAppend at h
  split at h
  · cases h; rfl
  · cases h

end BoundedVec

/-- A counter with the map it indexes: `ProposalCount` with `Proposals`, or
`WaitingProposalCount` with `WaitingProposals`. -/
structure Registry where
  count : ProposalIndex
  items : ProposalIndex → Option Proposal

namespace Registry

variable (r : Registry) (k : ProposalIndex) (p : Proposal)

/-- The empty storage: counter `0`, no entry. -/
def empty : Registry := ⟨0, fun _ => none⟩

/-- `insert(k, p)`. -/
def insert : Registry := { r with items := Function.update r.items k (some p) }

/-- `remove(k)`. -/
def remove : Registry := { r with items := Function.update r.items k none }

/-- `let c = count(); put(c + 1); insert(c, p)`, with the unchecked `u32` increment. -/
def push : Registry := { count := r.count + 1, items := Function.update r.items r.count (some p) }

@[simp] theorem empty_count : empty.count = 0 := rfl
@[simp] theorem empty_items : empty.items k = none := rfl
@[simp] theorem insert_count : (r.insert k p).count = r.count := rfl
@[simp] theorem remove_count : (r.remove k).count = r.count := rfl
@[simp] theorem push_count : (r.push p).count = r.count + 1 := rfl

theorem insert_items (j : ProposalIndex) :
    (r.insert k p).items j = if j = k then some p else r.items j :=
  Function.update_apply ..

theorem remove_items (j : ProposalIndex) :
    (r.remove k).items j = if j = k then none else r.items j :=
  Function.update_apply ..

theorem push_items (j : ProposalIndex) :
    (r.push p).items j = if j = r.count then some p else r.items j :=
  Function.update_apply ..

/-- Removing an absent key changes nothing. -/
theorem remove_of_none (h : r.items k = none) : r.remove k = r := by
  simp [remove, ← h]

end Registry

/-- The storage the pallet works on. `blockNumber` and `events` belong to `frame_system`, and
`ledger` to `T::Currency`. -/
structure State (cfg : Config) where
  blockNumber : Nat
  /-- `ProposalCount` and `Proposals`. -/
  proposals : Registry
  /-- `WaitingProposalCount` and `WaitingProposals`. -/
  waitingProposals : Registry
  /-- `Approvals`. -/
  approvals : BoundedVec ProposalIndex cfg.maxApprovals
  ledger : Ledger
  events : List Event

end Treasury
