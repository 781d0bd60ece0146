-- SUMMARY: The outcome of each call as a function of the storage, and that a failed call leaves the storage as it was.
import Treasury.Model.Runtime

/-!
# Calls

One equation per dispatchable gives its outcome, error or new storage, from the storage it
starts in. Every later proof about a call goes through these equations and never unfolds the
`DispatchM` code again.

The three calls are not `#[transactional]`, so a failure does not undo the writes made before
it. Each fallible step comes before the first write, though (`reject_proposal` takes the
proposal out of `Proposals` first, but an absent key is left absent), so a failed call returns
the storage it was given.
-/

namespace Treasury

variable {cfg : Config} (s : State cfg)

theorem proposeSpend_run (origin : Origin) (value : Nat) (beneficiary : AccountId)
    (chunks : UInt32) :
    (proposeSpend origin value beneficiary chunks).run s =
      match origin, cfg.lookup beneficiary with
      | .signed proposer, some b =>
        match s.ledger.reserve proposer (calculateBond cfg value) with
        | none => .error (.module .insufficientProposersBalance) s
        | some ledger =>
          let w := s.inWaitingPeriod
          let s₁ : State cfg := { s with ledger }
          let c := (s₁.registry w).count
          .ok () ((s₁.setRegistry w ((s₁.registry w).push
            { proposer, value := chunkOf value chunks, beneficiary := b,
              bond := calculateBond cfg value, occurs := chunks, remainingOccurs := chunks })
            ).depositEvent (if w then .waitingProposed c else .proposed c))
      | .signed _, none => .error .cannotLookup s
      | _, _ => .error .badOrigin s := by
  cases origin with
  | signed proposer =>
    rcases hl : cfg.lookup beneficiary with _ | b <;>
    rcases hr : s.ledger.reserve proposer (calculateBond cfg value) with _ | ledger <;>
    simp only [proposeSpend, ensureSigned, lookup, reserve, EStateM.run, bind, EStateM.bind,
      pure, EStateM.pure, get, EStateM.get, getThe, MonadStateOf.get, modify, modifyGet,
      MonadStateOf.modifyGet, EStateM.modifyGet, set, EStateM.set, throw, EStateM.throw,
      throwThe, MonadExceptOf.throw, hl, hr]
  | _ => rfl

theorem rejectProposal_run (origin : Origin) (i : ProposalIndex) :
    (rejectProposal origin i).run s =
      if cfg.rejectOrigin origin then
        let s₁ : State cfg := { s with proposals := s.proposals.remove i }
        match s.proposals.items i with
        | none => .error (.module .invalidIndex) s₁
        | some p =>
          let r := s₁.ledger.slashReserved p.proposer p.bond
          .ok () (({ s₁ with ledger := r.1 }.onUnbalanced cfg.onSlash r.2.1).depositEvent
            (.rejected i p.bond))
      else .error .badOrigin s := by
  by_cases ho : cfg.rejectOrigin origin <;>
  rcases hp : s.proposals.items i with _ | p <;>
  simp only [rejectProposal, ensureOrigin, EStateM.run, bind, EStateM.bind, pure, EStateM.pure,
    get, EStateM.get, getThe, MonadStateOf.get, modify, modifyGet, MonadStateOf.modifyGet,
    EStateM.modifyGet, set, EStateM.set, throw, EStateM.throw, throwThe, MonadExceptOf.throw,
    ho, hp, if_true, if_false, Bool.false_eq_true]

theorem approveProposal_run (origin : Origin) (i : ProposalIndex) :
    (approveProposal origin i).run s =
      if cfg.approveOrigin origin then
        if (s.proposals.items i).isNone then .error (.module .invalidIndex) s
        else match s.approvals.tryAppend i with
          | some approvals => .ok () { s with approvals }
          | none => .error (.module .tooManyApprovals) s
      else .error .badOrigin s := by
  by_cases ho : cfg.approveOrigin origin <;>
  by_cases hp : (s.proposals.items i).isNone <;>
  rcases ha : s.approvals.tryAppend i with _ | a <;>
  simp only [approveProposal, ensureOrigin, EStateM.run, bind, EStateM.bind, pure,
    EStateM.pure, get, EStateM.get, getThe, MonadStateOf.get, set, EStateM.set, throw,
    EStateM.throw, throwThe, MonadExceptOf.throw, ho, hp, ha, if_true, if_false,
    Bool.false_eq_true]

/-! ## Failed calls

The calls are not `#[transactional]`, so a failed call keeps what it wrote before failing. Each
of them fails before its first write, except `reject_proposal`, whose `take` of an absent key
removes nothing. -/

theorem proposeSpend_error {origin : Origin} {value : Nat} {beneficiary : AccountId}
    {chunks : UInt32} {e : DispatchError} {s' : State cfg}
    (h : (proposeSpend origin value beneficiary chunks).run s = .error e s') : s' = s := by
  rw [proposeSpend_run] at h
  split at h
  · split at h
    · exact (EStateM.Result.error.inj h).2.symm
    · cases h
  all_goals exact (EStateM.Result.error.inj h).2.symm

theorem rejectProposal_error {origin : Origin} {i : ProposalIndex} {e : DispatchError}
    {s' : State cfg} (h : (rejectProposal origin i).run s = .error e s') : s' = s := by
  rw [rejectProposal_run] at h
  split at h
  · rcases hp : s.proposals.items i with _ | p <;> simp only [hp, reduceCtorEq,
      EStateM.Result.error.injEq] at h
    rw [← h.2, Registry.remove_of_none _ _ hp]
  · exact (EStateM.Result.error.inj h).2.symm

theorem approveProposal_error {origin : Origin} {i : ProposalIndex} {e : DispatchError}
    {s' : State cfg} (h : (approveProposal origin i).run s = .error e s') : s' = s := by
  rw [approveProposal_run] at h
  split at h
  · split at h
    · exact (EStateM.Result.error.inj h).2.symm
    · split at h
      · cases h
      · exact (EStateM.Result.error.inj h).2.symm
  · exact (EStateM.Result.error.inj h).2.symm

/-- A failed call leaves the whole storage as it was: the pallet's counters, maps and
`Approvals`, every account's free and reserved balance, the events and the block number. -/
theorem Call.storage_eq_of_error (call : Call) {e : DispatchError} {s' : State cfg}
    (h : call.run.run s = .error e s') : s' = s := by
  cases call with
  | proposeSpend => exact proposeSpend_error s h
  | rejectProposal => exact rejectProposal_error s h
  | approveProposal => exact approveProposal_error s h

/-- Rejecting an index with no proposal fails, and the removal made before the failure leaves the
storage as it was. -/
theorem Call.reject_absent_storage_eq :
    let s := genesis mockConfig mockLedger
    (Call.rejectProposal .root 5).run.run s =
        .error (.module .invalidIndex) { s with proposals := s.proposals.remove 5 } ∧
      { s with proposals := s.proposals.remove 5 } = s :=
  ⟨rfl, Call.storage_eq_of_error _ (.rejectProposal .root 5) rfl⟩

end Treasury
