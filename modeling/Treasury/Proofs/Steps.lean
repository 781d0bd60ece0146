-- SUMMARY: What one step of the chain can do to the storage: one inversion lemma per kind of step.
import Treasury.Proofs.Calls
import Treasury.Proofs.Disbursement
import Treasury.Proofs.Promotion

/-!
# Steps

Each lemma here says everything one kind of step can do, guards included, so that the proofs
over runs never unfold a call or the spend cycle. A failed call leaves the storage as it was;
a successful one makes the writes listed. The spend cycle is the first-fit walk of `disburse`
followed by the promotion loop.
-/

namespace Treasury

variable {cfg : Config} (s : State cfg)

theorem step_dispatch_of_error (call : Call) {e : DispatchError} {s' : State cfg}
    (h : call.run.run s = .error e s') : step s (.dispatch call) = s := by
  simp only [step, h, storageOf]
  cases call with
  | proposeSpend => exact proposeSpend_error s h
  | rejectProposal => exact rejectProposal_error s h
  | approveProposal => exact approveProposal_error s h

/-- `propose_spend` either fails, or reserves the bond from the signed proposer and pushes a
proposal whose two `occurs` fields are `chunks` onto the registry the block selects. -/
theorem step_proposeSpend (origin : Origin) (value : Nat) (beneficiary : AccountId)
    (chunks : UInt32) :
    step s (.dispatch (.proposeSpend origin value beneficiary chunks)) = s ∨
    ∃ ledger : Ledger, ∃ p : Proposal,
      (proposeSpend origin value beneficiary chunks).run s =
        .ok () (step s (.dispatch (.proposeSpend origin value beneficiary chunks))) ∧
      p.occurs = chunks ∧ p.remainingOccurs = chunks ∧ origin = .signed p.proposer ∧
      s.ledger.reserve p.proposer p.bond = some ledger ∧
      step s (.dispatch (.proposeSpend origin value beneficiary chunks)) =
        ({ s with ledger }.setRegistry s.inWaitingPeriod
          ((s.registry s.inWaitingPeriod).push p)).depositEvent
          (if s.inWaitingPeriod then .waitingProposed (s.registry s.inWaitingPeriod).count
           else .proposed (s.registry s.inWaitingPeriod).count) := by
  have h := proposeSpend_run s origin value beneficiary chunks
  rcases origin with _ | proposer | _
  · exact .inl (step_dispatch_of_error s _ h)
  · rcases hl : cfg.lookup beneficiary with _ | b <;> simp only [hl] at h
    · exact .inl (step_dispatch_of_error s _ h)
    · rcases hr : s.ledger.reserve proposer (calculateBond cfg value) with _ | ledger <;>
        simp only [hr] at h
      · exact .inl (step_dispatch_of_error s _ h)
      · refine .inr ⟨ledger, ⟨proposer, chunkOf value chunks, b, calculateBond cfg value, chunks,
          chunks⟩, by simp only [step, Call.run, h, storageOf], rfl, rfl, rfl, hr, ?_⟩
        simp only [step, Call.run, h, storageOf]
        rfl
  · exact .inl (step_dispatch_of_error s _ h)

/-- `propose_spend` from a signed origin whose beneficiary resolves and whose bond can be
reserved. -/
theorem step_proposeSpend_of_reserve {who b b' : AccountId} {value : Nat} {chunks : UInt32}
    {ledger : Ledger} (hl : cfg.lookup b = some b')
    (hr : s.ledger.reserve who (calculateBond cfg value) = some ledger) :
    step s (.dispatch (.proposeSpend (.signed who) value b chunks)) =
      ({ s with ledger }.setRegistry s.inWaitingPeriod ((s.registry s.inWaitingPeriod).push
        ⟨who, chunkOf value chunks, b', calculateBond cfg value, chunks, chunks⟩)).depositEvent
        (if s.inWaitingPeriod then .waitingProposed (s.registry s.inWaitingPeriod).count
         else .proposed (s.registry s.inWaitingPeriod).count) := by
  simp only [step, Call.run, proposeSpend_run, hl, hr, storageOf]; rfl

theorem State.inWaitingPeriod_congr {s t : State cfg} (h : s.blockNumber = t.blockNumber) :
    s.inWaitingPeriod = t.inWaitingPeriod := by
  simp only [State.inWaitingPeriod, h]

/-- `n` proposals from one account, in one block, push `n` copies of one proposal onto the
registry the block selects, and reserve `n` bonds. -/
theorem exec_replicate_proposeSpend (n : Nat) (who : AccountId) (value : Nat) (chunks : UInt32)
    {b b' : AccountId} (hl : cfg.lookup b = some b')
    (hfree : n * calculateBond cfg value ≤ s.ledger.free who) :
    let s' := exec s (List.replicate n (.dispatch (.proposeSpend (.signed who) value b chunks)))
    s'.registry s.inWaitingPeriod = (s.registry s.inWaitingPeriod).pushAll
      (List.replicate n ⟨who, chunkOf value chunks, b', calculateBond cfg value, chunks, chunks⟩) ∧
    s'.registry (!s.inWaitingPeriod) = s.registry (!s.inWaitingPeriod) ∧
    s'.blockNumber = s.blockNumber ∧ s'.approvals = s.approvals ∧
    s'.ledger.free who = s.ledger.free who - n * calculateBond cfg value ∧
    ∀ a, a ≠ who → s'.ledger.free a = s.ledger.free a := by
  induction n generalizing s with
  | zero => simp
  | succ n ih =>
    have hle : calculateBond cfg value ≤ s.ledger.free who := by
      rw [Nat.succ_mul] at hfree; omega
    obtain ⟨ledger, hr⟩ : ∃ l, s.ledger.reserve who (calculateBond cfg value) = some l :=
      ⟨_, if_pos hle⟩
    have hl' := fun a => (s.ledger.reserve_eq_some who a _ hr).2.1
    have hstep : step s (.dispatch (.proposeSpend (.signed who) value b chunks)) = _ :=
      step_proposeSpend_of_reserve s hl hr
    have hw : (step s (.dispatch (.proposeSpend (.signed who) value b chunks))).inWaitingPeriod =
        s.inWaitingPeriod := State.inWaitingPeriod_congr (by rw [hstep]; simp)
    obtain ⟨h1, h2, h3, h4, h5, h6⟩ := ih (step s (.dispatch (.proposeSpend (.signed who) value b chunks)))
      (by rw [hstep]; simp only [State.depositEvent_ledger, State.setRegistry_ledger, hl' who,
        if_true]; rw [Nat.succ_mul] at hfree; omega)
    rw [hw] at h1 h2
    simp only [List.replicate_succ, exec_cons]
    refine ⟨?_, ?_, ?_, ?_, ?_, fun a ha => ?_⟩
    · rw [h1, hstep]; simp
    · rw [h2, hstep]; simp; rfl
    · rw [h3, hstep]; simp
    · rw [h4, hstep]; simp
    · rw [h5, hstep]; simp only [State.depositEvent_ledger, State.setRegistry_ledger, hl' who,
        if_true]; rw [Nat.succ_mul]; omega
    · rw [h6 a ha, hstep]; simp [hl' a, ha]

/-- `reject_proposal` either fails, or removes a stored proposal and slashes its bond. -/
theorem step_rejectProposal (origin : Origin) (i : ProposalIndex) :
    step s (.dispatch (.rejectProposal origin i)) = s ∨
    ∃ p, s.proposals.items i = some p ∧
      step s (.dispatch (.rejectProposal origin i)) =
        let s₁ : State cfg := { s with proposals := s.proposals.remove i }
        let r := s₁.ledger.slashReserved p.proposer p.bond
        ({ s₁ with ledger := r.1 }.onUnbalanced cfg.onSlash r.2.1).depositEvent
          (.rejected i p.bond) := by
  have h := rejectProposal_run s origin i
  split at h
  · split at h
    · exact .inl (step_dispatch_of_error s _ h)
    · rename_i p hp
      exact .inr ⟨p, hp, by simp only [step, Call.run, h, storageOf]⟩
  · exact .inl (step_dispatch_of_error s _ h)

/-- `approve_proposal` either fails, or appends the index of a stored proposal to `Approvals`. -/
theorem step_approveProposal (origin : Origin) (i : ProposalIndex) :
    step s (.dispatch (.approveProposal origin i)) = s ∨
    ∃ approvals, s.proposals.items i ≠ none ∧ s.approvals.tryAppend i = some approvals ∧
      (approveProposal origin i).run s = .ok () { s with approvals } ∧
      step s (.dispatch (.approveProposal origin i)) = { s with approvals } := by
  have h := approveProposal_run s origin i
  by_cases ho : cfg.approveOrigin origin
  · by_cases hi : (s.proposals.items i).isNone
    · rw [if_pos ho, if_pos hi] at h; exact .inl (step_dispatch_of_error s _ h)
    · rw [if_pos ho, if_neg hi] at h
      rcases ha : s.approvals.tryAppend i with _ | approvals <;> rw [ha] at h
      · exact .inl (step_dispatch_of_error s _ h)
      · refine .inr ⟨approvals, by simpa using hi, rfl, h, ?_⟩
        simp only [step, Call.run, h, storageOf]
  · rw [if_neg ho] at h; exact .inl (step_dispatch_of_error s _ h)

/-- A new block runs the spend cycle at the first block of each spend period. -/
theorem step_nextBlock :
    step s .nextBlock =
      if (s.blockNumber + 1) % cfg.spendPeriod = 0 then
        (spendFunds { s with blockNumber := s.blockNumber + 1 }).1
      else { s with blockNumber := s.blockNumber + 1 } := by
  simp only [step, onInitialize]; split <;> rfl

theorem step_nextBlock_of_spend (h : (s.blockNumber + 1) % cfg.spendPeriod = 0) :
    step s .nextBlock = (spendFunds { s with blockNumber := s.blockNumber + 1 }).1 := by
  rw [step_nextBlock, if_pos h]

theorem step_nextBlock_of_not_spend (h : ¬(s.blockNumber + 1) % cfg.spendPeriod = 0) :
    step s .nextBlock = { s with blockNumber := s.blockNumber + 1 } := by
  rw [step_nextBlock, if_neg h]

/-! ## The spend cycle -/

@[simp] theorem State.settleImbalance_proposals (a : Nat) :
    (s.settleImbalance a).proposals = s.proposals := by
  unfold State.settleImbalance; split <;> rfl
@[simp] theorem State.settleImbalance_waitingProposals (a : Nat) :
    (s.settleImbalance a).waitingProposals = s.waitingProposals := by
  unfold State.settleImbalance; split <;> rfl
@[simp] theorem State.settleImbalance_approvals (a : Nat) :
    (s.settleImbalance a).approvals = s.approvals := by
  unfold State.settleImbalance; split <;> rfl
@[simp] theorem State.settleImbalance_blockNumber (a : Nat) :
    (s.settleImbalance a).blockNumber = s.blockNumber := by
  unfold State.settleImbalance; split <;> rfl
@[simp] theorem State.settleImbalance_events (a : Nat) :
    (s.settleImbalance a).events = s.events := by
  unfold State.settleImbalance; split <;> rfl

/-- The first-fit walk the spend cycle makes over `Approvals` with the pot. -/
abbrev State.cycleWalk : FirstFit := firstFit s.proposals (pot s) s.approvals.toList

@[simp] theorem payout_proposals : (payout s).1.proposals = s.cycleWalk.proposals := by
  simp [payout, disburse_eq]
@[simp] theorem payout_waitingProposals : (payout s).1.waitingProposals = s.waitingProposals := by
  simp [payout, disburse_eq]
@[simp] theorem payout_approvals : (payout s).1.approvals.toList = s.cycleWalk.kept := by
  simp [payout, disburse_eq]
@[simp] theorem payout_blockNumber : (payout s).1.blockNumber = s.blockNumber := by
  simp [payout, disburse_eq]

/-- The storage the promotion loop starts from. -/
abbrev State.settled : State cfg := (payout s).1.settleImbalance (payout s).2.imbalance

theorem spendFunds_fst :
    (spendFunds s).1 = (promoteWaiting s.settled).depositEvent (.rollover (payout s).2.budgetRemaining) :=
  rfl

/-- The spend cycle leaves in `Approvals` the indices its walk kept. -/
theorem spendFunds_approvals : (spendFunds s).1.approvals.toList = s.cycleWalk.kept := by
  simp [spendFunds_fst]

/-- With the waiting keys below their counter, the spend cycle leaves in `Proposals` what the
walk left, with the waiting proposals pushed after it, and empties `WaitingProposals`. -/
theorem spendFunds_registries (hw : s.waitingProposals.Bounded) :
    (spendFunds s).1.proposals = s.cycleWalk.proposals.pushAll s.waitingProposals.toList ∧
    (∀ k, (spendFunds s).1.waitingProposals.items k = none) ∧
    (spendFunds s).1.approvals.toList = s.cycleWalk.kept ∧
    (spendFunds s).1.blockNumber = s.blockNumber := by
  obtain ⟨hp, hk, -, ha, -, hb⟩ := promoteWaiting_eq s.settled (by simpa using hw)
  simp only [spendFunds_fst, State.depositEvent_proposals, State.depositEvent_waitingProposals,
    State.depositEvent_approvals, State.depositEvent_blockNumber, hp, hk, ha, hb]
  simp

/-- With `WaitingProposalCount` at `0`, the spend cycle leaves `WaitingProposals` as it was. -/
theorem spendFunds_waitingProposals_of_count_zero (h : s.waitingProposals.count = 0) :
    (spendFunds s).1.waitingProposals = s.waitingProposals := by
  rw [spendFunds_fst, promoteWaiting_of_count_zero _ (by simpa using h)]
  simp

/-- With `WaitingProposalCount` at `0`, a new block leaves `WaitingProposals` as it was, whether
it runs the spend cycle or not. -/
theorem step_nextBlock_waitingProposals_of_count_zero (h : s.waitingProposals.count = 0) :
    (step s .nextBlock).waitingProposals = s.waitingProposals := by
  rw [step_nextBlock]
  split
  · exact spendFunds_waitingProposals_of_count_zero _ h
  · rfl

end Treasury
