-- SUMMARY: The Approvals::retain pass of spend_funds computes the greedy first fit, and its ledger effects are those of the payments in order.
import Treasury.Model.Runtime
import Treasury.Spec.FirstFit

/-!
# The disbursement pass

`disburse`, the `Approvals::retain` pass of `spend_funds`, refines the greedy first-fit walk of
`Treasury.Spec.FirstFit`: the retained indices are the kept ones, the storage holds the
proposals the walk leaves, each payment emits one `Awarded`, and the ledger and the imbalance
are those of `payAll` over the payments, in order.
-/

namespace Treasury

theorem UInt32.le_zero_iff (x : UInt32) : x ≤ 0 ↔ x = 0 :=
  ⟨fun h => UInt32.toNat.inj (Nat.le_zero.1 h), fun h => h ▸ UInt32.le_refl 0⟩

theorem Registry.insert_remove (r : Registry) (k : ProposalIndex) (p : Proposal) :
    (r.remove k).insert k p = r.insert k p := by
  simp [Registry.insert, Registry.remove]

/-- The event of a payment. -/
def awardedEvent (x : ProposalIndex × Proposal) : Event := .awarded x.1 x.2.value x.2.beneficiary

variable {cfg : Config}

/-- Paying a proposal settles it in `Proposals`, moves its bond and mints its value as `payAll`
does for one payment, and emits `Awarded`. -/
theorem State.award_eq (s : State cfg) (i : ProposalIndex) (p : Proposal) :
    s.award i p =
      let d := (s.ledger.unreserve p.proposer p.bond).1.depositCreating p.beneficiary p.value
        cfg.minimumBalance
      ({ s with proposals := s.proposals.settlePayment i p, ledger := d.1,
                events := s.events ++ [awardedEvent (i, p)] }, d.2) := by
  simp only [State.award, Registry.settlePayment, UInt32.le_zero_iff, Registry.insert_remove]
  rfl

/-- The retain loop is the first-fit walk, with the ledger effects of its payments. -/
theorem retainWith_payOrKeep (q : List ProposalIndex) (s : State cfg) (c : Cycle) :
    retainWith payOrKeep q (s, c) =
      let w := firstFit s.proposals c.budgetRemaining q
      let l := payAll cfg.minimumBalance (s.ledger, c.imbalance) w.paid
      (w.kept,
        ({ s with proposals := w.proposals, ledger := l.1,
                  events := s.events ++ w.paid.map awardedEvent },
         { c with budgetRemaining := w.budget, imbalance := l.2,
                  missedAny := c.missedAny || !w.kept.isEmpty })) := by
  induction q generalizing s c with
  | nil => simp [retainWith, payAll]
  | cons i q ih =>
    rcases h : s.proposals.items i with _ | p
    · simp only [retainWith, payOrKeep, h, ih, firstFit_cons_absent _ _ _ _ h]
      rfl
    · by_cases hp : p.value ≤ c.budgetRemaining
      · simp only [retainWith, payOrKeep, h, hp, if_true, State.award_eq, ih,
          firstFit_cons_pay _ _ _ _ h hp, payAll, List.map_cons, List.append_assoc,
          List.singleton_append]
        rfl
      · simp only [retainWith, payOrKeep, h, hp, if_false, ih,
          firstFit_cons_keep _ _ _ _ h (Nat.lt_of_not_le hp)]
        simp

/-- The disbursement pass is the first-fit walk over `Approvals` with the budget, followed by
the ledger effects of its payments. -/
theorem disburse_eq (s : State cfg) (c : Cycle) :
    disburse s c =
      let w := firstFit s.proposals c.budgetRemaining s.approvals.toList
      let l := payAll cfg.minimumBalance (s.ledger, c.imbalance) w.paid
      ({ s with approvals := s.approvals.ofSublist w.kept (firstFit_kept_sublist ..),
                proposals := w.proposals, ledger := l.1,
                events := s.events ++ w.paid.map awardedEvent },
       { c with budgetRemaining := w.budget, imbalance := l.2,
                missedAny := c.missedAny || !w.kept.isEmpty }) := by
  simp only [disburse, retainWith_payOrKeep]

/-! ## Burn and settlement -/

/-- What `burnSurplus` burns: `min(Burn * budget, budget)` when no spend was missed, else
nothing. -/
def burnAmount (cfg : Config) (c : Cycle) : Nat :=
  if c.missedAny then 0 else min (cfg.burn c.budgetRemaining) c.budgetRemaining

section

variable (s : State cfg) (c : Cycle)

theorem burnSurplus_cycle :
    (burnSurplus s c).2 = { c with budgetRemaining := c.budgetRemaining - burnAmount cfg c,
                                   imbalance := c.imbalance + burnAmount cfg c } := by
  rcases c with ⟨b, i, w, _ | _⟩ <;> simp [burnSurplus, burnAmount]

@[simp] theorem burnSurplus_approvals : (burnSurplus s c).1.approvals = s.approvals := by
  unfold burnSurplus; split <;> simp

@[simp] theorem burnSurplus_proposals : (burnSurplus s c).1.proposals = s.proposals := by
  unfold burnSurplus; split <;> simp

@[simp] theorem burnSurplus_waitingProposals :
    (burnSurplus s c).1.waitingProposals = s.waitingProposals := by
  unfold burnSurplus; split <;> simp

@[simp] theorem burnSurplus_blockNumber : (burnSurplus s c).1.blockNumber = s.blockNumber := by
  unfold burnSurplus; split <;> simp

/-- When nothing was missed, the burn ends with `Burnt` reporting the amount burnt. -/
theorem burnSurplus_last_event (h : c.missedAny = false) :
    (burnSurplus s c).1.events.getLast? = some (.burnt (burnAmount cfg c)) := by
  simp [burnSurplus, burnAmount, h]

/-- The pallet's own imbalance handler only ever pays into an account. -/
theorem State.free_le_onUnbalanced (k : Sink) (amount : Nat) (a : AccountId) :
    s.ledger.free a ≤ (s.onUnbalanced k amount).ledger.free a := by
  unfold State.onUnbalanced
  split
  · exact Nat.le_refl _
  · split
    · exact Nat.le_refl _
    · exact Ledger.free_le_depositCreating _ _ _ _ _

theorem free_le_burnSurplus (a : AccountId) :
    s.ledger.free a ≤ (burnSurplus s c).1.ledger.free a := by
  unfold burnSurplus
  split
  · exact s.free_le_onUnbalanced _ _ a
  · exact Nat.le_refl _

end

/-! ## The disbursement part of `spend_funds` -/

section

variable (s : State cfg)

/-- With the no-op hook, `payout` is the disbursement pass followed by the burn. -/
theorem payout_eq_of_hook (hook : cfg.spendFunds = id) :
    payout s =
      let d := disburse (s.depositEvent (.spending (pot s))) ⟨pot s, 0, 0, false⟩
      burnSurplus d.1
        { d.2 with totalWeight := cfg.onInitializeProposals s.approvals.toList.length } := by
  simp [payout, hook, disburse_eq]

/-- With the no-op hook, the cycle after the burn: the budget left by the walk less the burn,
and the imbalance of the payments plus the burn. -/
theorem payout_cycle_of_hook (hook : cfg.spendFunds = id) :
    let w := firstFit s.proposals (pot s) s.approvals.toList
    let burn := if w.kept = [] then min (cfg.burn w.budget) w.budget else 0
    (payout s).2.budgetRemaining = w.budget - burn ∧
      (payout s).2.imbalance = (payAll cfg.minimumBalance (s.ledger, 0) w.paid).2 + burn := by
  intro w burn
  simp only [payout_eq_of_hook s hook, burnSurplus_cycle, disburse_eq, burnAmount]
  by_cases h : w.kept = [] <;> simp [w, burn, h]

/-- With the no-op hook, the disbursement and the burn only pay into accounts. -/
theorem free_le_payout (hook : cfg.spendFunds = id) (a : AccountId) :
    s.ledger.free a ≤ (payout s).1.ledger.free a := by
  rw [payout_eq_of_hook s hook]
  refine Nat.le_trans ?_ (free_le_burnSurplus _ _ a)
  simpa [disburse_eq] using free_le_payAll _ _ _ _ a

end

end Treasury
