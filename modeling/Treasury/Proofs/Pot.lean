-- SUMMARY: The treasury's account keeps its minimum balance in every run in which it proposes nothing; with the no-op hook a spend cycle's settlement always succeeds and the pot it leaves covers the amount Rollover reports.
import Treasury.Proofs.Steps

/-!
# The pot

`pot()` is the free balance of the treasury's account less the minimum balance, which is kept out
of the pot "so treasury account never gets deleted". Of the pallet's writes only two take funds
from a free balance: the `reserve` of `propose_spend`, from the proposer, and the `settle` at the
end of `spend_funds`, which withdraws the imbalance from the treasury's account with `KeepAlive`.
Every other write only pays into accounts. So from the genesis build, which tops the account up
to the minimum balance, the account keeps it in every run in which it proposes nothing itself,
and the saturating subtraction in `pot()` never saturates.

With the no-op `SpendFunds` hook the settlement withdraws at most the awards and the burn, so the
amount `Rollover` reports is still in the pot when the cycle ends. The pot may hold more: an award
that `deposit_creating` could not credit, to a new account below the minimum balance, stays in
it, and so does an award or a burn credited to the treasury's own account.
-/

namespace Treasury

variable {cfg : Config}

/-- The signed proposer of a `propose_spend`, and `none` for every other action. -/
def Action.proposer : Action → Option AccountId
  | .dispatch (.proposeSpend (.signed who) _ _ _) => some who
  | _ => none

/-! ## What settlement withdraws -/

/-- `settle` with `KeepAlive` never takes an account below the minimum balance. -/
theorem Ledger.minimumBalance_le_settle {l l' : Ledger} {who : AccountId} {v m : Nat}
    (h : l.settle who v m = some l') (hm : m ≤ l.free who) : m ≤ l'.free who := by
  unfold Ledger.settle at h
  split at h
  · cases h
    simp only [Function.update_same]
    omega
  · cases h

section

variable (s : State cfg)

theorem State.minimumBalance_le_settleImbalance (v : Nat)
    (hm : cfg.minimumBalance ≤ s.ledger.free cfg.accountId) :
    cfg.minimumBalance ≤ (s.settleImbalance v).ledger.free cfg.accountId := by
  unfold State.settleImbalance
  split
  · exact Ledger.minimumBalance_le_settle ‹_› hm
  · exact hm

/-- A settlement that keeps the minimum balance withdraws the whole imbalance. -/
theorem State.settleImbalance_free {v : Nat}
    (h : v = 0 ∨ v + cfg.minimumBalance ≤ s.ledger.free cfg.accountId) :
    (s.settleImbalance v).ledger.free cfg.accountId = s.ledger.free cfg.accountId - v := by
  simp [State.settleImbalance, Ledger.settle, h]

/-- Whatever the `SpendFunds` hooks do, the payments and the burn only pay into accounts. -/
theorem payout_free_ge (a : AccountId) : s.ledger.free a ≤ (payout s).1.ledger.free a := by
  simp only [payout, disburse_eq]
  refine Nat.le_trans ?_ (free_le_burnSurplus _ _ a)
  simpa using free_le_payAll cfg.minimumBalance s.ledger 0 _ a

/-- The spend cycle's ledger is the one its settlement leaves: the promotion loop moves no
funds. -/
theorem spendFunds_ledger :
    (spendFunds s).1.ledger = ((payout s).1.settleImbalance (payout s).2.imbalance).ledger := by
  simp [spendFunds_fst]

/-- With the no-op hook, the imbalance the cycle settles, the minted awards and the debit of the
burn, is at most `pot()`, so it fits in what the treasury's account holds above the minimum
balance. -/
theorem payout_imbalance_le_pot (hook : cfg.spendFunds = id) :
    (payout s).2.imbalance ≤ pot s ∧ ((payout s).2.imbalance = 0 ∨
      (payout s).2.imbalance + cfg.minimumBalance ≤ (payout s).1.ledger.free cfg.accountId) := by
  obtain ⟨-, hi⟩ := payout_cycle_of_hook s hook
  have hb := firstFit_budget s.proposals (pot s) s.approvals.toList
  have hm := payAll_imbalance_le cfg.minimumBalance s.ledger 0
    (firstFit s.proposals (pot s) s.approvals.toList).paid
  have hle : (payout s).2.imbalance ≤ pot s := by rw [hi]; split <;> omega
  have hfree := free_le_payout s hook cfg.accountId
  exact ⟨hle, by unfold pot at hle; omega⟩

/-- With the no-op hook, the imbalance `spend_funds` settles, the minted awards and the debit of
the burn, is at most `pot()`, so settlement with `KeepAlive` succeeds and the "Inconsistent
state" branch, which would drop an unsettled imbalance, is never taken: the cycle leaves the
treasury's account with the whole imbalance withdrawn. -/
theorem spendFunds_settle_isSome (hook : cfg.spendFunds = id) :
    (payout s).2.imbalance ≤ pot s ∧
      ((payout s).1.ledger.settle cfg.accountId (payout s).2.imbalance cfg.minimumBalance).isSome ∧
      (spendFunds s).1.ledger.free cfg.accountId =
        (payout s).1.ledger.free cfg.accountId - (payout s).2.imbalance := by
  obtain ⟨hle, hset⟩ := payout_imbalance_le_pot s hook
  exact ⟨hle, Ledger.settle_isSome _ _ _ hset,
    by rw [spendFunds_ledger, State.settleImbalance_free _ hset]⟩

end

/-- The mock runtime has the no-op hook; its first spend after one approved proposal withdraws
the award of `100` and the burn of `449` from the treasury's `1000`. -/
theorem spendFunds_settle_mock :
    let s := exec (genesis mockConfig mockLedger)
      [.dispatch (.proposeSpend (.signed 1) 100 2 0), .dispatch (.approveProposal .root 0)]
    mockConfig.spendFunds = id ∧ (spendFunds s).1.ledger.free mockConfig.accountId = 451 ∧
      (payout s).2.imbalance ≤ pot s ∧
      ((payout s).1.ledger.settle mockConfig.accountId (payout s).2.imbalance
        mockConfig.minimumBalance).isSome ∧
      (spendFunds s).1.ledger.free mockConfig.accountId =
        (payout s).1.ledger.free mockConfig.accountId - (payout s).2.imbalance :=
  ⟨rfl, by decide, spendFunds_settle_isSome _ rfl⟩

/-! ## The treasury's account stays alive -/

/-- A step keeps the minimum balance in the treasury's account unless the account itself
proposes a spend. -/
theorem minimumBalance_le_step (s : State cfg) (a : Action) (ha : a.proposer ≠ some cfg.accountId)
    (hm : cfg.minimumBalance ≤ s.ledger.free cfg.accountId) :
    cfg.minimumBalance ≤ (step s a).ledger.free cfg.accountId := by
  cases a with
  | dispatch call =>
    cases call with
    | proposeSpend origin value beneficiary chunks =>
      rcases step_proposeSpend s origin value beneficiary chunks with
        h | ⟨ledger, p, -, -, -, ho, hr, h⟩
      · rw [h]; exact hm
      · subst ho
        have hne : cfg.accountId ≠ p.proposer := fun h' => ha (by rw [h']; rfl)
        rw [h, State.depositEvent_ledger, State.setRegistry_ledger,
          (s.ledger.reserve_eq_some p.proposer cfg.accountId p.bond hr).2.1, if_neg hne]
        exact hm
    | rejectProposal origin i =>
      rcases step_rejectProposal s origin i with h | ⟨p, -, h⟩
      · rw [h]; exact hm
      · rw [h]
        simp only [State.depositEvent_ledger]
        refine Nat.le_trans ?_ (State.free_le_onUnbalanced _ _ _ _)
        exact hm
    | approveProposal origin i =>
      rcases step_approveProposal s origin i with h | ⟨approvals, -, -, -, h⟩ <;> rw [h] <;> exact hm
  | nextBlock =>
    rw [step_nextBlock]
    split
    · rw [spendFunds_ledger]
      exact State.minimumBalance_le_settleImbalance _ _
        (Nat.le_trans hm (payout_free_ge { s with blockNumber := s.blockNumber + 1 } _))
    · exact hm

theorem minimumBalance_le_genesis (l : Ledger) :
    cfg.minimumBalance ≤ (genesis cfg l).ledger.free cfg.accountId := by
  unfold genesis
  split
  · simp [Ledger.makeFreeBalanceBe]
  · exact Nat.le_of_not_lt ‹_›

/-- In every run from genesis in which the treasury's account makes no proposal, the account
holds at least the minimum balance, so it is never deleted, and `pot()`'s saturating subtraction
never saturates: the pot and the minimum balance make up the account's free balance. -/
theorem minimumBalance_le_treasury (l : Ledger) (run : List Action)
    (hrun : ∀ a ∈ run, a.proposer ≠ some cfg.accountId) :
    let s := exec (genesis cfg l) run
    cfg.minimumBalance ≤ s.ledger.free cfg.accountId ∧
      pot s + cfg.minimumBalance = s.ledger.free cfg.accountId := by
  have key : ∀ (t : State cfg) (run : List Action), (∀ a ∈ run, a.proposer ≠ some cfg.accountId) →
      cfg.minimumBalance ≤ t.ledger.free cfg.accountId →
      cfg.minimumBalance ≤ (exec t run).ledger.free cfg.accountId := by
    intro t run
    induction run generalizing t with
    | nil => exact fun _ hm => hm
    | cons a run ih =>
      exact fun h hm => ih _ (fun b hb => h b (List.mem_cons_of_mem a hb))
        (minimumBalance_le_step t a (h a (List.mem_cons_self a run)) hm)
  have h := key _ run hrun (minimumBalance_le_genesis l)
  exact ⟨h, by unfold pot; omega⟩

/-- A mock run with one award: the treasury's account pays the award of `100` and burns half of
the `899` left, and keeps more than its minimum balance of `1`. -/
theorem minimumBalance_le_treasury_mock :
    let run : List Action := [.dispatch (.proposeSpend (.signed 1) 100 2 1),
      .dispatch (.approveProposal .root 0), .nextBlock, .nextBlock]
    (∀ a ∈ run, a.proposer ≠ some mockConfig.accountId) ∧
      (exec (genesis mockConfig mockLedger) run).ledger.free mockConfig.accountId = 451 ∧
      mockConfig.minimumBalance ≤ (exec (genesis mockConfig mockLedger) run).ledger.free
        mockConfig.accountId ∧
      pot (exec (genesis mockConfig mockLedger) run) + mockConfig.minimumBalance =
        (exec (genesis mockConfig mockLedger) run).ledger.free mockConfig.accountId :=
  have h : ∀ a ∈ [Action.dispatch (.proposeSpend (.signed 1) 100 2 1),
      .dispatch (.approveProposal .root 0), .nextBlock, .nextBlock],
      a.proposer ≠ some mockConfig.accountId := by decide
  ⟨h, by decide, minimumBalance_le_treasury mockLedger _ h⟩

/-! ## The rollover is in the pot -/

/-- With the no-op `SpendFunds` hook, a spend cycle ends with `Rollover(r)`, and `r` is still in
the pot: the settlement withdraws the minted awards and the burn, at most the values awarded
and the burn, and `r` is the pot at the start less those. -/
theorem rollover_le_pot (hook : cfg.spendFunds = id) (s : State cfg) :
    ∃ r, (spendFunds s).1.events.getLast? = some (.rollover r) ∧ r ≤ pot (spendFunds s).1 := by
  refine ⟨(payout s).2.budgetRemaining, by simp [spendFunds], ?_⟩
  obtain ⟨hr, hi⟩ := payout_cycle_of_hook s hook
  have hb := firstFit_budget s.proposals (pot s) s.approvals.toList
  have hm := payAll_imbalance_le cfg.minimumBalance s.ledger 0
    (firstFit s.proposals (pot s) s.approvals.toList).paid
  have hfree := payout_free_ge s cfg.accountId
  have hpot : pot s = s.ledger.free cfg.accountId - cfg.minimumBalance := rfl
  have hset := (payout_imbalance_le_pot s hook).2
  rw [show pot (spendFunds s).1 = _ - cfg.minimumBalance from rfl, spendFunds_ledger,
    State.settleImbalance_free _ hset, hr, hi]
  split <;> omega

/-- The mock runtime has the no-op hook. After one award of `100` from a pot of `999` and a burn
of half the `899` left, `Rollover` reports `450`, exactly what the pot holds. -/
theorem rollover_le_pot_mock :
    let s := exec (genesis mockConfig mockLedger)
      [.dispatch (.proposeSpend (.signed 1) 100 2 1), .dispatch (.approveProposal .root 0)]
    mockConfig.spendFunds = id ∧
      (spendFunds s).1.events.getLast? = some (.rollover 450) ∧ pot (spendFunds s).1 = 450 ∧
      ∃ r, (spendFunds s).1.events.getLast? = some (.rollover r) ∧ r ≤ pot (spendFunds s).1 :=
  ⟨rfl, by decide, by decide, rollover_le_pot rfl _⟩

end Treasury
