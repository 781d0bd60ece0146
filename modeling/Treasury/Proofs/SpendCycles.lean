-- SUMMARY: Spend cycles: with the no-op SpendFunds hook a cycle disburses by greedy first fit and closes the budget it opens with its Awarded values, its Burnt amount and its Rollover; in every run the log holds one Spending per ended spend period.
import Treasury.Proofs.Approvals

/-!
# Spend cycles

`on_initialize` runs `spend_funds` at each block whose number is a multiple of `SpendPeriod`,
and `spend_funds` opens its cycle with `Spending(budget_remaining)`, takes each award's value
out of the budget, burns a part of what is left, and reports the rest with
`Rollover(budget_remaining)`. A call logs only `Proposed`, `WaitingProposed`, `Deposit` and
`Rejected`.

With the no-op `SpendFunds` hook the retain pass is the greedy first fit of
`Treasury.Spec.FirstFit`, and we state what the whole cycle leaves in `Approvals`, in
`Proposals` and in the log. The log holds one `Spending` for each spend period that has ended.
We also follow the budget through the cycle: each pass moves the budget it is handed to the
budget it hands on, and the events it logs open and close the difference. With the no-op
`SpendFunds` hook nothing else changes `budget_remaining`, so every cycle, and so every run,
logs as much budget closed as opened.
-/

namespace Treasury

variable {cfg : Config}

/-- The events a call can log: `Proposed` and `WaitingProposed` from `propose_spend`, `Deposit`
and `Rejected` from `reject_proposal`. -/
def Event.fromCall : Event → Bool
  | .proposed _ | .waitingProposed _ | .deposit _ | .rejected _ _ => true
  | _ => false

/-- Whether the event opens a spend cycle. -/
def Event.isSpending : Event → Bool
  | .spending _ => true
  | _ => false

/-- The budget an event opens: the pot a `Spending` event reports. -/
def Event.budgetIn : Event → Nat
  | .spending budgetRemaining => budgetRemaining
  | _ => 0

/-- The part of a budget an event closes: an award's value, a burn, or the rollover. -/
def Event.budgetOut : Event → Nat
  | .awarded _ award _ => award
  | .burnt burn => burn
  | .rollover budgetRemaining => budgetRemaining
  | _ => 0

/-- Whether the event neither opens nor closes a budget. -/
def Event.budgetFree (e : Event) : Bool := e.budgetIn == 0 && e.budgetOut == 0

theorem Event.isSpending_of_fromCall {e : Event} (h : e.fromCall = true) : e.isSpending = false := by
  cases e <;> simp_all [Event.fromCall, Event.isSpending]

theorem Event.budgetFree_of_fromCall {e : Event} (h : e.fromCall = true) : e.budgetFree = true := by
  cases e <;> simp_all [Event.fromCall, Event.budgetFree, Event.budgetIn, Event.budgetOut]

/-! ## Events a pass may log -/

/-- `s'` extends the log of `s` with events that satisfy `P` only. -/
def State.LogsOnly (P : Event → Bool) (s s' : State cfg) : Prop :=
  ∃ t : List Event, s'.events = s.events ++ t ∧ ∀ e ∈ t, P e = true

namespace State.LogsOnly

variable {P Q : Event → Bool} {s s' s'' : State cfg}

theorem refl (h : s'.events = s.events) : s.LogsOnly P s' :=
  ⟨[], by rw [h, List.append_nil], fun _ he => absurd he (List.not_mem_nil _)⟩

theorem trans (h : s.LogsOnly P s') (h' : s'.LogsOnly P s'') : s.LogsOnly P s'' := by
  obtain ⟨t, ht, hP⟩ := h
  obtain ⟨t', ht', hP'⟩ := h'
  exact ⟨t ++ t', by rw [ht', ht, List.append_assoc],
    fun e he => (List.mem_append.1 he).elim (hP e) (hP' e)⟩

theorem mono (h : s.LogsOnly P s') (hPQ : ∀ e, P e = true → Q e = true) : s.LogsOnly Q s' :=
  let ⟨t, ht, hP⟩ := h
  ⟨t, ht, fun e he => hPQ e (hP e he)⟩

/-- Events that `Q` never holds of leave the count of `Q` as it was. -/
theorem countP_eq (h : s.LogsOnly P s') (hQ : ∀ e, P e = true → Q e = false) :
    s'.events.countP Q = s.events.countP Q := by
  obtain ⟨t, ht, hP⟩ := h
  have ht₀ : t.countP Q = 0 := List.countP_eq_zero.2 fun e he => by simp [hQ e (hP e he)]
  rw [ht, List.countP_append, ht₀, Nat.add_zero]

end State.LogsOnly

section

variable (s : State cfg) {P : Event → Bool}

theorem State.logsOnly_depositEvent {e : Event} (he : P e = true) :
    s.LogsOnly P (s.depositEvent e) :=
  ⟨[e], rfl, fun _ h => by rw [List.mem_singleton.1 h]; exact he⟩

theorem State.logsOnly_onUnbalanced (hP : ∀ a, P (.deposit a) = true) (k : Sink) (a : Nat) :
    s.LogsOnly P (s.onUnbalanced k a) := by
  unfold State.onUnbalanced
  split
  · exact .refl rfl
  · split
    · exact .refl rfl
    · exact State.logsOnly_depositEvent _ (hP a)

theorem logsOnly_burnSurplus (hP : ∀ a, P (.deposit a) = true ∧ P (.burnt a) = true) (c : Cycle) :
    s.LogsOnly P (burnSurplus s c).1 := by
  unfold burnSurplus
  split
  · exact (State.logsOnly_onUnbalanced _ (fun a => (hP a).1) _ _).trans
      (State.logsOnly_depositEvent _ (hP _).2)
  · exact .refl rfl

theorem logsOnly_promoteWaiting
    (hP : ∀ k, P (.waitingProposalTransfered k) = true ∧ P (.proposed k) = true) :
    s.LogsOnly P (promoteWaiting s) := by
  suffices key : ∀ (w : ProposalIndex) (l : List Nat) (t : State cfg),
      t.LogsOnly P (l.foldl (fun s i => promoteOne w s (UInt32.ofNat i)) t) from key _ _ s
  intro w l
  induction l with
  | nil => exact fun _ => .refl rfl
  | cons k l ih =>
    refine fun t => State.LogsOnly.trans ⟨_, promoteOne_events w t _, fun e he => ?_⟩ (ih _)
    rcases List.mem_pair.1 he with rfl | rfl
    · exact (hP w).1
    · exact (hP _).2

/-- A call logs only `Proposed`, `WaitingProposed`, `Deposit` and `Rejected`. -/
theorem step_dispatch_logsOnly (call : Call) : s.LogsOnly Event.fromCall (step s (.dispatch call)) := by
  cases call with
  | proposeSpend origin value beneficiary chunks =>
    rcases step_proposeSpend s origin value beneficiary chunks with
      h | ⟨ledger, p, -, -, -, -, -, h⟩ <;> rw [h]
    · exact .refl rfl
    · exact (State.LogsOnly.refl (by simp)).trans
        (State.logsOnly_depositEvent _ (by split <;> rfl))
  | rejectProposal origin j =>
    rcases step_rejectProposal s origin j with h | ⟨p, -, h⟩ <;> rw [h]
    · exact .refl rfl
    · refine State.LogsOnly.trans ?_ (State.logsOnly_depositEvent _ rfl)
      exact (State.LogsOnly.refl rfl).trans (State.logsOnly_onUnbalanced _ (fun _ => rfl) _ _)
  | approveProposal origin j =>
    rcases step_approveProposal s origin j with h | ⟨approvals, -, -, -, h⟩ <;> rw [h] <;>
      exact .refl rfl

theorem step_dispatch_blockNumber (call : Call) :
    (step s (.dispatch call)).blockNumber = s.blockNumber := by
  cases call with
  | proposeSpend origin value beneficiary chunks =>
    rcases step_proposeSpend s origin value beneficiary chunks with
      h | ⟨ledger, p, -, -, -, -, -, h⟩ <;> simp [h]
  | rejectProposal origin j =>
    rcases step_rejectProposal s origin j with h | ⟨p, -, h⟩ <;> simp [h]
  | approveProposal origin j =>
    rcases step_approveProposal s origin j with h | ⟨approvals, -, -, -, h⟩ <;> rw [h]

/-! ## One `Spending` for each spend period -/

/-- A spend cycle logs one `Spending`. -/
theorem spendFunds_countP_isSpending :
    (spendFunds s).1.events.countP Event.isSpending = s.events.countP Event.isSpending + 1 := by
  have hd : (s.depositEvent (.spending (pot s))).LogsOnly (fun e => !e.isSpending)
      (disburse (s.depositEvent (.spending (pot s))) ⟨pot s, 0, 0, false⟩).1 := by
    rw [disburse_eq]
    exact ⟨_, rfl, fun e he => by obtain ⟨x, -, rfl⟩ := List.mem_map.1 he; rfl⟩
  rw [spendFunds_fst]
  have h : (s.depositEvent (.spending (pot s))).LogsOnly (fun e => !e.isSpending)
      ((promoteWaiting s.settled).depositEvent (.rollover (payout s).2.budgetRemaining)) :=
    (((hd.trans (logsOnly_burnSurplus _ (fun _ => ⟨rfl, rfl⟩) _)).trans
      (.refl (State.settleImbalance_events _ _))).trans
      (logsOnly_promoteWaiting _ fun _ => ⟨rfl, rfl⟩)).trans (State.logsOnly_depositEvent _ rfl)
  rw [h.countP_eq fun e he => by simpa using he]
  simp [Event.isSpending]

theorem spendFunds_blockNumber : (spendFunds s).1.blockNumber = s.blockNumber := by
  rw [spendFunds_fst, State.depositEvent_blockNumber]
  exact (foldl_promoteOne _ s.settled _ (Nat.le_refl _)).2.2.2.2.2.trans (by simp)

end

/-- In every run from genesis, the log holds one `Spending` for each block up to the current
one whose number is a multiple of `SpendPeriod`: `spend_funds` runs once in each spend period
that has ended, and nothing else opens a spend cycle. -/
theorem spendings_eq_periods (l : Ledger) (run : List Action) :
    let s := exec (genesis cfg l) run
    s.events.countP Event.isSpending = s.blockNumber / cfg.spendPeriod := by
  suffices key : ∀ (t : State cfg), t.events.countP Event.isSpending = t.blockNumber / cfg.spendPeriod →
      (exec t run).events.countP Event.isSpending = (exec t run).blockNumber / cfg.spendPeriod from
    key _ (by simp [genesis])
  induction run with
  | nil => exact fun _ h => h
  | cons a run ih =>
    refine fun t h => ih _ ?_
    cases a with
    | dispatch call =>
      rw [(step_dispatch_logsOnly t call).countP_eq fun _ => Event.isSpending_of_fromCall,
        step_dispatch_blockNumber, h]
    | nextBlock =>
      rw [step_nextBlock]
      split
      · rename_i hspend
        rw [spendFunds_countP_isSpending, spendFunds_blockNumber, h]
        exact (Nat.succ_div_of_dvd (Nat.dvd_of_mod_eq_zero hspend)).symm
      · rename_i hspend
        exact h.trans (Nat.succ_div_of_not_dvd fun hd => hspend (Nat.mod_eq_zero_of_dvd hd)).symm

/-! ## The disbursement of a cycle and what the cycle leaves -/

section

variable (s : State cfg)

/-- With the no-op `SpendFunds` hook, the disbursement part of `spend_funds` is the greedy first
fit over `Approvals` with the budget `B = pot()`: the retained queue is the kept subsequence,
each kept index still has its proposal, `Proposals`, the ledger and the events are those the
payments make, the burn is `min(Burn * r, r)` exactly when nothing was kept, and `B` splits into
the awarded values, the burn and the amount `Rollover` reports, so no subtraction underflows.
The whole cycle leaves in `Approvals` the kept subsequence, in `Proposals` those the walk left
followed by the promoted waiting proposals, and in the log, after `Spending(B)`, one `Awarded`
for each payment of the walk, in order, and no other. -/
theorem spendFunds_disbursement_eq_firstFit (hook : cfg.spendFunds = id) :
    let B := pot s
    let w := firstFit s.proposals B s.approvals.toList
    let l := payAll cfg.minimumBalance (s.ledger, 0) w.paid
    let burn := if w.kept = [] then min (cfg.burn w.budget) w.budget else 0
    let s₀ := s.depositEvent (.spending B)
    disburse s₀ ⟨B, 0, 0, false⟩ =
      ({ s₀ with approvals := s.approvals.ofSublist w.kept
                   (firstFit_kept_sublist s.proposals B s.approvals.toList),
                 proposals := w.proposals, ledger := l.1,
                 events := s₀.events ++ w.paid.map awardedEvent },
       ⟨w.budget, l.2, 0, !w.kept.isEmpty⟩) ∧
    (∀ i ∈ w.kept, w.proposals.items i ≠ none) ∧
    (w.kept = [] → (payout s).1.events.getLast? = some (.burnt burn)) ∧
    (payout s).2.imbalance = l.2 + burn ∧
    (spendFunds s).1.events.getLast? = some (.rollover (payout s).2.budgetRemaining) ∧
    paidValue w.paid + burn + (payout s).2.budgetRemaining = B ∧
    (spendFunds s).1.approvals.toList = w.kept ∧
    (spendFunds s).1.proposals = w.proposals.pushAll s.waitingProposals.toList ∧
    ∃ t : List Event, (spendFunds s).1.events =
        s.events ++ .spending B :: w.paid.map awardedEvent ++ t ∧
      ∀ i, t.countP (Event.awards i) = 0 := by
  dsimp only
  obtain ⟨hr, hi⟩ := payout_cycle_of_hook s hook
  have hb := firstFit_budget s.proposals (pot s) s.approvals.toList
  refine ⟨disburse_eq _ _, fun i hi => firstFit_kept_present _ _ _ hi, fun hk => ?_, hi,
    by simp [spendFunds], ?_, spendFunds_approvals s, ?_, spendFunds_events s⟩
  · rw [payout_eq_of_hook s hook, burnSurplus_last_event _ _ (by simp [disburse_eq, hk])]
    simp [burnAmount, disburse_eq, hk]
  · rw [hr]; split <;> omega
  · simp [spendFunds_fst, (promoteWaiting_registries _).1]

end

/-- The mock runtime has the no-op hook; its first spend after one approved proposal. -/
theorem spendFunds_disbursement_mock :
    let s := exec (genesis mockConfig mockLedger)
      [.dispatch (.proposeSpend (.signed 1) 100 2 0), .dispatch (.approveProposal .root 0)]
    mockConfig.spendFunds = id ∧
    let B := pot s
    let w := firstFit s.proposals B s.approvals.toList
    let l := payAll mockConfig.minimumBalance (s.ledger, 0) w.paid
    let burn := if w.kept = [] then min (mockConfig.burn w.budget) w.budget else 0
    let s₀ := s.depositEvent (.spending B)
    disburse s₀ ⟨B, 0, 0, false⟩ =
      ({ s₀ with approvals := s.approvals.ofSublist w.kept
                   (firstFit_kept_sublist s.proposals B s.approvals.toList),
                 proposals := w.proposals, ledger := l.1,
                 events := s₀.events ++ w.paid.map awardedEvent },
       ⟨w.budget, l.2, 0, !w.kept.isEmpty⟩) ∧
    (∀ i ∈ w.kept, w.proposals.items i ≠ none) ∧
    (w.kept = [] → (payout s).1.events.getLast? = some (.burnt burn)) ∧
    (payout s).2.imbalance = l.2 + burn ∧
    (spendFunds s).1.events.getLast? = some (.rollover (payout s).2.budgetRemaining) ∧
    paidValue w.paid + burn + (payout s).2.budgetRemaining = B ∧
    (spendFunds s).1.approvals.toList = w.kept ∧
    (spendFunds s).1.proposals = w.proposals.pushAll s.waitingProposals.toList ∧
    ∃ t : List Event, (spendFunds s).1.events =
        s.events ++ .spending B :: w.paid.map awardedEvent ++ t ∧
      ∀ i, t.countP (Event.awards i) = 0 :=
  ⟨rfl, spendFunds_disbursement_eq_firstFit _ rfl⟩

/-! ## Budgets -/

/-- `s'` extends the log of `s`, carrying in the budget `b` and out the budget `b'`: the budget
the new events open, with `b`, is the budget they close, with `b'`. -/
def State.Carries (s s' : State cfg) (b b' : Nat) : Prop :=
  ∃ t : List Event, s'.events = s.events ++ t ∧
    (t.map Event.budgetIn).sum + b = (t.map Event.budgetOut).sum + b'

namespace State.Carries

variable {s s' s'' : State cfg} {b b' b'' : Nat}

theorem trans (h : s.Carries s' b b') (h' : s'.Carries s'' b' b'') : s.Carries s'' b b'' := by
  obtain ⟨t, ht, hb⟩ := h
  obtain ⟨t', ht', hb'⟩ := h'
  refine ⟨t ++ t', by rw [ht', ht, List.append_assoc], ?_⟩
  simp only [List.map_append, List.sum_append]
  omega

end State.Carries

/-- Events that neither open nor close a budget carry any budget through. -/
theorem State.LogsOnly.carries {s s' : State cfg} (h : s.LogsOnly Event.budgetFree s') (b : Nat) :
    s.Carries s' b b := by
  obtain ⟨t, ht, hP⟩ := h
  have hz : ∀ e ∈ t, e.budgetIn = 0 ∧ e.budgetOut = 0 := fun e he => by
    simpa [Event.budgetFree] using hP e he
  have hin : (t.map Event.budgetIn).sum = 0 := List.sum_eq_zero fun n hn => by
    obtain ⟨e, he, rfl⟩ := List.mem_map.1 hn
    exact (hz e he).1
  have hout : (t.map Event.budgetOut).sum = 0 := List.sum_eq_zero fun n hn => by
    obtain ⟨e, he, rfl⟩ := List.mem_map.1 hn
    exact (hz e he).2
  exact ⟨t, ht, by rw [hin, hout]⟩

theorem State.carries_depositEvent (s : State cfg) {b b' : Nat} (e : Event)
    (h : e.budgetIn + b = e.budgetOut + b') : s.Carries (s.depositEvent e) b b' :=
  ⟨[e], rfl, by simpa using h⟩

section

variable (s : State cfg)

/-- The retain loop closes the value of each award it pays. -/
theorem carries_disburse (c : Cycle) :
    s.Carries (disburse s c).1 c.budgetRemaining (disburse s c).2.budgetRemaining := by
  rw [disburse_eq]
  refine ⟨_, rfl, ?_⟩
  have h := firstFit_budget s.proposals c.budgetRemaining s.approvals.toList
  simp only [paidValue] at h
  simp [Function.comp_def, awardedEvent, Event.budgetIn, Event.budgetOut]
  omega

/-- The burn closes what it takes from the budget. -/
theorem carries_burnSurplus (c : Cycle) :
    s.Carries (burnSurplus s c).1 c.budgetRemaining (burnSurplus s c).2.budgetRemaining := by
  unfold burnSurplus
  split
  · exact (State.logsOnly_onUnbalanced _ (fun _ => rfl) _ _ |>.carries _).trans
      (State.carries_depositEvent _ _ (by simp only [Event.budgetIn, Event.budgetOut]; omega))
  · exact (State.LogsOnly.refl rfl).carries _

/-- With the no-op hook, a spend cycle closes the budget it opens. -/
theorem carries_spendFunds (hook : cfg.spendFunds = id) : s.Carries (spendFunds s).1 0 0 := by
  have hpayout : s.Carries (payout s).1 0 (payout s).2.budgetRemaining := by
    rw [payout_eq_of_hook s hook]
    have h₁ : s.Carries (s.depositEvent (.spending (pot s))) 0 (pot s) :=
      State.carries_depositEvent s _ (Nat.add_comm _ _)
    exact h₁.trans ((carries_disburse _ ⟨pot s, 0, 0, false⟩).trans (carries_burnSurplus _ _))
  have hpromote : (payout s).1.LogsOnly Event.budgetFree (promoteWaiting s.settled) :=
    (State.LogsOnly.refl (State.settleImbalance_events _ _)).trans
    (logsOnly_promoteWaiting s.settled fun _ => ⟨rfl, rfl⟩)
  rw [spendFunds_fst]
  exact (hpayout.trans (hpromote.carries _)).trans (State.carries_depositEvent _ _ (Nat.add_comm _ _))

theorem carries_step (hook : cfg.spendFunds = id) (a : Action) : s.Carries (step s a) 0 0 := by
  cases a with
  | dispatch call =>
    exact ((step_dispatch_logsOnly s call).mono fun _ => Event.budgetFree_of_fromCall).carries 0
  | nextBlock =>
    rw [step_nextBlock]
    split
    · exact ((State.LogsOnly.refl rfl).carries 0).trans (carries_spendFunds _ hook)
    · exact (State.LogsOnly.refl rfl).carries 0

theorem carries_exec (hook : cfg.spendFunds = id) (run : List Action) :
    s.Carries (exec s run) 0 0 := by
  induction run generalizing s with
  | nil => exact (State.LogsOnly.refl rfl).carries 0
  | cons a run ih => exact (carries_step s hook a).trans (ih _)

end

/-- With the no-op `SpendFunds` hook, in every run from genesis the budgets the log opens with
`Spending` are the budgets it closes: the `Spending` amounts add up to the `Awarded` values, the
`Burnt` amounts and the `Rollover` amounts together. -/
theorem spending_eq_budgetOut (hook : cfg.spendFunds = id) (l : Ledger) (run : List Action) :
    let s := exec (genesis cfg l) run
    (s.events.map Event.budgetIn).sum = (s.events.map Event.budgetOut).sum := by
  obtain ⟨t, ht, hb⟩ := carries_exec (genesis cfg l) hook run
  have h₀ : (genesis cfg l).events = [] := rfl
  dsimp only
  rw [ht, h₀, List.nil_append]
  simpa using hb

/-- One spend cycle of the mock runtime: `Spending(999)` is closed by `Awarded(0, 100, 2)`,
`Burnt(449)` and `Rollover(450)`. -/
theorem spending_eq_budgetOut_mock :
    let s := exec (genesis mockConfig mockLedger)
      [.dispatch (.proposeSpend (.signed 1) 100 2 1), .dispatch (.approveProposal .root 0),
        .nextBlock, .nextBlock]
    mockConfig.spendFunds = id ∧ (s.events.map Event.budgetIn).sum = 999 ∧
      (s.events.map Event.budgetIn).sum = (s.events.map Event.budgetOut).sum :=
  ⟨rfl, by decide, spending_eq_budgetOut rfl _ _⟩

end Treasury
