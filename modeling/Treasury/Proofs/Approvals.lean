-- SUMMARY: Every payment of spend_funds redeems one successful approval of its index, and with no counter wrap an index once vacated is never approved or paid again.
import Treasury.Proofs.Counters

/-!
# Approvals and payments

`approve_proposal(i)` appends `i` to `Approvals` when a proposal is stored at `i`, and the
retain loop of `spend_funds` drops each index it pays. So over any run, the `Awarded(i, ..)`
events plus the copies of `i` still queued never outnumber the successful calls
`approve_proposal(i)`: each payment redeems one approval, and no approval is redeemed twice.

Which proposal an approval pays is decided only at payment time, by the index. While the counters
do not wrap, an index that is vacant below `ProposalCount` stays vacant, so an approval given to a
rejected or fully paid proposal can no longer succeed or be redeemed. Once `ProposalCount` wraps,
a new proposal can land on that index and redeem the old approval.
-/

namespace Treasury

variable {cfg : Config}

/-- Whether an event reports a payment of the proposal at `i`. -/
def Event.awards (i : ProposalIndex) : Event → Bool
  | .awarded j _ _ => j == i
  | _ => false

/-- Whether the step `a`, taken from `s`, is a successful `approve_proposal(i)`. -/
def Action.approves (i : ProposalIndex) (s : State cfg) : Action → Bool
  | .dispatch (.approveProposal origin j) =>
    j == i &&
      match (approveProposal origin j).run s with
      | .ok _ _ => true
      | .error _ _ => false
  | _ => false

/-- The successful calls `approve_proposal(i)` of a run from `s`. -/
def approvalsGranted (i : ProposalIndex) : State cfg → List Action → Nat
  | _, [] => 0
  | s, a :: run => (a.approves i s).toNat + approvalsGranted i (step s a) run

/-- The payments a step makes: those of the spend cycle's walk when the step starts a spend
period, none otherwise. -/
def stepPaid (s : State cfg) : Action → List (ProposalIndex × Proposal)
  | .dispatch _ => []
  | .nextBlock =>
    if (s.blockNumber + 1) % cfg.spendPeriod = 0 then
      (({ s with blockNumber := s.blockNumber + 1 } : State cfg)).cycleWalk.paid
    else []

@[simp] theorem approvalsGranted_nil (i : ProposalIndex) (s : State cfg) :
    approvalsGranted i s [] = 0 := rfl
@[simp] theorem approvalsGranted_cons (i : ProposalIndex) (s : State cfg) (a : Action)
    (run : List Action) :
    approvalsGranted i s (a :: run) = (a.approves i s).toNat + approvalsGranted i (step s a) run :=
  rfl

@[simp] theorem awardedEvent_awards (i : ProposalIndex) (x : ProposalIndex × Proposal) :
    (awardedEvent x).awards i = (x.1 == i) := rfl

/-! ## Events that pay nothing -/

/-- `s'` logs after the events of `s` only events that report no payment. -/
def State.QuietAfter (s s' : State cfg) : Prop :=
  ∃ t : List Event, s'.events = s.events ++ t ∧ ∀ i, t.countP (Event.awards i) = 0

namespace State.QuietAfter

variable {s s' s'' : State cfg}

theorem refl (h : s'.events = s.events) : s.QuietAfter s' := ⟨[], by simp [h], fun _ => rfl⟩

theorem trans (h : s.QuietAfter s') (h' : s'.QuietAfter s'') : s.QuietAfter s'' := by
  obtain ⟨t, ht, hq⟩ := h
  obtain ⟨t', ht', hq'⟩ := h'
  exact ⟨t ++ t', by rw [ht', ht, List.append_assoc], fun i => by simp [hq, hq']⟩

theorem of_events_eq (h' : s'.QuietAfter s'') (h : s'.events = s.events) : s.QuietAfter s'' :=
  (refl h).trans h'

theorem countP_eq (h : s.QuietAfter s') (i : ProposalIndex) :
    s'.events.countP (Event.awards i) = s.events.countP (Event.awards i) := by
  obtain ⟨t, ht, hq⟩ := h
  rw [ht, List.countP_append, hq, Nat.add_zero]

theorem mem_events (h : s.QuietAfter s') {e : Event} (he : e ∈ s.events) : e ∈ s'.events := by
  obtain ⟨t, ht, -⟩ := h
  exact ht ▸ List.mem_append_left t he

end State.QuietAfter

section

variable (s : State cfg)

theorem State.quietAfter_depositEvent (e : Event) (he : ∀ i, e.awards i = false) :
    s.QuietAfter (s.depositEvent e) :=
  ⟨[e], rfl, fun i => by simp [he i]⟩

theorem State.quietAfter_onUnbalanced (k : Sink) (a : Nat) : s.QuietAfter (s.onUnbalanced k a) := by
  unfold State.onUnbalanced
  split
  · exact .refl rfl
  · split
    · exact .refl rfl
    · exact State.quietAfter_depositEvent _ _ fun _ => rfl

theorem quietAfter_burnSurplus (c : Cycle) : s.QuietAfter (burnSurplus s c).1 := by
  unfold burnSurplus
  split
  · exact (s.quietAfter_onUnbalanced _ _).trans (State.quietAfter_depositEvent _ _ fun _ => rfl)
  · exact .refl rfl

theorem quietAfter_foldl_promoteOne (w : ProposalIndex) (l : List Nat) :
    s.QuietAfter (l.foldl (fun s i => promoteOne w s (UInt32.ofNat i)) s) := by
  induction l generalizing s with
  | nil => exact .refl rfl
  | cons k l ih =>
    refine State.QuietAfter.trans ⟨_, promoteOne_events w s _, fun _ => rfl⟩ (ih _)

/-- The spend cycle logs `Spending`, then one `Awarded` for each payment of its walk, then only
events that report no payment. -/
theorem spendFunds_events :
    ∃ t : List Event,
      (spendFunds s).1.events = s.events ++ .spending (pot s) :: s.cycleWalk.paid.map awardedEvent ++ t ∧
      ∀ i, t.countP (Event.awards i) = 0 := by
  have hd := (disburse_eq (s.depositEvent (.spending (pot s))) ⟨pot s, 0, 0, false⟩)
  have h₁ : (disburse (s.depositEvent (.spending (pot s))) ⟨pot s, 0, 0, false⟩).1.QuietAfter
      (spendFunds s).1 :=
    ((quietAfter_burnSurplus _ _).trans (.refl (State.settleImbalance_events _ _))).trans
      ((quietAfter_foldl_promoteOne _ _ _).trans (State.quietAfter_depositEvent _ _ fun _ => rfl))
  obtain ⟨t, ht, hq⟩ := h₁
  refine ⟨t, ?_, hq⟩
  rw [ht, hd]
  simp

/-- At the start of a spend period, a proposal at the head of `Approvals` that the pot covers is
paid. -/
theorem step_nextBlock_awards {i : ProposalIndex} {q : List ProposalIndex} {p : Proposal}
    (hspend : (s.blockNumber + 1) % cfg.spendPeriod = 0) (hq : s.approvals.toList = i :: q)
    (hp : s.proposals.items i = some p) (hv : p.value ≤ pot s) :
    awardedEvent (i, p) ∈ (step s .nextBlock).events := by
  rw [step_nextBlock_of_spend s hspend]
  obtain ⟨t, ht, -⟩ := spendFunds_events { s with blockNumber := s.blockNumber + 1 }
  have hv' : p.value ≤ pot { s with blockNumber := s.blockNumber + 1 } := hv
  rw [ht]
  simp only [State.cycleWalk, hq, firstFit_cons_pay _ _ _ _ hp hv']
  simp

end

/-! ## One step -/

section

variable (s : State cfg) (i : ProposalIndex)

/-- A call logs no payment. -/
theorem step_dispatch_quietAfter (call : Call) : s.QuietAfter (step s (.dispatch call)) := by
  cases call with
  | proposeSpend origin value beneficiary chunks =>
    rcases step_proposeSpend s origin value beneficiary chunks with h | ⟨ledger, p, -, -, -, -, -, h⟩
    · exact .refl (by rw [h])
    · rw [h]
      exact (State.QuietAfter.refl (by simp)).trans
        (State.quietAfter_depositEvent _ _ fun _ => by split <;> rfl)
  | rejectProposal origin j =>
    rcases step_rejectProposal s origin j with h | ⟨p, -, h⟩
    · exact .refl (by rw [h])
    · rw [h]
      refine State.QuietAfter.trans ?_ (State.quietAfter_depositEvent _ _ fun _ => rfl)
      exact (State.quietAfter_onUnbalanced _ _ _).of_events_eq rfl
  | approveProposal origin j =>
    rcases step_approveProposal s origin j with h | ⟨approvals, -, -, -, h⟩
    · exact .refl (by rw [h])
    · exact .refl (by rw [h])

/-- The payments a step logs are those of `stepPaid`. -/
theorem step_awards (a : Action) :
    (step s a).events.countP (Event.awards i) =
      s.events.countP (Event.awards i) + (stepPaid s a).countP (fun x => x.1 == i) := by
  cases a with
  | dispatch call => simp [stepPaid, (step_dispatch_quietAfter s call).countP_eq]
  | nextBlock =>
    rw [step_nextBlock]
    simp only [stepPaid]
    split
    · obtain ⟨t, ht, hq⟩ := spendFunds_events { s with blockNumber := s.blockNumber + 1 }
      rw [ht]
      simp [List.countP_cons, Event.awards, awardedEvent, hq, List.countP_map, Function.comp_def]
    · simp

/-- A step queues one more copy of `i` only by approving `i`, and each payment at `i` takes one
copy out of the queue. -/
theorem step_approvals_count (a : Action) :
    (step s a).approvals.toList.count i + (stepPaid s a).countP (fun x => x.1 == i) ≤
      s.approvals.toList.count i + (a.approves i s).toNat := by
  cases a with
  | dispatch call =>
    cases call with
    | proposeSpend origin value beneficiary chunks =>
      rcases step_proposeSpend s origin value beneficiary chunks with h | ⟨ledger, p, -, -, -, -, -, h⟩
      all_goals simp [h, stepPaid, Action.approves]
    | rejectProposal origin j =>
      rcases step_rejectProposal s origin j with h | ⟨p, -, h⟩
      all_goals simp [h, stepPaid, Action.approves]
    | approveProposal origin j =>
      rcases step_approveProposal s origin j with h | ⟨approvals, -, ha, hrun, h⟩
      · simp [h, stepPaid]
      · simp only [h, stepPaid, List.countP_nil, Nat.add_zero, Action.approves, hrun,
          Bool.and_true, BoundedVec.tryAppend_eq_some ha, List.count_append, List.count_singleton]
        by_cases hj : j = i <;> simp [hj]
  | nextBlock =>
    rw [step_nextBlock]
    simp only [stepPaid, Action.approves, Bool.toNat_false, Nat.add_zero]
    split
    · rw [spendFunds_approvals]
      exact firstFit_count_le _ _ _ _
    · simp

/-- A step from a state with no proposal at `i` approves nothing at `i` and pays nothing at
`i`. -/
theorem step_of_items_none (hi : s.proposals.items i = none) (a : Action) :
    a.approves i s = false ∧ (stepPaid s a).countP (fun x => x.1 == i) = 0 := by
  cases a with
  | dispatch call =>
    refine ⟨?_, rfl⟩
    cases call with
    | approveProposal origin j =>
      simp only [Action.approves, Bool.and_eq_false_imp, beq_iff_eq]
      rintro rfl
      rw [approveProposal_run]
      by_cases ho : cfg.approveOrigin origin <;> simp [ho, hi]
    | _ => rfl
  | nextBlock =>
    refine ⟨rfl, ?_⟩
    simp only [stepPaid]
    split
    · exact firstFit_paid_of_none _ _ _ hi
    · rfl

end

/-! ## Runs -/

/-- Over any run, the payments at `i` and the copies of `i` left in the queue are at most the
copies of `i` queued at the start and the successful calls `approve_proposal(i)`. -/
theorem exec_awards_le (s : State cfg) (run : List Action) (i : ProposalIndex) :
    (exec s run).events.countP (Event.awards i) + (exec s run).approvals.toList.count i ≤
      s.events.countP (Event.awards i) + s.approvals.toList.count i + approvalsGranted i s run := by
  induction run generalizing s with
  | nil => simp
  | cons a run ih =>
    have h₁ := step_awards s i a
    have h₂ := step_approvals_count s i a
    have h₃ := ih (step s a)
    simp only [exec_cons, approvalsGranted_cons]
    omega

/-- From a state whose keys lie below the counters, with no proposal at `i` below
`ProposalCount`, a run whose counters do not wrap leaves `i` vacant, approves nothing at `i` and
pays nothing at `i`. -/
theorem exec_of_items_none {s : State cfg} (hs : s.Wf) {run : List Action}
    (hrun : NoOverflow s run) {i : ProposalIndex} (hi : s.proposals.items i = none)
    (hlt : i.toNat < s.proposals.count.toNat) :
    (exec s run).proposals.items i = none ∧ approvalsGranted i s run = 0 ∧
      (exec s run).events.countP (Event.awards i) = s.events.countP (Event.awards i) := by
  induction run generalizing s with
  | nil => simp [hi]
  | cons a run ih =>
    have hk := stepKeeps s hs a hrun.1
    obtain ⟨ha, hp⟩ := step_of_items_none s i hi a
    obtain ⟨h₁, h₂, h₃⟩ := ih hk.wf hrun.2 (hk.proposals.items_eq_none hi hlt)
      (Nat.lt_of_lt_of_le hlt hk.count_le)
    refine ⟨h₁, by simp [ha, h₂], ?_⟩
    rw [exec_cons, h₃, step_awards, hp, Nat.add_zero]

/-- Every payment at `i` redeems one successful `approve_proposal(i)`: over any run from genesis
the `Awarded(i, ..)` events and the copies of `i` left in `Approvals` are at most the successful
calls `approve_proposal(i)`. When the counters do not wrap, once `i` is vacant below
`ProposalCount` it stays vacant: no later `approve_proposal(i)` succeeds and no later payment is
made at `i`, so an approval given to a rejected or fully paid proposal is never redeemed. -/
theorem approvals_bound_awards (l : Ledger) (run₁ run₂ : List Action) (i : ProposalIndex) :
    let s := exec (genesis cfg l) run₁
    let s' := exec s run₂
    s'.events.countP (Event.awards i) + s'.approvals.toList.count i ≤
      approvalsGranted i (genesis cfg l) (run₁ ++ run₂) ∧
    (NoOverflow (genesis cfg l) (run₁ ++ run₂) → s.proposals.items i = none →
      i.toNat < s.proposals.count.toNat →
      s'.proposals.items i = none ∧ approvalsGranted i s run₂ = 0 ∧
        s'.events.countP (Event.awards i) = s.events.countP (Event.awards i)) := by
  refine ⟨?_, fun hrun hi hlt => ?_⟩
  · have h := exec_awards_le (genesis cfg l) (run₁ ++ run₂) i
    rw [exec_append] at h
    simpa [genesis] using h
  · rw [noOverflow_append] at hrun
    exact exec_of_items_none (exec_wf (genesis_wf l) hrun.1) hrun.2 hi hlt

/-- Proposal `0` is approved, then rejected: index `0` is vacant below `ProposalCount = 1`, a
second approval fails, and the spend of block `2` drops the stale entry. -/
theorem approvals_bound_awards_mock :
    let run₁ := [Action.dispatch (.proposeSpend (.signed 1) 100 2 1),
      .dispatch (.approveProposal .root 0), .dispatch (.rejectProposal .root 0)]
    let run₂ := [Action.dispatch (.approveProposal .root 0), .nextBlock, .nextBlock]
    let s := exec (genesis mockConfig mockLedger) run₁
    let s' := exec s run₂
    NoOverflow (genesis mockConfig mockLedger) (run₁ ++ run₂) ∧ s.proposals.items 0 = none ∧
      (0 : ProposalIndex).toNat < s.proposals.count.toNat ∧
      s'.events.countP (Event.awards 0) + s'.approvals.toList.count 0 ≤
        approvalsGranted 0 (genesis mockConfig mockLedger) (run₁ ++ run₂) ∧
      s'.proposals.items 0 = none ∧ approvalsGranted 0 s run₂ = 0 ∧
      s'.events.countP (Event.awards 0) = s.events.countP (Event.awards 0) :=
  have hrun : NoOverflow (genesis mockConfig mockLedger)
      [.dispatch (.proposeSpend (.signed 1) 100 2 1), .dispatch (.approveProposal .root 0),
        .dispatch (.rejectProposal .root 0), .dispatch (.approveProposal .root 0), .nextBlock,
        .nextBlock] := by
    simp only [noOverflow_cons, noOverflow_nil, and_true]
    exact ⟨fun _ => by decide, trivial, trivial, trivial, fun h => absurd h (by decide),
      fun _ => by decide⟩
  have hi : (exec (genesis mockConfig mockLedger) [.dispatch (.proposeSpend (.signed 1) 100 2 1),
      .dispatch (.approveProposal .root 0), .dispatch (.rejectProposal .root 0)]).proposals.items 0
      = none := by decide
  have hlt : (0 : ProposalIndex).toNat < (exec (genesis mockConfig mockLedger)
      [.dispatch (.proposeSpend (.signed 1) 100 2 1), .dispatch (.approveProposal .root 0),
        .dispatch (.rejectProposal .root 0)]).proposals.count.toNat := by decide
  have h := @approvals_bound_awards mockConfig mockLedger
    [.dispatch (.proposeSpend (.signed 1) 100 2 1), .dispatch (.approveProposal .root 0),
      .dispatch (.rejectProposal .root 0)]
    [.dispatch (.approveProposal .root 0), .nextBlock, .nextBlock] 0
  ⟨hrun, hi, hlt, h.1, h.2 hrun hi hlt⟩

/-- Once `ProposalCount` wraps, an approval outlives its proposal. Proposal `0` is approved and
rejected; after `2^32 - 1` further proposals the counter is back at `0`, the next proposal lands
at the vacant index `0`, and the spend of block `2` pays it on the old approval, though no
`approve_proposal(0)` succeeded while it was stored. -/
theorem approval_redeemed_after_wrap_mock :
    let s₀ := exec (genesis mockConfig richLedger)
      [.dispatch (.proposeSpend (.signed 1) 0 2 1), .dispatch (.approveProposal .root 0),
        .dispatch (.rejectProposal .root 0)]
    let s₁ := exec s₀ (List.replicate (2 ^ 32 - 1) (.dispatch (.proposeSpend (.signed 1) 0 2 1)))
    let run := [Action.dispatch (.proposeSpend (.signed 1) 100 3 1), .nextBlock, .nextBlock]
    s₀.proposals.items 0 = none ∧ s₀.approvals.toList = [0] ∧ approvalsGranted 0 s₁ run = 0 ∧
      Event.awarded 0 100 3 ∈ (exec s₁ run).events := by
  -- unfold the `let`s, keeping the literal `replicate` folded
  dsimp only [-List.reduceReplicate]
  rw [show 2 ^ 32 - 1 = 2 ^ 32 - 2 + 1 from rfl, List.replicate_succ', exec_append]
  have hl : ∀ b, mockConfig.lookup b = some b := fun _ => rfl
  have h₀ :
      let s₀ := exec (genesis mockConfig richLedger)
        [.dispatch (.proposeSpend (.signed 1) 0 2 1), .dispatch (.approveProposal .root 0),
          .dispatch (.rejectProposal .root 0)]
      s₀.proposals.items 0 = none ∧ s₀.approvals.toList = [0] ∧ s₀.proposals.count = 1 ∧
        s₀.blockNumber = 0 ∧ s₀.ledger.free 1 = 2 ^ 33 - 1 ∧ s₀.ledger.free 0 = 2 ^ 33 := by
    decide
  obtain ⟨hi0, ha0, hc0, hb0, hf0, ht0⟩ := h₀
  generalize exec (genesis mockConfig richLedger) _ = s₀ at hi0 ha0 hc0 hb0 hf0 ht0 ⊢
  obtain ⟨h1, -, hb1, ha1, hf1, ht1⟩ := exec_replicate_proposeSpend s₀ (2 ^ 32 - 2) 1 0 1 (hl 2)
    (by rw [hf0]; decide)
  generalize exec s₀ (List.replicate (2 ^ 32 - 2) _) = s₁ at h1 hb1 ha1 hf1 ht1 ⊢
  obtain ⟨h2, -, hb2, ha2, hf2, ht2⟩ := exec_replicate_proposeSpend s₁ 1 1 0 1 (hl 2)
    (by rw [hf1, hf0]; decide)
  rw [List.replicate_one] at h2 hb2 ha2 hf2 ht2
  generalize exec s₁ [_] = s₂ at h2 hb2 ha2 hf2 ht2 ⊢
  refine ⟨hi0, ha0, by simp [Action.approves], ?_⟩
  obtain ⟨h3, -, hb3, ha3, -, ht3⟩ := exec_replicate_proposeSpend s₂ 1 1 100 1 (hl 3)
    (by rw [hf2, hf1, hf0]; decide)
  rw [List.replicate_one, exec_cons, exec_nil] at h3 hb3 ha3 ht3
  rw [exec_cons, exec_cons, exec_cons, exec_nil]
  generalize step s₂ _ = s₃ at h3 hb3 ha3 ht3 ⊢
  have hw : ∀ s : State mockConfig, s.blockNumber = 0 → s.inWaitingPeriod = false := by
    intro s h; simp [State.inWaitingPeriod, h, mockConfig]
  rw [hw s₀ hb0, State.registry_false, State.registry_false] at h1
  rw [hw s₁ (hb1.trans hb0), State.registry_false, State.registry_false] at h2
  rw [hw s₂ (hb2.trans (hb1.trans hb0)), State.registry_false, State.registry_false] at h3
  have hb : s₃.blockNumber = 0 := hb3.trans (hb2.trans (hb1.trans hb0))
  have hq : s₃.approvals.toList = [0] := by rw [ha3, ha2, ha1, ha0]
  have ht : s₃.ledger.free 0 = 2 ^ 33 := by
    rw [ht3 0 (by decide), ht2 0 (by decide), ht1 0 (by decide), ht0]
  have hc1 : s₁.proposals.count = 4294967295 := UInt32.toNat.inj <| by
    rw [h1, Registry.pushAll_count, hc0, List.length_replicate]; rfl
  have hp : s₃.proposals.items 0 = some ⟨1, 100, 3, 5, 1, 1⟩ := by
    rw [h3, h2]
    simp only [List.replicate_one, Registry.pushAll_cons, Registry.pushAll_nil, Registry.push_items,
      Registry.push_count, hc1]
    rfl
  have key : ∀ t : State mockConfig, t.blockNumber = 0 → t.approvals.toList = [0] →
      t.proposals.items 0 = some ⟨1, 100, 3, 5, 1, 1⟩ → t.ledger.free 0 = 2 ^ 33 →
      Event.awarded 0 100 3 ∈ (step (step t .nextBlock) .nextBlock).events := by
    intro t hb hq hp ht
    rw [step_nextBlock_of_not_spend t (by rw [hb]; decide)]
    exact step_nextBlock_awards { t with blockNumber := t.blockNumber + 1 }
      (by show (t.blockNumber + 1 + 1) % 2 = 0; rw [hb]) hq hp
      (show 100 ≤ t.ledger.free 0 - 1 by rw [ht]; decide)
  exact key s₃ hb hq hp ht

end Treasury
