-- SUMMARY: Every key stays below its counter and every insertion lands on a fresh key, in every run whose u32 counters do not wrap.
import Treasury.Proofs.Steps

/-!
# Counters and fresh keys

`ProposalCount` and `WaitingProposalCount` are `u32`s that `propose_spend` and the promotion
loop increment with an unchecked `+ 1`. While no increment starts from `u32::MAX`, every key of
`Proposals` lies below `ProposalCount` and every key of `WaitingProposals` below
`WaitingProposalCount` (`State.Wf`), so each insertion lands on an empty key: no stored proposal
is overwritten, `ProposalCount` never decreases, and no index of `Proposals` is used twice.

`Action.Fits` says that a step's increments do not overflow, and `NoOverflow` that no step of
a run does.
-/

namespace Treasury

variable {cfg : Config}

/-- The counters keep every key below them. -/
structure State.Wf (s : State cfg) : Prop where
  proposals : s.proposals.Bounded
  waitingProposals : s.waitingProposals.Bounded

/-- The unchecked `+ 1`s of a step stay below `2^32`: a successful `propose_spend` increments
the counter of the registry it writes, and the spend cycle increments `ProposalCount` once for
each waiting proposal. -/
def Action.Fits (s : State cfg) : Action → Prop
  | .dispatch (.proposeSpend origin value beneficiary chunks) =>
    (∃ s', (proposeSpend origin value beneficiary chunks).run s = .ok () s') →
      (s.registry s.inWaitingPeriod).count.toNat + 1 < 2 ^ 32
  | .dispatch _ => True
  | .nextBlock => (s.blockNumber + 1) % cfg.spendPeriod = 0 →
      s.proposals.count.toNat + s.waitingProposals.toList.length < 2 ^ 32

/-- No step of the run overflows a counter. -/
def NoOverflow : State cfg → List Action → Prop
  | _, [] => True
  | s, a :: run => a.Fits s ∧ NoOverflow (step s a) run

@[simp] theorem noOverflow_nil (s : State cfg) : NoOverflow s [] := trivial
@[simp] theorem noOverflow_cons (s : State cfg) (a : Action) (run : List Action) :
    NoOverflow s (a :: run) ↔ a.Fits s ∧ NoOverflow (step s a) run := Iff.rfl

theorem noOverflow_append (s : State cfg) (r₁ r₂ : List Action) :
    NoOverflow s (r₁ ++ r₂) ↔ NoOverflow s r₁ ∧ NoOverflow (exec s r₁) r₂ := by
  induction r₁ generalizing s with
  | nil => simp
  | cons a r₁ ih => simp only [List.cons_append, noOverflow_cons, ih, exec_cons, and_assoc]

/-! ## The walk keeps the keys -/

section

variable {r : Registry} (b : Nat) (q : List ProposalIndex)

theorem freshWrites_firstFit : r.FreshWrites (firstFit r b q).proposals :=
  fun _ _ hk => .inl (firstFit_items_some r b q hk)

theorem Registry.Bounded.firstFit (hr : r.Bounded) : (firstFit r b q).proposals.Bounded := by
  intro k hk
  obtain ⟨p, hp, -⟩ := firstFit_items_some r b q (Option.ne_none_iff_exists'.1 hk).choose_spec
  rw [firstFit_count]
  exact hr k (by simp [hp])

end

/-! ## One step -/

/-- What a step that does not overflow keeps: the keys stay below the counters,
`ProposalCount` does not decrease, and both maps only gain entries at fresh keys. -/
structure StepKeeps (s s' : State cfg) : Prop where
  wf : s'.Wf
  count_le : s.proposals.count.toNat ≤ s'.proposals.count.toNat
  proposals : s.proposals.FreshWrites s'.proposals
  waitingProposals : s.waitingProposals.FreshWrites s'.waitingProposals

theorem StepKeeps.refl {s : State cfg} (hs : s.Wf) : StepKeeps s s :=
  ⟨hs, Nat.le_refl _, .refl _, .refl _⟩

/-- A step keeps the counters when the two registries it leaves do. -/
theorem StepKeeps.of_registries {s s' : State cfg} {P W : Registry}
    (hp : s'.proposals = P) (hw : s'.waitingProposals = W) (hP : P.Bounded) (hW : W.Bounded)
    (hc : s.proposals.count.toNat ≤ P.count.toNat) (hfp : s.proposals.FreshWrites P)
    (hfw : s.waitingProposals.FreshWrites W) : StepKeeps s s' := by
  subst hp hw; exact ⟨⟨hP, hW⟩, hc, hfp, hfw⟩

section

variable (s : State cfg) (hs : s.Wf)
include hs

theorem stepKeeps_proposeSpend (origin : Origin) (value : Nat) (beneficiary : AccountId)
    (chunks : UInt32) (hfit : (Action.dispatch (.proposeSpend origin value beneficiary chunks)).Fits s) :
    StepKeeps s (step s (.dispatch (.proposeSpend origin value beneficiary chunks))) := by
  rcases step_proposeSpend s origin value beneficiary chunks with h | ⟨ledger, p, hok, -, -, -, -, h⟩
  · rw [h]; exact .refl hs
  · have hc := hfit ⟨_, hok⟩
    cases hw : s.inWaitingPeriod <;> simp only [hw, State.registry, if_false, if_true,
      Bool.false_eq_true] at hc
    · refine .of_registries (by rw [h]; simp [hw, State.registry, State.setRegistry])
        (by rw [h]; simp [hw, State.setRegistry]) (hs.proposals.push p hc) hs.waitingProposals
        (by rw [Registry.push_count, UInt32.toNat_add_one hc]; omega)
        (.push hs.proposals p hc) (.refl _)
    · refine .of_registries (by rw [h]; simp [hw, State.setRegistry])
        (by rw [h]; simp [hw, State.registry, State.setRegistry]) hs.proposals
        (hs.waitingProposals.push p hc) (Nat.le_refl _) (.refl _) (.push hs.waitingProposals p hc)

theorem stepKeeps_rejectProposal (origin : Origin) (i : ProposalIndex) :
    StepKeeps s (step s (.dispatch (.rejectProposal origin i))) := by
  rcases step_rejectProposal s origin i with h | ⟨p, -, h⟩
  · rw [h]; exact .refl hs
  · exact .of_registries (by rw [h]; simp) (by rw [h]; simp) (hs.proposals.remove i)
      hs.waitingProposals (Nat.le_refl _) (.remove _ _) (.refl _)

theorem stepKeeps_approveProposal (origin : Origin) (i : ProposalIndex) :
    StepKeeps s (step s (.dispatch (.approveProposal origin i))) := by
  rcases step_approveProposal s origin i with h | ⟨approvals, -, -, -, h⟩
  · rw [h]; exact .refl hs
  · rw [h]; exact ⟨⟨hs.proposals, hs.waitingProposals⟩, Nat.le_refl _, .refl _, .refl _⟩

theorem stepKeeps_spendFunds
    (hc : s.proposals.count.toNat + s.waitingProposals.toList.length < 2 ^ 32) :
    StepKeeps s (spendFunds s).1 := by
  obtain ⟨hp, hw, -, -⟩ := spendFunds_registries s hs.waitingProposals
  have hb := hs.proposals.firstFit (pot s) s.approvals.toList
  have hc' : s.cycleWalk.proposals.count.toNat + s.waitingProposals.toList.length < 2 ^ 32 := by
    rw [firstFit_count]; exact hc
  refine ⟨⟨?_, fun k hk => absurd (hw k) hk⟩, ?_, ?_, .of_empty _ hw⟩
  · rw [hp]; exact hb.pushAll _ hc'
  · rw [hp, Registry.pushAll_count, firstFit_count, Nat.mod_eq_of_lt hc]; omega
  · rw [hp]
    intro k p' hk
    rcases Registry.FreshWrites.pushAll hb _ hc' k p' hk with ⟨p₁, h₁, e₁⟩ | ⟨h₁, hle⟩
    · rcases freshWrites_firstFit (pot s) s.approvals.toList k p₁ h₁ with ⟨p, hp, e⟩ | h
      · exact .inl ⟨p, hp, by rw [← e₁, ← e]⟩
      · exact .inr h
    · rw [firstFit_count] at hle
      exact .inr ⟨hs.proposals.items_eq_none hle, hle⟩

end

/-- Every step that does not overflow keeps the counters. -/
theorem stepKeeps (s : State cfg) (hs : s.Wf) (a : Action) (ha : a.Fits s) :
    StepKeeps s (step s a) := by
  cases a with
  | dispatch call =>
    cases call with
    | proposeSpend origin value beneficiary chunks => exact stepKeeps_proposeSpend s hs _ _ _ _ ha
    | rejectProposal origin i => exact stepKeeps_rejectProposal s hs origin i
    | approveProposal origin i => exact stepKeeps_approveProposal s hs origin i
  | nextBlock =>
    have hs₁ : ({ s with blockNumber := s.blockNumber + 1 } : State cfg).Wf := ⟨hs.1, hs.2⟩
    rw [step_nextBlock]
    split
    · have h := stepKeeps_spendFunds _ hs₁ (ha ‹_›)
      exact ⟨h.wf, h.count_le, h.proposals, h.waitingProposals⟩
    · exact ⟨hs₁, Nat.le_refl _, .refl _, .refl _⟩

theorem genesis_wf (l : Ledger) : (genesis cfg l).Wf :=
  ⟨fun _ h => absurd rfl h, fun _ h => absurd rfl h⟩

/-- Every run that does not overflow keeps the counters. -/
theorem exec_wf {s : State cfg} (hs : s.Wf) {run : List Action} (hrun : NoOverflow s run) :
    (exec s run).Wf := by
  induction run generalizing s with
  | nil => exact hs
  | cons a run ih => exact ih (stepKeeps s hs a hrun.1).wf hrun.2

/-- In every state reached from genesis by a run whose `u32` counters never wrap, every key of
`Proposals` is below `ProposalCount` and every key of `WaitingProposals` below
`WaitingProposalCount`. A further step that does not wrap a counter does not decrease
`ProposalCount`, and writes new proposals only to empty keys at or above the counters: a stored
proposal is never overwritten (at most its `remaining_occurs` changes), and an empty key below
`ProposalCount` stays empty, so no index of `Proposals` is used twice. -/
theorem counters_bound_keys (l : Ledger) (run : List Action) (a : Action)
    (hrun : NoOverflow (genesis cfg l) run) (ha : a.Fits (exec (genesis cfg l) run)) :
    let s := exec (genesis cfg l) run
    let s' := step s a
    (∀ k, s.proposals.items k ≠ none → k.toNat < s.proposals.count.toNat) ∧
    (∀ k, s.waitingProposals.items k ≠ none → k.toNat < s.waitingProposals.count.toNat) ∧
    s.proposals.count.toNat ≤ s'.proposals.count.toNat ∧
    s.proposals.FreshWrites s'.proposals ∧ s.waitingProposals.FreshWrites s'.waitingProposals ∧
    (∀ k, k.toNat < s.proposals.count.toNat → s.proposals.items k = none →
      s'.proposals.items k = none) := by
  have hs := exec_wf (genesis_wf l) hrun
  have hk := stepKeeps _ hs a ha
  exact ⟨hs.proposals, hs.waitingProposals, hk.count_le, hk.proposals, hk.waitingProposals,
    fun k hlt hn => hk.proposals.items_eq_none hn hlt⟩

/-- Two proposals made in the waiting window of block `1`, promoted by the spend cycle of block
`2`, which leaves `WaitingProposalCount` at `1`, and a third made in the waiting window of block
`3`: no counter of this run comes near `2^32`. -/
theorem noOverflow_waiting_mock :
    NoOverflow (genesis mockConfig mockLedger)
      [.nextBlock, .dispatch (.proposeSpend (.signed 1) 100 2 1),
        .dispatch (.proposeSpend (.signed 1) 100 2 1), .nextBlock, .nextBlock,
        .dispatch (.proposeSpend (.signed 1) 100 2 1)] := by
  simp only [noOverflow_cons, noOverflow_nil, and_true]
  exact ⟨fun _ => by decide, fun _ => by decide, fun _ => by decide, fun _ => by decide,
    fun _ => by decide, fun _ => by decide⟩

/-- The spend cycle of block `4` after the run above. -/
theorem counters_bound_keys_mock :
    let run := [Action.nextBlock, .dispatch (.proposeSpend (.signed 1) 100 2 1),
      .dispatch (.proposeSpend (.signed 1) 100 2 1), .nextBlock, .nextBlock,
      .dispatch (.proposeSpend (.signed 1) 100 2 1)]
    let s := exec (genesis mockConfig mockLedger) run
    let s' := step s .nextBlock
    NoOverflow (genesis mockConfig mockLedger) run ∧ Action.nextBlock.Fits s ∧
    (∀ k, s.proposals.items k ≠ none → k.toNat < s.proposals.count.toNat) ∧
    (∀ k, s.waitingProposals.items k ≠ none → k.toNat < s.waitingProposals.count.toNat) ∧
    s.proposals.count.toNat ≤ s'.proposals.count.toNat ∧
    s.proposals.FreshWrites s'.proposals ∧ s.waitingProposals.FreshWrites s'.waitingProposals ∧
    (∀ k, k.toNat < s.proposals.count.toNat → s.proposals.items k = none →
      s'.proposals.items k = none) :=
  have ha : Action.nextBlock.Fits (exec (genesis mockConfig mockLedger)
      [.nextBlock, .dispatch (.proposeSpend (.signed 1) 100 2 1),
        .dispatch (.proposeSpend (.signed 1) 100 2 1), .nextBlock, .nextBlock,
        .dispatch (.proposeSpend (.signed 1) 100 2 1)]) := fun _ => by decide
  ⟨noOverflow_waiting_mock, ha, counters_bound_keys mockLedger _ _ noOverflow_waiting_mock ha⟩

/-- Once `ProposalCount` wraps the bound fails. After `2^32 - 1` proposals the counter is at
`u32::MAX`; the next proposal wraps it to `0`, below the live keys `0` and `4294967295`, and the
proposal after that overwrites the live proposal at key `0`, whose bond stays reserved. -/
theorem proposalCount_wraps_mock :
    let s₀ := exec (genesis mockConfig richLedger)
      (List.replicate (2 ^ 32 - 1) (.dispatch (.proposeSpend (.signed 1) 0 2 1)))
    let s₁ := exec s₀ [.dispatch (.proposeSpend (.signed 1) 0 2 1)]
    let s₂ := exec s₁ [.dispatch (.proposeSpend (.signed 1) 100 2 1)]
    s₀.proposals.count = 4294967295 ∧ s₁.proposals.count = 0 ∧
      s₁.proposals.items 0 = some ⟨1, 0, 2, 1, 1, 1⟩ ∧
      s₂.proposals.items 0 = some ⟨1, 100, 2, 5, 1, 1⟩ := by
  have hl : mockConfig.lookup 2 = some 2 := rfl
  obtain ⟨h0, -, hb0, -, hf0, -⟩ := exec_replicate_proposeSpend (genesis mockConfig richLedger)
    (2 ^ 32 - 1) 1 0 1 hl (by decide)
  generalize exec (genesis mockConfig richLedger) _ = s₀ at h0 hb0 hf0 ⊢
  dsimp only
  obtain ⟨h1, -, hb1, -, hf1, -⟩ := exec_replicate_proposeSpend s₀ 1 1 0 1 hl (by rw [hf0]; decide)
  rw [List.replicate_one] at h1 hb1 hf1
  generalize exec s₀ _ = s₁ at h1 hb1 hf1 ⊢
  obtain ⟨h2, -⟩ := exec_replicate_proposeSpend s₁ 1 1 100 1 hl (by rw [hf1, hf0]; decide)
  rw [List.replicate_one] at h2
  generalize exec s₁ _ = s₂ at h2 ⊢
  have hw : s₀.inWaitingPeriod = false := by rw [State.inWaitingPeriod_congr hb0]; rfl
  have hw1 : s₁.inWaitingPeriod = false := by rw [State.inWaitingPeriod_congr hb1, hw]
  rw [show (genesis mockConfig richLedger).inWaitingPeriod = false from rfl,
    State.registry_false, State.registry_false, genesis_proposals,
    show chunkOf 0 1 = 0 from rfl, show calculateBond mockConfig 0 = 1 from rfl] at h0
  rw [hw, State.registry_false, State.registry_false] at h1
  rw [hw1, State.registry_false, State.registry_false] at h2
  simp only [List.replicate_one, Registry.pushAll_cons, Registry.pushAll_nil] at h1 h2
  obtain ⟨hc0, hi0⟩ := Registry.pushAll_replicate_empty ⟨1, 0, 2, 1, 1, 1⟩
    (by decide : 2 ^ 32 - 1 < 2 ^ 32)
  rw [← h0] at hc0 hi0
  replace hc0 : s₀.proposals.count = 4294967295 := UInt32.toNat.inj hc0
  refine ⟨hc0, by rw [h1, Registry.push_count, hc0]; rfl, ?_, ?_⟩
  · rw [h1, Registry.push_items, hc0, if_neg (by decide), hi0 0 (by decide)]
  · rw [h2, Registry.push_items, h1, Registry.push_count, hc0]; rfl

/-! ## Promotion -/

/-- From a state whose keys lie below the counters, a spend cycle that does not wrap
`ProposalCount` moves every waiting proposal, in key order, to the keys from `ProposalCount`
on, each empty before, and empties `WaitingProposals`. -/
theorem step_nextBlock_promotes (s : State cfg) (hs : s.Wf)
    (hspend : (s.blockNumber + 1) % cfg.spendPeriod = 0)
    (hc : s.proposals.count.toNat + s.waitingProposals.toList.length < 2 ^ 32) :
    (∀ k, (step s .nextBlock).waitingProposals.items k = none) ∧
    (step s .nextBlock).proposals.count.toNat =
      s.proposals.count.toNat + s.waitingProposals.toList.length ∧
    ∀ j (hj : j < s.waitingProposals.toList.length),
      s.proposals.items (s.proposals.count + UInt32.ofNat j) = none ∧
      (step s .nextBlock).proposals.items (s.proposals.count + UInt32.ofNat j) =
        some s.waitingProposals.toList[j] := by
  rw [step_nextBlock, if_pos hspend]
  obtain ⟨hp, hw, -, -⟩ := spendFunds_registries { s with blockNumber := s.blockNumber + 1 }
    hs.waitingProposals
  have hb := hs.proposals.firstFit (pot ({ s with blockNumber := s.blockNumber + 1 } : State cfg))
    s.approvals.toList
  rw [hp]
  refine ⟨hw, by rw [Registry.pushAll_count, firstFit_count, Nat.mod_eq_of_lt hc], fun j hj => ?_⟩
  have h := Registry.pushAll_items_add hb _ (by rw [firstFit_count]; exact hc) hj
  rw [firstFit_count] at h
  exact ⟨hs.proposals.items_eq_none
    (by rw [UInt32.toNat_add_of_lt] <;> rw [UInt32.toNat_ofNat_of_lt (show _ < 2 ^ 32 by omega)] <;> omega), h.2⟩

/-- In every state reached from genesis by a run whose counters never wrap, when the next block
runs the spend cycle and its promotion does not wrap `ProposalCount`, the promotion loop moves
every waiting proposal, unchanged, to `Proposals`: the waiting proposals in increasing key order
land at the consecutive keys `ProposalCount`, `ProposalCount + 1`, ..., each of them empty
before, `ProposalCount` grows by exactly their number, and `WaitingProposals` is left empty. -/
theorem promotion_moves_waiting (l : Ledger) (run : List Action)
    (hrun : NoOverflow (genesis cfg l) run) (ha : Action.nextBlock.Fits (exec (genesis cfg l) run))
    (hspend : ((exec (genesis cfg l) run).blockNumber + 1) % cfg.spendPeriod = 0) :
    let s := exec (genesis cfg l) run
    let s' := step s .nextBlock
    let ws := s.waitingProposals.toList
    (∀ k p, s.waitingProposals.items k = some p → p ∈ ws) ∧
    (∀ k, s'.waitingProposals.items k = none) ∧
    s'.proposals.count.toNat = s.proposals.count.toNat + ws.length ∧
    ∀ j (hj : j < ws.length),
      s.proposals.items (s.proposals.count + UInt32.ofNat j) = none ∧
      s'.proposals.items (s.proposals.count + UInt32.ofNat j) = some ws[j] := by
  have hs := exec_wf (genesis_wf l) hrun
  exact ⟨fun _ _ hk => hs.waitingProposals.mem_toList hk,
    step_nextBlock_promotes _ hs hspend (ha hspend)⟩


/-- Two waiting proposals of block `1` are promoted at block `2`, which leaves
`WaitingProposalCount` at `1`, not `0`; the proposal made at block `3` then waits at key `1`,
with key `0` empty, and the spend cycle of block `4` still moves it to the first free key of
`Proposals`, key `2`. -/
theorem promotion_moves_waiting_mock :
    let run := [Action.nextBlock, .dispatch (.proposeSpend (.signed 1) 100 2 1),
      .dispatch (.proposeSpend (.signed 1) 100 2 1), .nextBlock, .nextBlock,
      .dispatch (.proposeSpend (.signed 1) 100 2 1)]
    let s := exec (genesis mockConfig mockLedger) run
    let s' := step s .nextBlock
    let ws := s.waitingProposals.toList
    (exec (genesis mockConfig mockLedger) (run.take 4)).waitingProposals.count = 1 ∧
    s.waitingProposals.count = 2 ∧ s.waitingProposals.items 0 = none ∧
    ws = [⟨1, 100, 2, 5, 1, 1⟩] ∧ s.proposals.count = 2 ∧
    NoOverflow (genesis mockConfig mockLedger) run ∧ Action.nextBlock.Fits s ∧
    (s.blockNumber + 1) % mockConfig.spendPeriod = 0 ∧
    (∀ k p, s.waitingProposals.items k = some p → p ∈ ws) ∧
    (∀ k, s'.waitingProposals.items k = none) ∧
    s'.proposals.count.toNat = s.proposals.count.toNat + ws.length ∧
    ∀ j (hj : j < ws.length),
      s.proposals.items (s.proposals.count + UInt32.ofNat j) = none ∧
      s'.proposals.items (s.proposals.count + UInt32.ofNat j) = some ws[j] :=
  have ha : Action.nextBlock.Fits (exec (genesis mockConfig mockLedger)
      [.nextBlock, .dispatch (.proposeSpend (.signed 1) 100 2 1),
        .dispatch (.proposeSpend (.signed 1) 100 2 1), .nextBlock, .nextBlock,
        .dispatch (.proposeSpend (.signed 1) 100 2 1)]) := fun _ => by decide
  ⟨by decide, by decide, by decide, by decide, by decide, noOverflow_waiting_mock, ha, by decide,
    promotion_moves_waiting mockLedger _ noOverflow_waiting_mock ha (by decide)⟩

/-- Once `WaitingProposalCount` wraps the promotion fails. `2^32` proposals made in the waiting
window of block `1` leave the counter at `0` with every key filled, and the spend cycle of block
`2` walks no key: the waiting proposals stay in `WaitingProposals`. -/
theorem waitingProposalCount_wraps_mock :
    let s₀ := exec (genesis mockConfig richLedger)
      (.nextBlock :: List.replicate (2 ^ 32 - 1) (.dispatch (.proposeSpend (.signed 1) 0 2 1)))
    let s₁ := exec s₀ [.dispatch (.proposeSpend (.signed 1) 0 2 1)]
    let s₂ := step s₁ .nextBlock
    s₁.waitingProposals.count = 0 ∧ s₁.waitingProposals.items 0 = some ⟨1, 0, 2, 1, 1, 1⟩ ∧
      (s₁.blockNumber + 1) % mockConfig.spendPeriod = 0 ∧
      s₂.waitingProposals.items 0 = some ⟨1, 0, 2, 1, 1, 1⟩ := by
  have hl : mockConfig.lookup 2 = some 2 := rfl
  rw [exec_cons]
  obtain ⟨h0, -, hb0, -, hf0, -⟩ := exec_replicate_proposeSpend
    (step (genesis mockConfig richLedger) .nextBlock) (2 ^ 32 - 1) 1 0 1 hl (by decide)
  generalize exec (step (genesis mockConfig richLedger) .nextBlock) _ = s₀ at h0 hb0 hf0 ⊢
  dsimp only
  obtain ⟨h1, -, hb1, -, -, -⟩ := exec_replicate_proposeSpend s₀ 1 1 0 1 hl (by rw [hf0]; decide)
  rw [List.replicate_one] at h1 hb1
  generalize exec s₀ _ = s₁ at h1 hb1 ⊢
  have hw : s₀.inWaitingPeriod = true := by rw [State.inWaitingPeriod_congr hb0]; rfl
  rw [show (step (genesis mockConfig richLedger) .nextBlock).inWaitingPeriod = true from rfl,
    State.registry_true, State.registry_true,
    show (step (genesis mockConfig richLedger) .nextBlock).waitingProposals = .empty from rfl,
    show chunkOf 0 1 = 0 from rfl, show calculateBond mockConfig 0 = 1 from rfl] at h0
  rw [hw, State.registry_true, State.registry_true, List.replicate_one, Registry.pushAll_cons,
    Registry.pushAll_nil] at h1
  obtain ⟨hc0, hi0⟩ := Registry.pushAll_replicate_empty ⟨1, 0, 2, 1, 1, 1⟩
    (by decide : 2 ^ 32 - 1 < 2 ^ 32)
  rw [← h0] at hc0 hi0
  replace hc0 : s₀.waitingProposals.count = 4294967295 := UInt32.toNat.inj hc0
  have hc1 : s₁.waitingProposals.count = 0 := by rw [h1, Registry.push_count, hc0]; rfl
  have hi1 : s₁.waitingProposals.items 0 = some ⟨1, 0, 2, 1, 1, 1⟩ := by
    rw [h1, Registry.push_items, hc0, if_neg (by decide), hi0 0 (by decide)]
  have hspend : (s₁.blockNumber + 1) % mockConfig.spendPeriod = 0 := by rw [hb1, hb0]; rfl
  refine ⟨hc1, hi1, hspend, ?_⟩
  rw [step_nextBlock_waitingProposals_of_count_zero s₁ hc1, hi1]

end Treasury
