-- SUMMARY: Every reserved balance is what the account held at genesis plus the bonds of its stored proposals, in every run of single-chunk proposals whose counters do not wrap.
import Treasury.Proofs.Occurrences

/-!
# Bonds

`propose_spend` reserves the bond from the proposer, `reject_proposal` slashes it, and each
payment of `spend_funds` unreserves it; nothing else of the pallet touches a reserved balance.
The bond is meant to back the proposal for as long as it is stored. A payment releases the
whole bond even when occurrences remain, so that holds only for proposals paid once: in a run
whose proposals all ask for one chunk and whose `u32` counters never wrap, every account's
reserved balance is what it held at genesis plus the bonds of its proposals stored in
`Proposals` and `WaitingProposals` (`State.BondsHeld`). A rejection then slashes exactly the
bond, and a payment returns exactly the bond.

The proof carries three facts over each step: the keys stay below the counters (`State.Wf`),
every stored proposal has one occurrence left, and the balance equation. Each write changes the
two sides of the equation by the same amount: the sums over the registries are `Registry.total`
with the weight `Proposal.bondOf`.
-/

namespace Treasury

variable {cfg : Config}

/-- The bond of `p` when `a` proposed it, and `0` otherwise. -/
def Proposal.bondOf (a : AccountId) (p : Proposal) : Nat := if p.proposer = a then p.bond else 0

/-- The bonds of the proposals of `a` stored in either registry of `s`. -/
def State.heldBonds (s : State cfg) (a : AccountId) : Nat :=
  s.proposals.total (Proposal.bondOf a) + s.waitingProposals.total (Proposal.bondOf a)

/-- Every account's reserved balance is `r₀` plus the bonds of its stored proposals. -/
def State.BondsHeld (r₀ : AccountId → Nat) (s : State cfg) : Prop :=
  ∀ a, s.ledger.reserved a = r₀ a + s.heldBonds a

/-- A stored proposal has one occurrence left. -/
def Proposal.LastOccurrence (p : Proposal) : Prop := p.remainingOccurs = 1

/-! ## Reserved balances through the ledger writes -/

section

variable (s : State cfg)

@[simp] theorem State.onUnbalanced_reserved (k : Sink) (amount : Nat) :
    (s.onUnbalanced k amount).ledger.reserved = s.ledger.reserved := by
  unfold State.onUnbalanced
  split
  · rfl
  · split
    · rfl
    · simp

@[simp] theorem State.settleImbalance_reserved (amount : Nat) :
    (s.settleImbalance amount).ledger.reserved = s.ledger.reserved := by
  unfold State.settleImbalance Ledger.settle
  split
  · rename_i h
    split at h <;> cases h
    rfl
  · rfl

@[simp] theorem burnSurplus_reserved (c : Cycle) :
    (burnSurplus s c).1.ledger.reserved = s.ledger.reserved := by
  unfold burnSurplus; split <;> simp

/-- The spend cycle changes reserved balances only through the payments of its walk. -/
theorem spendFunds_reserved :
    (spendFunds s).1.ledger.reserved =
      (payAll cfg.minimumBalance (s.ledger, 0) s.cycleWalk.paid).1.reserved := by
  rw [spendFunds_fst]
  simp [(foldl_promoteOne _ _ _ (Nat.le_refl _)).2.2.2.2.1, promoteWaiting, payout, disburse_eq]

end

/-! ## One bond on the ledger -/

namespace Ledger

variable (l : Ledger) {p : Proposal} (a : AccountId)

theorem reserve_bondOf {l' : Ledger} (h : l.reserve p.proposer p.bond = some l') :
    l'.reserved a = l.reserved a + p.bondOf a := by
  obtain ⟨-, -, h'⟩ := l.reserve_eq_some p.proposer a p.bond h
  rw [h', Proposal.bondOf]
  by_cases ha : a = p.proposer
  · subst ha; simp
  · simp [ha, Ne.symm ha]

variable {l} (h : p.bond ≤ l.reserved p.proposer)
include h

theorem unreserve_bondOf : (l.unreserve p.proposer p.bond).1.reserved a + p.bondOf a = l.reserved a := by
  rw [unreserve_reserved, Proposal.bondOf]
  by_cases ha : a = p.proposer
  · subst ha; rw [if_pos rfl, if_pos rfl, Nat.min_eq_left h]; omega
  · simp [ha, Ne.symm ha]

theorem slashReserved_bondOf :
    (l.slashReserved p.proposer p.bond).1.reserved a + p.bondOf a = l.reserved a := by
  rw [slashReserved_reserved, Proposal.bondOf]
  by_cases ha : a = p.proposer
  · subst ha; rw [if_pos rfl, if_pos rfl, Nat.min_eq_left h]; omega
  · simp [ha, Ne.symm ha]

end Ledger

/-- Paying `paid` unreserves the bonds of `a` among them, when every account has that much
reserved. -/
theorem payAll_reserved (m : Nat) (l : Ledger) (x : Nat) (paid : List (ProposalIndex × Proposal))
    (h : ∀ a, (paid.map fun y => y.2.bondOf a).sum ≤ l.reserved a) (a : AccountId) :
    (payAll m (l, x) paid).1.reserved a + (paid.map fun y => y.2.bondOf a).sum = l.reserved a := by
  induction paid generalizing l x with
  | nil => rfl
  | cons y paid ih =>
    obtain ⟨j, p⟩ := y
    have hp : p.bond ≤ l.reserved p.proposer := by
      have := h p.proposer
      simp only [List.map_cons, List.sum_cons, Proposal.bondOf, if_true] at this
      omega
    have hl : ∀ b, ((l.unreserve p.proposer p.bond).1.depositCreating p.beneficiary p.value m).1.reserved b +
        p.bondOf b = l.reserved b := fun b => by
      rw [Ledger.depositCreating_reserved]; exact l.unreserve_bondOf b hp
    simp only [payAll, List.map_cons, List.sum_cons]
    generalize (l.unreserve p.proposer p.bond).1.depositCreating p.beneficiary p.value m = d at hl ⊢
    have := ih d.1 (x + d.2) fun b => by
      have h₁ := h b
      have h₂ := hl b
      simp only [List.map_cons, List.sum_cons] at h₁
      omega
    have := hl a
    omega

/-! ## Registries of proposals with one occurrence left -/

namespace Registry

variable {r : Registry}

theorem settlePayment_of_last {i : ProposalIndex} {p : Proposal} (hp : p.LastOccurrence) :
    r.settlePayment i p = r.remove i := by
  unfold settlePayment; rw [if_pos (by rw [show p.remainingOccurs = 1 from hp]; rfl)]

/-- The walk takes the weight of every payment out of the total. -/
theorem total_firstFit (hr : r.Bounded) (h : r.All Proposal.LastOccurrence) (w : Proposal → Nat)
    (b : Nat) (q : List ProposalIndex) :
    (firstFit r b q).proposals.total w + ((firstFit r b q).paid.map fun x => w x.2).sum =
      r.total w := by
  induction q generalizing r b with
  | nil => simp
  | cons i q ih =>
    rcases hi : r.items i with _ | p
    · rw [firstFit_cons_absent _ _ _ _ hi]; exact ih hr h b
    · by_cases hp : p.value ≤ b
      · rw [firstFit_cons_pay _ _ _ _ hi hp, settlePayment_of_last (h i p hi)]
        have := ih (hr.remove i) (h.remove i) (b - p.value)
        have := total_remove hr hi w
        simp only [List.map_cons, List.sum_cons]
        omega
      · rw [firstFit_cons_keep _ _ _ _ hi (by omega)]; exact ih hr h b

/-- A stored proposal's weight is part of the total. -/
theorem le_total (hr : r.Bounded) {i : ProposalIndex} {p : Proposal} (hi : r.items i = some p)
    (w : Proposal → Nat) : w p ≤ r.total w := by
  have := total_remove hr hi w
  omega

end Registry

theorem Proposal.bond_le_heldBonds {s : State cfg} (hs : s.Wf) {i : ProposalIndex} {p : Proposal}
    (hi : s.proposals.items i = some p) : p.bond ≤ s.heldBonds p.proposer := by
  have := Registry.le_total hs.proposals hi (Proposal.bondOf p.proposer)
  simp only [Proposal.bondOf, if_true] at this
  unfold State.heldBonds
  omega

/-! ## One step -/

section

variable {r₀ : AccountId → Nat} (s : State cfg) (hs : s.Wf) (h1 : s.All Proposal.LastOccurrence)
  (hb : s.BondsHeld r₀)
include hb

theorem bondsHeld_proposeSpend (origin : Origin) (value : Nat) (beneficiary : AccountId)
    (chunks : UInt32)
    (hfit : (Action.dispatch (.proposeSpend origin value beneficiary chunks)).Fits s) :
    (step s (.dispatch (.proposeSpend origin value beneficiary chunks))).BondsHeld r₀ := by
  rcases step_proposeSpend s origin value beneficiary chunks with h | ⟨ledger, p, hok, -, -, -, hr, h⟩
  · rw [h]; exact hb
  · have hc := hfit ⟨_, hok⟩
    intro a
    have h₁ := s.ledger.reserve_bondOf a hr
    have h₂ := hb a
    rw [h]
    unfold State.heldBonds at h₂ ⊢
    cases hw : s.inWaitingPeriod <;>
      simp only [hw, State.registry, State.setRegistry, if_false, if_true, Bool.false_eq_true,
        State.depositEvent_ledger, State.depositEvent_proposals,
        State.depositEvent_waitingProposals] at hc ⊢
    · rw [Registry.total_push p hc]; omega
    · rw [Registry.total_push p hc]; omega

include hs

theorem bondsHeld_rejectProposal (origin : Origin) (i : ProposalIndex) :
    (step s (.dispatch (.rejectProposal origin i))).BondsHeld r₀ := by
  rcases step_rejectProposal s origin i with h | ⟨p, hi, h⟩
  · rw [h]; exact hb
  · have hle : p.bond ≤ s.ledger.reserved p.proposer := by
      have := Proposal.bond_le_heldBonds hs hi
      have := hb p.proposer
      omega
    intro a
    have h₁ := s.ledger.slashReserved_bondOf a hle
    have h₂ := s.proposals.total_remove hs.proposals hi (Proposal.bondOf a)
    have h₃ := hb a
    rw [h]
    unfold State.heldBonds at h₃ ⊢
    simp only [State.depositEvent_ledger, State.onUnbalanced_reserved, State.depositEvent_proposals,
      State.onUnbalanced_proposals, State.depositEvent_waitingProposals,
      State.onUnbalanced_waitingProposals]
    omega

include h1

theorem bondsHeld_spendFunds
    (hc : s.proposals.count.toNat + s.waitingProposals.toList.length < 2 ^ 32) :
    (spendFunds s).1.BondsHeld r₀ := by
  obtain ⟨hp, hw, -, -⟩ := spendFunds_registries s hs.waitingProposals
  have hwalk : ∀ b, s.cycleWalk.proposals.total (Proposal.bondOf b) +
      (s.cycleWalk.paid.map fun x => Proposal.bondOf b x.2).sum = s.proposals.total (Proposal.bondOf b) :=
    fun b => s.proposals.total_firstFit hs.proposals h1.proposals _ _ _
  have hpay := payAll_reserved cfg.minimumBalance s.ledger 0 s.cycleWalk.paid fun b => by
    have := hwalk b
    have := hb b
    unfold State.heldBonds at this
    omega
  intro a
  have h₁ := hwalk a
  have h₂ := hpay a
  have h₃ := hb a
  rw [State.heldBonds, spendFunds_reserved, hp, Registry.total_eq_zero hw,
    Registry.total_pushAll _ (by rw [firstFit_count]; exact hc)]
  unfold State.heldBonds Registry.total at *
  omega

end

/-- Every step of a run of single-chunk proposals that does not wrap a counter keeps the keys
below the counters, the single occurrence of every stored proposal, and the balance equation. -/
theorem bondsHeld_step {r₀ : AccountId → Nat} (s : State cfg) (hs : s.Wf)
    (h1 : s.All Proposal.LastOccurrence) (hb : s.BondsHeld r₀) (a : Action) (ha : a.Fits s)
    (hchunks : a.chunks = none ∨ a.chunks = some 1) :
    (step s a).Wf ∧ (step s a).All Proposal.LastOccurrence ∧ (step s a).BondsHeld r₀ := by
  refine ⟨(stepKeeps s hs a ha).wf, h1.step
    (fun p hp hne => absurd (by rw [show p.remainingOccurs = 1 from hp]; rfl) hne)
    fun c hc p _ hr => ?_, ?_⟩
  · rcases hchunks with h | h <;> rw [h] at hc <;> cases hc
    exact hr
  cases a with
  | dispatch call =>
    cases call with
    | proposeSpend => exact bondsHeld_proposeSpend s hb _ _ _ _ ha
    | rejectProposal => exact bondsHeld_rejectProposal s hs hb _ _
    | approveProposal origin i =>
      rcases step_approveProposal s origin i with h | ⟨approvals, -, -, -, h⟩ <;> rw [h]
      · exact hb
      · exact hb
  | nextBlock =>
    rw [step_nextBlock]
    split
    · exact bondsHeld_spendFunds _ ⟨hs.1, hs.2⟩ ⟨h1.1, h1.2⟩ hb (ha ‹_›)
    · exact hb

/-- A run of single-chunk proposals that does not wrap a counter keeps the three facts. -/
theorem bondsHeld_exec {r₀ : AccountId → Nat} (s : State cfg) (run : List Action) (hs : s.Wf)
    (h1 : s.All Proposal.LastOccurrence) (hb : s.BondsHeld r₀) (hrun : NoOverflow s run)
    (hchunks : ∀ a ∈ run, a.chunks = none ∨ a.chunks = some 1) :
    (exec s run).Wf ∧ (exec s run).All Proposal.LastOccurrence ∧ (exec s run).BondsHeld r₀ := by
  induction run generalizing s with
  | nil => exact ⟨hs, h1, hb⟩
  | cons a run ih =>
    obtain ⟨hs', h1', hb'⟩ :=
      bondsHeld_step s hs h1 hb a hrun.1 (hchunks a (List.mem_cons_self a run))
    exact ih _ hs' h1' hb' hrun.2 fun b hb => hchunks b (List.mem_cons_of_mem a hb)

theorem State.bondsHeld_genesis (l : Ledger) : (genesis cfg l).BondsHeld l.reserved := by
  intro a
  have : (genesis cfg l).ledger.reserved = l.reserved := by unfold genesis; split <;> rfl
  simp [this, State.heldBonds, Registry.total_eq_zero]

/-- In a run from genesis whose `propose_spend` calls all ask for one chunk and whose `u32`
counters never wrap, every account's reserved balance is what it held at genesis plus the bonds
of its proposals stored in `Proposals` and `WaitingProposals`. Every stored proposal is then
backed by its bond, and rejecting it slashes exactly that bond from its proposer. -/
theorem reserved_eq_genesis_add_bonds (l : Ledger) (run : List Action)
    (hchunks : ∀ a ∈ run, a.chunks = none ∨ a.chunks = some 1)
    (hrun : NoOverflow (genesis cfg l) run) :
    let s := exec (genesis cfg l) run
    (∀ a, s.ledger.reserved a = l.reserved a + s.heldBonds a) ∧
    ∀ origin i p, cfg.rejectOrigin origin → s.proposals.items i = some p →
      (step s (.dispatch (.rejectProposal origin i))).ledger.reserved p.proposer + p.bond =
        s.ledger.reserved p.proposer := by
  dsimp only
  obtain ⟨hs, -, hb⟩ := bondsHeld_exec _ run (genesis_wf l) (State.all_genesis l _)
    (State.bondsHeld_genesis l) hrun hchunks
  generalize exec (genesis cfg l) run = s at hs hb ⊢
  refine ⟨hb, fun origin i p ho hi => ?_⟩
  have hle : p.bond ≤ s.ledger.reserved p.proposer := by
    have := Proposal.bond_le_heldBonds hs hi
    have := hb p.proposer
    omega
  have h₁ := s.ledger.slashReserved_bondOf p.proposer hle
  rw [Proposal.bondOf, if_pos rfl] at h₁
  rw [step, Call.run, rejectProposal_run, if_pos ho, hi]
  simpa only [storageOf, State.depositEvent_ledger, State.onUnbalanced_reserved] using h₁

/-- In the mock runtime, a single-chunk proposal holds its bond of `5` reserved. -/
theorem reserved_eq_genesis_add_bonds_mock :
    let run : List Action := [.dispatch (.proposeSpend (.signed 1) 100 2 1)]
    (∀ a ∈ run, a.chunks = none ∨ a.chunks = some 1) ∧ NoOverflow (genesis mockConfig mockLedger) run ∧
    (exec (genesis mockConfig mockLedger) run).heldBonds 1 = 5 ∧
    let s := exec (genesis mockConfig mockLedger) run
    (∀ a, s.ledger.reserved a = mockLedger.reserved a + s.heldBonds a) ∧
    ∀ origin i p, mockConfig.rejectOrigin origin → s.proposals.items i = some p →
      (step s (.dispatch (.rejectProposal origin i))).ledger.reserved p.proposer + p.bond =
        s.ledger.reserved p.proposer :=
  have hc : ∀ a ∈ [Action.dispatch (.proposeSpend (.signed 1) 100 2 1)],
      a.chunks = none ∨ a.chunks = some 1 := by decide
  have hrun : NoOverflow (genesis mockConfig mockLedger)
      [Action.dispatch (.proposeSpend (.signed 1) 100 2 1)] :=
    ⟨fun _ => by decide, trivial⟩
  ⟨hc, hrun, by decide, reserved_eq_genesis_add_bonds mockLedger _ hc hrun⟩

end Treasury
