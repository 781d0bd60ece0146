-- SUMMARY: Runs where a payment of spend_funds wraps remaining_occurs or releases a bond too early, and the bounds on remaining_occurs and on payments in runs whose proposals ask for at least one chunk.
import Treasury.Proofs.Approvals

/-!
# Occurrences and bonds of a payment

Each payment of the retain loop decrements `remaining_occurs` with an unchecked `u32` `- 1`,
removes the proposal when the result is `0` and stores it again otherwise, and unreserves the
whole bond. Two consequences, each shown on a run of the mock runtime:

* a proposal made with `chunks = 0` has `remaining_occurs = 0`; its first payment wraps the
  counter to `u32::MAX` and stores it again, so every later approval pays it again;
* a proposal with occurrences to come stays stored after a payment that has already released
  its bond, so its proposer's reserved balance no longer backs it.

The first defect needs `chunks = 0`: in a run whose proposals all ask for at least one chunk,
every stored proposal keeps `1 ≤ remaining_occurs ≤ occurs`, so every payment finds an
occurrence left and the decrement never wraps. While the counters do not wrap either, each
payment at an index takes one of the occurrences left there and no step adds one, so a proposal
is paid at most `remaining_occurs` more times, and at most `occurs` times in all.
-/

namespace Treasury

variable {cfg : Config}

/-- A proposal made with `chunks = 0` in block `0` and approved is paid in block `2`, and stored
again with `remaining_occurs = u32::MAX > occurs = 0`. -/
theorem remainingOccurs_wraps_mock :
    let s := exec (genesis mockConfig mockLedger)
      [.dispatch (.proposeSpend (.signed 1) 100 2 0), .dispatch (.approveProposal .root 0),
        .nextBlock, .nextBlock]
    s.proposals.items 0 = some ⟨1, 100, 2, 5, 0, 4294967295⟩ ∧
      Event.awarded 0 100 2 ∈ s.events := by
  decide

/-- Approved again, the same `chunks = 0` proposal of value `100` is paid again in block `4`: its
beneficiary receives `200`. -/
theorem awarded_twice_mock :
    let s := exec (genesis mockConfig mockLedger)
      [.dispatch (.proposeSpend (.signed 1) 100 2 0), .dispatch (.approveProposal .root 0),
        .nextBlock, .nextBlock, .dispatch (.approveProposal .root 0), .nextBlock, .nextBlock]
    s.events.count (.awarded 0 100 2) = 2 ∧ s.ledger.free 2 = mockLedger.free 2 + 200 := by
  decide

/-- A proposal of two chunks keeps its second occurrence after the first payment, which released
its bond of `5`: its proposer has nothing reserved. Rejecting it then slashes nothing, though
`Rejected` reports the bond. -/
theorem bond_released_early_mock :
    let s := exec (genesis mockConfig mockLedger)
      [.dispatch (.proposeSpend (.signed 1) 100 2 2), .dispatch (.approveProposal .root 0),
        .nextBlock, .nextBlock]
    let s' := step s (.dispatch (.rejectProposal .root 0))
    s.proposals.items 0 = some ⟨1, 50, 2, 5, 2, 1⟩ ∧ s.ledger.reserved 1 = 0 ∧
      s'.proposals.items 0 = none ∧ s'.ledger.reserved 1 = 0 ∧
      s'.ledger.free 1 = s.ledger.free 1 ∧ Event.rejected 0 5 ∈ s'.events := by
  decide

/-! ## Runs whose proposals ask for at least one chunk -/

/-- The occurrence counts of a proposal are valid: one occurrence is left, and no more than the
proposal was made with. -/
def Proposal.OccursValid (p : Proposal) : Prop :=
  0 < p.remainingOccurs ∧ p.remainingOccurs ≤ p.occurs

instance (p : Proposal) : Decidable p.OccursValid :=
  inferInstanceAs (Decidable (0 < p.remainingOccurs ∧ p.remainingOccurs ≤ p.occurs))

/-- A decrement from valid counts that does not reach `0` leaves them valid. -/
theorem Proposal.OccursValid.decrement {p : Proposal} (h : p.OccursValid)
    (hne : p.remainingOccurs - 1 ≠ 0) :
    ({ p with remainingOccurs := p.remainingOccurs - 1 } : Proposal).OccursValid := by
  obtain ⟨h0, hle⟩ := h
  have h0' : 0 < p.remainingOccurs.toNat := h0
  have hle' : p.remainingOccurs.toNat ≤ p.occurs.toNat := hle
  have hs : (p.remainingOccurs - 1).toNat = p.remainingOccurs.toNat - 1 :=
    UInt32.toNat_sub_of_le _ 1 h0
  have hne' : (p.remainingOccurs - 1).toNat ≠ 0 := fun h => hne (UInt32.toNat.inj h)
  constructor
  · show 0 < (p.remainingOccurs - 1).toNat; omega
  · show (p.remainingOccurs - 1).toNat ≤ p.occurs.toNat; omega

/-- A proposal made with `chunks ≠ 0` has valid occurrence counts. -/
theorem Proposal.occursValid_of_chunks {c : UInt32} (hc : c ≠ 0) {p : Proposal}
    (ho : p.occurs = c) (hr : p.remainingOccurs = c) : p.OccursValid := by
  have hc0 : 0 < c.toNat := Nat.pos_of_ne_zero fun h0 => hc (UInt32.toNat.inj h0)
  exact ⟨show 0 < p.remainingOccurs.toNat by rw [hr]; exact hc0,
    by rw [ho, hr]; exact UInt32.le_refl _⟩

/-- Every proposal stored in `Proposals` or in `WaitingProposals` satisfies `P`. -/
structure State.All (s : State cfg) (P : Proposal → Prop) : Prop where
  proposals : s.proposals.All P
  waitingProposals : s.waitingProposals.All P

/-- The `chunks` of a `propose_spend`, and `none` for every other action. -/
def Action.chunks : Action → Option UInt32
  | .dispatch (.proposeSpend _ _ _ chunks) => some chunks
  | _ => none

theorem State.all_genesis (l : Ledger) (P : Proposal → Prop) : (genesis cfg l).All P :=
  ⟨fun k p hk => by simp at hk, fun k p hk => by simp at hk⟩

theorem State.All.promoteWaiting {s : State cfg} {P : Proposal → Prop} (h : s.All P) :
    (promoteWaiting s).All P := by
  obtain ⟨hp, hw⟩ := promoteWaiting_registries s
  refine ⟨hp ▸ h.proposals.pushAll fun _ => h.waitingProposals.mem_toList, fun k p hk => ?_⟩
  rw [hw k] at hk
  split at hk
  · cases hk
  · exact h.waitingProposals k p hk

/-! A predicate that every decrement which stores a proposal again keeps is kept by every
payment, and so by every step whose new proposal satisfies it. -/

section

variable {P : Proposal → Prop}
  (hP : ∀ p, P p → p.remainingOccurs - 1 ≠ 0 → P { p with remainingOccurs := p.remainingOccurs - 1 })
include hP

theorem Registry.All.settlePayment {r : Registry} (h : r.All P) {i : ProposalIndex} {p : Proposal}
    (hi : r.items i = some p) : (r.settlePayment i p).All P := by
  intro k p' hk
  rw [settlePayment_items] at hk
  split at hk
  · split at hk
    · cases hk
    · cases hk; exact hP p (h i p hi) ‹_›
  · exact h k p' hk

/-- The walk keeps `P` of the registry, and pays only proposals that satisfy it. -/
theorem Registry.All.firstFit {r : Registry} (h : r.All P) (b : Nat) (q : List ProposalIndex) :
    (firstFit r b q).proposals.All P ∧ ∀ x ∈ (firstFit r b q).paid, P x.2 := by
  induction q generalizing r b with
  | nil => exact ⟨h, by simp⟩
  | cons i q ih =>
    rcases hi : r.items i with _ | p
    · rw [firstFit_cons_absent _ _ _ _ hi]; exact ih h b
    · by_cases hp : p.value ≤ b
      · rw [firstFit_cons_pay _ _ _ _ hi hp]
        obtain ⟨h₁, h₂⟩ := ih (h.settlePayment hP hi) (b - p.value)
        refine ⟨h₁, fun x hx => ?_⟩
        rcases List.mem_cons.1 hx with rfl | hx
        · exact h i p hi
        · exact h₂ x hx
      · rw [firstFit_cons_keep _ _ _ _ hi (by omega)]; exact ih h b

theorem State.All.spendFunds {s : State cfg} (h : s.All P) : (spendFunds s).1.All P := by
  rw [spendFunds_fst]
  have hs : s.settled.All P :=
    ⟨by simpa using (h.proposals.firstFit hP _ _).1, by simpa using h.waitingProposals⟩
  have := hs.promoteWaiting
  exact ⟨by simpa using this.proposals, by simpa using this.waitingProposals⟩

/-- A step keeps `P` of both registries when the proposal a `propose_spend` would make satisfies
it. -/
theorem State.All.step {s : State cfg} (h : s.All P) {a : Action}
    (ha : ∀ c, a.chunks = some c → ∀ p : Proposal, p.occurs = c → p.remainingOccurs = c → P p) :
    (step s a).All P := by
  cases a with
  | dispatch call =>
    cases call with
    | proposeSpend origin value beneficiary chunks =>
      rcases step_proposeSpend s origin value beneficiary chunks with
        he | ⟨ledger, p, -, ho, hr, -, -, he⟩
      · rw [he]; exact h
      · have hp := ha chunks rfl p ho hr
        rw [he]
        cases s.inWaitingPeriod
        · exact ⟨by simpa [State.setRegistry] using h.proposals.push hp, h.waitingProposals⟩
        · exact ⟨h.proposals, by simpa [State.setRegistry] using h.waitingProposals.push hp⟩
    | rejectProposal origin i =>
      rcases step_rejectProposal s origin i with he | ⟨p, -, he⟩
      · rw [he]; exact h
      · rw [he]; exact ⟨by simpa using h.proposals.remove i, by simpa using h.waitingProposals⟩
    | approveProposal origin i =>
      rcases step_approveProposal s origin i with he | ⟨approvals, -, -, -, he⟩
      · rw [he]; exact h
      · rw [he]; exact ⟨h.proposals, h.waitingProposals⟩
  | nextBlock =>
    rw [step_nextBlock]
    split
    · exact State.All.spendFunds hP ⟨h.proposals, h.waitingProposals⟩
    · exact ⟨h.proposals, h.waitingProposals⟩

theorem State.All.exec {s : State cfg} (h : s.All P) {run : List Action}
    (hrun : ∀ a ∈ run, ∀ c, a.chunks = some c →
      ∀ p : Proposal, p.occurs = c → p.remainingOccurs = c → P p) :
    (exec s run).All P := by
  induction run generalizing s with
  | nil => exact h
  | cons a run ih =>
    rw [exec_cons]
    exact ih (h.step hP (hrun a (List.mem_cons_self a run))) fun b hb =>
      hrun b (List.mem_cons_of_mem a hb)

end

/-- A step that is not a `propose_spend` with `chunks = 0` keeps every stored proposal's
occurrence counts valid. -/
theorem State.All.step_occursValid {s : State cfg} (h : s.All Proposal.OccursValid) {a : Action}
    (ha : a.chunks ≠ some 0) : (Treasury.step s a).All Proposal.OccursValid :=
  h.step (fun _ h hne => h.decrement hne) fun _ hc _ ho hr =>
    Proposal.occursValid_of_chunks (fun h0 => ha (h0 ▸ hc)) ho hr

/-- Paying a proposal with an occurrence left stores it again, if at all, with exactly one
occurrence fewer. -/
theorem State.award_remainingOccurs (s : State cfg) {i : ProposalIndex} {p p' : Proposal}
    (h : 0 < p.remainingOccurs) (hp' : (s.award i p).1.proposals.items i = some p') :
    p'.remainingOccurs.toNat + 1 = p.remainingOccurs.toNat := by
  rw [award_eq] at hp'
  simp only [settlePayment_items, if_pos] at hp'
  split at hp'
  · cases hp'
  · cases hp'
    have h' : 0 < p.remainingOccurs.toNat := h
    rw [UInt32.toNat_sub_of_le _ 1 h]
    exact Nat.sub_add_cancel h'

/-- In a run whose `propose_spend` calls all ask for at least one chunk, every stored proposal,
in `Proposals` or in `WaitingProposals`, has `1 ≤ remaining_occurs ≤ occurs`. Paying one then
stores it again with exactly one occurrence fewer, never wrapped to `u32::MAX`; and in the walk
of a spend cycle, whatever its budget and queue, every entry paid, a second payment of an index
queued twice included, has an occurrence left, so its decrement takes exactly one. -/
theorem remainingOccurs_pos_of_chunks (l : Ledger) (run : List Action)
    (hrun : ∀ a ∈ run, a.chunks ≠ some 0) :
    let s := exec (genesis cfg l) run
    s.All Proposal.OccursValid ∧ (∀ i p p', s.proposals.items i = some p →
      (s.award i p).1.proposals.items i = some p' →
        p'.remainingOccurs.toNat + 1 = p.remainingOccurs.toNat) ∧
    ∀ (b : Nat) (q : List ProposalIndex), ∀ x ∈ (firstFit s.proposals b q).paid,
      (x.2.remainingOccurs - 1).toNat + 1 = x.2.remainingOccurs.toNat := by
  intro s
  have h : s.All Proposal.OccursValid := (State.all_genesis l _).exec
    (fun _ h hne => h.decrement hne) fun a ha _ hc _ ho hr =>
      Proposal.occursValid_of_chunks (fun h0 => hrun a ha (h0 ▸ hc)) ho hr
  refine ⟨h, fun i p p' hp => s.award_remainingOccurs (h.proposals i p hp).1, fun b q x hx => ?_⟩
  have hx : 0 < x.2.remainingOccurs :=
    ((h.proposals.firstFit (fun _ h hne => h.decrement hne) b q).2 x hx).1
  have hx' : 0 < x.2.remainingOccurs.toNat := hx
  rw [UInt32.toNat_sub_of_le _ 1 hx]
  exact Nat.sub_add_cancel hx'

/-- A two-chunk proposal of a mock run approved twice: the walk of the next spend cycle pays it
twice, first with two occurrences left and then with one, and each decrement takes one. -/
theorem remainingOccurs_pos_of_chunks_mock :
    let run : List Action := [.dispatch (.proposeSpend (.signed 1) 100 2 2),
      .dispatch (.approveProposal .root 0), .dispatch (.approveProposal .root 0)]
    let s := exec (genesis mockConfig mockLedger) run
    (∀ a ∈ run, a.chunks ≠ some 0) ∧
      (firstFit s.proposals (pot s) s.approvals.toList).paid =
        [(0, ⟨1, 50, 2, 5, 2, 2⟩), (0, ⟨1, 50, 2, 5, 2, 1⟩)] ∧
      s.All Proposal.OccursValid ∧
      ∀ x ∈ (firstFit s.proposals (pot s) s.approvals.toList).paid,
        (x.2.remainingOccurs - 1).toNat + 1 = x.2.remainingOccurs.toNat :=
  ⟨by decide, by decide, (remainingOccurs_pos_of_chunks mockLedger _ (by decide)).1,
    (remainingOccurs_pos_of_chunks mockLedger _ (by decide)).2.2 _ _⟩

/-! ## Payments bounded by the occurrences left -/

/-- The occurrences left at key `i`: the `remaining_occurs` of the proposal stored there, or `0`
when the key is empty. -/
def Registry.occurrencesLeft (r : Registry) (i : ProposalIndex) : Nat :=
  match r.items i with
  | some p => p.remainingOccurs.toNat
  | none => 0

theorem Registry.occurrencesLeft_congr {r r' : Registry} {i : ProposalIndex}
    (h : r'.items i = r.items i) : r'.occurrencesLeft i = r.occurrencesLeft i := by
  simp only [occurrencesLeft, h]

theorem Registry.occurrencesLeft_of_some {r : Registry} {i : ProposalIndex} {p : Proposal}
    (h : r.items i = some p) : r.occurrencesLeft i = p.remainingOccurs.toNat := by
  simp only [occurrencesLeft, h]

/-- A payment at `j` takes one occurrence from `j` and none from any other key. -/
theorem Registry.occurrencesLeft_settlePayment {r : Registry} {j : ProposalIndex} {p : Proposal}
    (hj : r.items j = some p) (hp : 0 < p.remainingOccurs) (i : ProposalIndex) :
    (r.settlePayment j p).occurrencesLeft i + (if j = i then 1 else 0) = r.occurrencesLeft i := by
  have hs : (p.remainingOccurs - 1).toNat = p.remainingOccurs.toNat - 1 :=
    UInt32.toNat_sub_of_le _ 1 hp
  have h0 : 0 < p.remainingOccurs.toNat := hp
  unfold occurrencesLeft
  rw [settlePayment_items]
  by_cases hij : i = j
  · subst hij
    rw [if_pos rfl, if_pos rfl, hj]
    by_cases hz : p.remainingOccurs - 1 = 0
    · rw [if_pos hz]
      rw [hz, UInt32.toNat_zero] at hs
      dsimp only
      omega
    · rw [if_neg hz]
      simp only [hs]
      omega
  · rw [if_neg hij, if_neg (Ne.symm hij), Nat.add_zero]

/-- Over the walk, the payments at `i` and the occurrences left there add up to the occurrences
left before it. -/
theorem Registry.occurrencesLeft_firstFit {r : Registry} (h : r.All Proposal.OccursValid)
    (b : Nat) (q : List ProposalIndex) (i : ProposalIndex) :
    (firstFit r b q).paid.countP (fun x => x.1 == i) + (firstFit r b q).proposals.occurrencesLeft i =
      r.occurrencesLeft i := by
  induction q generalizing r b with
  | nil => simp
  | cons j q ih =>
    rcases hj : r.items j with _ | p
    · rw [firstFit_cons_absent _ _ _ _ hj]; exact ih h b
    · by_cases hp : p.value ≤ b
      · rw [firstFit_cons_pay _ _ _ _ hj hp]
        have h₁ := ih (h.settlePayment (fun _ h hne => h.decrement hne) hj) (b - p.value)
        have h₂ := occurrencesLeft_settlePayment hj (h j p hj).1 i
        simp only [List.countP_cons, beq_iff_eq] at h₁ ⊢
        generalize (if j = i then 1 else 0) = c at h₂ ⊢
        omega
      · rw [firstFit_cons_keep _ _ _ _ hj (by omega)]; exact ih h b

/-- A key below `ProposalCount` keeps its entry through a `propose_spend`, which writes only at
the counter of the registry it fills. -/
theorem step_proposeSpend_items (s : State cfg) {i : ProposalIndex}
    (hi : i.toNat < s.proposals.count.toNat) (origin : Origin) (value : Nat)
    (beneficiary : AccountId) (chunks : UInt32) :
    (step s (.dispatch (.proposeSpend origin value beneficiary chunks))).proposals.items i =
      s.proposals.items i := by
  rcases step_proposeSpend s origin value beneficiary chunks with h | ⟨ledger, p, -, -, -, -, -, h⟩
  · rw [h]
  · rw [h]
    cases s.inWaitingPeriod
    · simp only [State.depositEvent_proposals, State.setRegistry, State.registry, if_false,
        Bool.false_eq_true, Registry.push_items_toNat, if_neg (Nat.ne_of_lt hi)]
    · rfl

/-- A step that does not wrap a counter pays at `i`, a key below `ProposalCount`, at most the
occurrences left there, and leaves at most the rest: a payment takes one occurrence, a rejection
takes all, and nothing adds one. -/
theorem step_paid_occurrencesLeft (s : State cfg) (hs : s.Wf) (hv : s.All Proposal.OccursValid)
    (a : Action) (ha : a.Fits s) {i : ProposalIndex} (hi : i.toNat < s.proposals.count.toNat) :
    (stepPaid s a).countP (fun x => x.1 == i) + (step s a).proposals.occurrencesLeft i ≤
      s.proposals.occurrencesLeft i := by
  cases a with
  | dispatch call =>
    cases call with
    | proposeSpend origin value beneficiary chunks =>
      simp [stepPaid, Registry.occurrencesLeft_congr (step_proposeSpend_items s hi ..)]
    | rejectProposal origin j =>
      rcases step_rejectProposal s origin j with h | ⟨p, -, h⟩
      · simp [h, stepPaid]
      · rw [h]
        simp only [stepPaid, List.countP_nil, Nat.zero_add, State.depositEvent_proposals,
          State.onUnbalanced_proposals, Registry.occurrencesLeft, Registry.remove_items]
        split_ifs
        · exact Nat.zero_le _
        · exact Nat.le_refl _
    | approveProposal origin j =>
      rcases step_approveProposal s origin j with h | ⟨approvals, -, -, -, h⟩ <;> simp [h, stepPaid]
  | nextBlock =>
    rw [step_nextBlock]
    simp only [stepPaid]
    split
    · rename_i hspend
      let s₁ : State cfg := { s with blockNumber := s.blockNumber + 1 }
      obtain ⟨hp, -, -, -⟩ := spendFunds_registries s₁ hs.waitingProposals
      have hc : s₁.cycleWalk.proposals.count.toNat + s₁.waitingProposals.toList.length < 2 ^ 32 := by
        rw [firstFit_count]; exact ha hspend
      have hitems : (spendFunds s₁).1.proposals.items i = s₁.cycleWalk.proposals.items i := by
        rw [hp, Registry.pushAll_items (hs.proposals.firstFit _ _) _ hc, firstFit_count,
          if_neg (Nat.not_le.2 hi)]
      rw [Registry.occurrencesLeft_congr hitems]
      exact Nat.le_of_eq (Registry.occurrencesLeft_firstFit hv.proposals _ _ i)
    · simp

/-- Over a run whose proposals ask for at least one chunk and whose counters do not wrap, the
payments at a key below `ProposalCount` and the occurrences left there never exceed the
occurrences left at the start. -/
theorem exec_awards_occurrencesLeft {s : State cfg} (hs : s.Wf) (hv : s.All Proposal.OccursValid)
    {run : List Action} (hrun : NoOverflow s run) (hc : ∀ a ∈ run, a.chunks ≠ some 0)
    {i : ProposalIndex} (hi : i.toNat < s.proposals.count.toNat) :
    (exec s run).events.countP (Event.awards i) + (exec s run).proposals.occurrencesLeft i ≤
      s.events.countP (Event.awards i) + s.proposals.occurrencesLeft i := by
  induction run generalizing s with
  | nil => exact Nat.le_refl _
  | cons a run ih =>
    have hk := stepKeeps s hs a hrun.1
    have h₁ := step_awards s i a
    have h₂ := step_paid_occurrencesLeft s hs hv a hrun.1 hi
    have h₃ := ih hk.wf (hv.step_occursValid (hc a (List.mem_cons_self a run))) hrun.2
      (fun b hb => hc b (List.mem_cons_of_mem a hb)) (Nat.lt_of_lt_of_le hi hk.count_le)
    rw [exec_cons]
    omega

/-- In a run from genesis whose `propose_spend` calls all ask for at least one chunk and whose
`u32` counters never wrap, once a proposal with `remaining_occurs = r` is stored at index `i`,
the rest of the run logs at most `r` more `Awarded(i, ..)` events, and fewer by the occurrences
still left at `i` at its end. A proposal is made with `remaining_occurs = occurs`, so it is paid
at most `occurs` times. -/
theorem awards_le_remainingOccurs (l : Ledger) (run₁ run₂ : List Action) (i : ProposalIndex)
    (p : Proposal) (hchunks : ∀ a ∈ run₁ ++ run₂, a.chunks ≠ some 0)
    (hrun : NoOverflow (genesis cfg l) (run₁ ++ run₂))
    (hp : (exec (genesis cfg l) run₁).proposals.items i = some p) :
    let s := exec (genesis cfg l) run₁
    let s' := exec s run₂
    s'.events.countP (Event.awards i) + s'.proposals.occurrencesLeft i ≤
      s.events.countP (Event.awards i) + p.remainingOccurs.toNat := by
  dsimp only
  rw [noOverflow_append] at hrun
  have hs := exec_wf (genesis_wf l) hrun.1
  have hv : (exec (genesis cfg l) run₁).All Proposal.OccursValid := (State.all_genesis l _).exec
    (fun _ h hne => h.decrement hne) fun a ha _ hc _ ho hr =>
      Proposal.occursValid_of_chunks (fun h0 => hchunks a (List.mem_append_left _ ha) (h0 ▸ hc))
        ho hr
  have h := exec_awards_occurrencesLeft hs hv hrun.2
    (fun a ha => hchunks a (List.mem_append_right _ ha))
    (hs.proposals i fun h' => Option.noConfusion (h'.symm.trans hp))
  rwa [Registry.occurrencesLeft_of_some hp] at h

/-- A two-chunk proposal approved and paid twice in the mock runtime: the second payment takes
its last occurrence and removes it, so the bound is met with equality. -/
theorem awards_le_remainingOccurs_mock :
    let run₁ : List Action := [.dispatch (.proposeSpend (.signed 1) 100 2 2)]
    let run₂ : List Action := [.dispatch (.approveProposal .root 0), .nextBlock, .nextBlock,
      .dispatch (.approveProposal .root 0), .nextBlock, .nextBlock]
    let s := exec (genesis mockConfig mockLedger) run₁
    let s' := exec s run₂
    (∀ a ∈ run₁ ++ run₂, a.chunks ≠ some 0) ∧ NoOverflow (genesis mockConfig mockLedger) (run₁ ++ run₂) ∧
      s.proposals.items 0 = some ⟨1, 50, 2, 5, 2, 2⟩ ∧
      s'.events.countP (Event.awards 0) = 2 ∧ s'.proposals.occurrencesLeft 0 = 0 ∧
      s'.events.countP (Event.awards 0) + s'.proposals.occurrencesLeft 0 ≤
        s.events.countP (Event.awards 0) + (⟨1, 50, 2, 5, 2, 2⟩ : Proposal).remainingOccurs.toNat :=
  have hc : ∀ a ∈ [Action.dispatch (.proposeSpend (.signed 1) 100 2 2)] ++
      [.dispatch (.approveProposal .root 0), .nextBlock, .nextBlock,
        .dispatch (.approveProposal .root 0), .nextBlock, .nextBlock], a.chunks ≠ some 0 := by
    decide
  have hrun : NoOverflow (genesis mockConfig mockLedger)
      ([Action.dispatch (.proposeSpend (.signed 1) 100 2 2)] ++
        [.dispatch (.approveProposal .root 0), .nextBlock, .nextBlock,
          .dispatch (.approveProposal .root 0), .nextBlock, .nextBlock]) := by
    simp only [List.cons_append, List.nil_append, noOverflow_cons, noOverflow_nil, and_true]
    exact ⟨fun _ => by decide, trivial, fun _ => by decide, fun _ => by decide, trivial,
      fun _ => by decide, fun _ => by decide⟩
  have hp : (exec (genesis mockConfig mockLedger)
      [.dispatch (.proposeSpend (.signed 1) 100 2 2)]).proposals.items 0 =
        some ⟨1, 50, 2, 5, 2, 2⟩ := by decide
  ⟨hc, hrun, hp, by decide, by decide, awards_le_remainingOccurs mockLedger _ _ 0 _ hc hrun hp⟩

end Treasury
