-- SUMMARY: In every run from the first block, every stored proposal has had its Proposed or WaitingProposed event and every Awarded(i, ..) follows a Proposed(i); with no counter wrap, every Awarded(i, v, b) pays the value and beneficiary of the proposal stored at i.
import Treasury.Proofs.Approvals

/-!
# What the event log says of the storage

`propose_spend` emits `Proposed(c)` or `WaitingProposed(c)` for the key `c` it writes, and each
turn of the promotion loop emits `Proposed(c)` for the key `c` it may write. The retain loop of
`spend_funds` pays only a proposal it reads from `Proposals`, and logs `Awarded` with that
proposal's value and beneficiary.

`frame_system` records no event deposited at block `0`, while the model's log keeps every event.
No call runs at block `0` of a chain, though: the genesis block holds no extrinsic, and the first
block executed is block `1`, which opens with `on_initialize(1)`. So the statements about the
log take a run from genesis through its first block, after which every event is recorded.

Then, whatever the counters do, every key of either registry holding a proposal has had its
announcement, and every `Awarded(i, ..)` in the log comes after a `Proposed(i)`. The converse
fails: the loop also announces `Proposed(c)` on a turn that inserts nothing.

When no `u32` counter wraps, a key of `Proposals` is written once: a proposal stored at `i` stays
there, with only its `remaining_occurs` changed, until it is removed, and nothing is stored at `i`
again. Then every later `Awarded(i, v, b)` pays the value `v` of that proposal to its
beneficiary `b`. When `ProposalCount` wraps, another proposal can be stored at `i`.
-/

namespace Treasury

variable {cfg : Config}

/-- Every `Awarded(i, ..)` of the log `l` comes after a `Proposed(i)`. -/
def AwardsAnnounced (l : List Event) : Prop :=
  ∀ (n : Nat) (e : Event) (i : ProposalIndex), l[n]? = some e → e.awards i = true →
    ∃ m < n, l[m]? = some (.proposed i)

/-- The event `propose_spend` emits for the key `k` it writes into registry `w`: `WaitingProposed`
in the waiting period, `Proposed` otherwise. -/
def announcement (w : Bool) (k : ProposalIndex) : Event :=
  if w then .waitingProposed k else .proposed k

/-- Every key of either registry holding a proposal has had its announcement in the log. -/
def State.KeysAnnounced (s : State cfg) : Prop :=
  ∀ (w : Bool) (k : ProposalIndex), (s.registry w).items k ≠ none → announcement w k ∈ s.events

/-- What the log says of the storage: every stored proposal was announced, and every payment
follows the announcement of its index. -/
structure State.Announced (s : State cfg) : Prop where
  keys : s.KeysAnnounced
  awards : AwardsAnnounced s.events

/-! ## Logs -/

/-- Appending events keeps every payment after its announcement when each new payment is of an
index the log has already announced. -/
theorem awardsAnnounced_append {l t : List Event} (h : AwardsAnnounced l)
    (ht : ∀ e ∈ t, ∀ i, e.awards i = true → Event.proposed i ∈ l) : AwardsAnnounced (l ++ t) := by
  intro n e i hn he
  by_cases hlt : n < l.length
  · rw [List.getElem?_append_left hlt] at hn
    obtain ⟨m, hm, hm'⟩ := h n e i hn he
    exact ⟨m, hm, by rw [List.getElem?_append_left (by omega)]; exact hm'⟩
  · rw [List.getElem?_append_right (by omega)] at hn
    obtain ⟨m, hm⟩ := List.mem_iff_getElem?.1 (ht e (List.getElem?_mem hn) i he)
    have hml : m < l.length := (List.getElem?_eq_some_iff.1 hm).1
    exact ⟨m, by omega, by rw [List.getElem?_append_left hml]; exact hm⟩

/-! ## What a step logs -/

/-- Every entry the walk pays is the proposal stored at its index, with at most its
`remaining_occurs` changed. -/
theorem firstFit_paid_some {r : Registry} {b : Nat} {q : List ProposalIndex}
    {x : ProposalIndex × Proposal} (hx : x ∈ (firstFit r b q).paid) :
    ∃ p, r.items x.1 = some p ∧ { p with remainingOccurs := x.2.remainingOccurs } = x.2 := by
  induction q generalizing r b with
  | nil => cases hx
  | cons i q ih =>
    rcases h : r.items i with _ | p
    · rw [firstFit_cons_absent _ _ _ _ h] at hx; exact ih hx
    · by_cases hp : p.value ≤ b
      · rw [firstFit_cons_pay _ _ _ _ h hp] at hx
        rcases List.mem_cons.1 hx with rfl | hx
        · exact ⟨p, h, rfl⟩
        · obtain ⟨p₁, h₁, hp₁⟩ := ih hx
          rw [settlePayment_items] at h₁
          split at h₁
          · rename_i hxi
            split at h₁
            · cases h₁
            · cases h₁; exact ⟨p, hxi ▸ h, hp₁⟩
          · exact ⟨p₁, h₁, hp₁⟩
      · rw [firstFit_cons_keep _ _ _ _ h (by omega)] at hx; exact ih hx

theorem stepPaid_some {s : State cfg} {a : Action} {x : ProposalIndex × Proposal}
    (hx : x ∈ stepPaid s a) :
    ∃ p, s.proposals.items x.1 = some p ∧ { p with remainingOccurs := x.2.remainingOccurs } = x.2 := by
  cases a with
  | dispatch => cases hx
  | nextBlock =>
    simp only [stepPaid] at hx
    split at hx
    · exact firstFit_paid_some hx
    · cases hx

/-- A step appends to the log, and the only payments it logs are the entries of `stepPaid`. -/
theorem step_events (s : State cfg) (a : Action) :
    ∃ t, (step s a).events = s.events ++ t ∧
      ∀ e ∈ t, ∀ i, e.awards i = true → ∃ x ∈ stepPaid s a, awardedEvent x = e := by
  cases a with
  | dispatch call =>
    obtain ⟨t, ht, hq⟩ := step_dispatch_quietAfter s call
    exact ⟨t, ht, fun e he i hi => absurd hi (List.countP_eq_zero.1 (hq i) e he)⟩
  | nextBlock =>
    rw [step_nextBlock]
    simp only [stepPaid]
    split
    · obtain ⟨t, ht, hq⟩ := spendFunds_events { s with blockNumber := s.blockNumber + 1 }
      refine ⟨_, ht.trans (List.append_assoc _ _ _), fun e he i hi => ?_⟩
      simp only [List.cons_append, List.mem_cons, List.mem_append, List.mem_map] at he
      rcases he with rfl | ⟨x, hx, rfl⟩ | he
      · cases hi
      · exact ⟨x, hx, rfl⟩
      · exact absurd hi (List.countP_eq_zero.1 (hq i) e he)
    · exact ⟨[], (List.append_nil _).symm, fun _ he => absurd he (List.not_mem_nil _)⟩

theorem mem_payout_events (s : State cfg) {e : Event} (he : e ∈ s.events) :
    e ∈ (payout s).1.events := by
  simp only [payout, disburse_eq]
  exact (quietAfter_burnSurplus _ _).mem_events
    (List.mem_append_left _ (List.mem_append_left _ he))

/-! ## Keys -/

namespace State.KeysAnnounced

variable {s t : State cfg}

/-- Announcements carry over to a state with no more keys and no fewer events. -/
theorem mono (h : s.KeysAnnounced)
    (hr : ∀ w k, (t.registry w).items k ≠ none → (s.registry w).items k ≠ none)
    (he : ∀ e ∈ s.events, e ∈ t.events) : t.KeysAnnounced :=
  fun w k hk => he _ (h w k (hr w k hk))

theorem depositEvent (h : s.KeysAnnounced) (e : Event) : (s.depositEvent e).KeysAnnounced :=
  fun w k hk => List.mem_append_left _ (h w k hk)

/-- `propose_spend` announces the key it writes. -/
theorem push (h : s.KeysAnnounced) (ledger : Ledger) (w : Bool) (p : Proposal) :
    (({ s with ledger }.setRegistry w ((s.registry w).push p)).depositEvent
      (announcement w (s.registry w).count)).KeysAnnounced := by
  intro v k hk
  rw [State.depositEvent_events, State.setRegistry_events]
  by_cases hv : v = w
  · subst hv
    rw [State.depositEvent_registry, State.registry_setRegistry, Registry.push_items] at hk
    split at hk
    · subst k; exact List.mem_append_right _ (List.mem_singleton_self _)
    · exact List.mem_append_left _ (h v k hk)
  · obtain rfl := Bool.eq_not_of_ne hv
    rw [State.depositEvent_registry, State.registry_not_setRegistry] at hk
    exact List.mem_append_left _ (h _ k hk)

/-- A turn of the promotion loop announces the key it writes. -/
theorem promoteOne (h : s.KeysAnnounced) (w i : ProposalIndex) :
    (Treasury.promoteOne w s i).KeysAnnounced := by
  intro v k hk
  rw [promoteOne_events]
  cases v with
  | false =>
    rw [State.registry_false, promoteOne_proposals] at hk
    rcases hwi : s.waitingProposals.items i with _ | p <;> rw [hwi] at hk
    · exact List.mem_append_left _ (h false k (by simpa using hk))
    · simp only [Option.toList_some, Registry.pushAll_cons, Registry.pushAll_nil,
        Registry.push_items] at hk
      split at hk
      · subst k; simp [announcement]
      · exact List.mem_append_left _ (h false k hk)
  | true =>
    simp only [State.registry_true, promoteOne_waitingProposals, Function.update_apply] at hk
    split at hk
    · exact absurd rfl hk
    · exact List.mem_append_left _ (h true k hk)

theorem promoteWaiting (h : s.KeysAnnounced) : (Treasury.promoteWaiting s).KeysAnnounced := by
  suffices key : ∀ (w : ProposalIndex) (l : List Nat) (t : State cfg), t.KeysAnnounced →
      (l.foldl (fun s i => Treasury.promoteOne w s (UInt32.ofNat i)) t).KeysAnnounced from
    key _ _ _ h
  intro w l
  induction l with
  | nil => exact fun _ ht => ht
  | cons k l ih => exact fun t ht => ih _ (ht.promoteOne w _)

theorem spendFunds (h : s.KeysAnnounced) : (Treasury.spendFunds s).1.KeysAnnounced := by
  have hset : s.settled.KeysAnnounced := h.mono
    (fun w k hk => by
      cases w with
      | false =>
        simp only [State.registry_false, State.settleImbalance_proposals, payout_proposals] at hk
        obtain ⟨p', hp'⟩ := Option.ne_none_iff_exists'.1 hk
        obtain ⟨p, hp, -⟩ := firstFit_items_some _ _ _ hp'
        simp [hp]
      | true => simpa using hk)
    (fun e he => by simpa using mem_payout_events s he)
  rw [spendFunds_fst]
  exact hset.promoteWaiting.depositEvent _

/-- Every step keeps every stored proposal announced. -/
theorem step (h : s.KeysAnnounced) (a : Action) : (Treasury.step s a).KeysAnnounced := by
  cases a with
  | dispatch call =>
    cases call with
    | proposeSpend origin value beneficiary chunks =>
      rcases step_proposeSpend s origin value beneficiary chunks with
        h' | ⟨ledger, p, -, -, -, -, -, h'⟩ <;> rw [h']
      · exact h
      · exact h.push ledger _ p
    | rejectProposal origin j =>
      rcases step_rejectProposal s origin j with h' | ⟨p, -, h'⟩
      · rw [h']; exact h
      · refine h.mono (fun w k hk => ?_) fun e he => (step_dispatch_quietAfter s _).mem_events he
        rw [h'] at hk
        cases w with
        | false =>
          simp only [State.registry_false, State.depositEvent_proposals,
            State.onUnbalanced_proposals, Registry.remove_items] at hk
          split at hk
          · exact absurd rfl hk
          · exact hk
        | true => simpa using hk
    | approveProposal origin j =>
      rcases step_approveProposal s origin j with h' | ⟨approvals, -, -, -, h'⟩ <;> rw [h'] <;>
        exact h
  | nextBlock =>
    rw [step_nextBlock]
    split
    · exact spendFunds h
    · exact h

end State.KeysAnnounced

/-! ## Runs -/

/-- Every step keeps the log's account of the storage. -/
theorem State.Announced.step {s : State cfg} (h : s.Announced) (a : Action) :
    (Treasury.step s a).Announced := by
  obtain ⟨t, ht, hta⟩ := step_events s a
  refine ⟨h.keys.step a, ?_⟩
  rw [ht]
  refine awardsAnnounced_append h.awards fun e he i hi => ?_
  obtain ⟨x, hx, rfl⟩ := hta e he i hi
  rw [awardedEvent_awards, beq_iff_eq] at hi
  subst hi
  obtain ⟨p, hp, -⟩ := stepPaid_some hx
  exact h.keys false x.1 (by simp [hp])

theorem State.announced_genesis (l : Ledger) : (genesis cfg l).Announced :=
  ⟨fun w _ hk => by cases w <;> exact absurd rfl hk, fun _ _ _ hn => by simp [genesis] at hn⟩

theorem State.Announced.exec {s : State cfg} (h : s.Announced) (run : List Action) :
    (Treasury.exec s run).Announced := by
  induction run generalizing s with
  | nil => exact h
  | cons a run ih => exact ih (h.step a)

/-- In every run from genesis through its first block, where `frame_system` records every event,
whatever the counters do, every key of `Proposals` holding a proposal has had its `Proposed`
event and every key of `WaitingProposals` its `WaitingProposed` event, and every
`Awarded(i, ..)` in the log comes after a `Proposed(i)`: no payment is made for an index the log
has not announced. -/
theorem awarded_after_proposed (l : Ledger) (run : List Action) :
    let s := exec (genesis cfg l) (.nextBlock :: run)
    (∀ k, s.proposals.items k ≠ none → Event.proposed k ∈ s.events) ∧
    (∀ k, s.waitingProposals.items k ≠ none → Event.waitingProposed k ∈ s.events) ∧
    ∀ (n : Nat) (i : ProposalIndex) (v : Nat) (b : AccountId),
      s.events[n]? = some (.awarded i v b) → ∃ m < n, s.events[m]? = some (.proposed i) :=
  let h := (State.announced_genesis l).exec (.nextBlock :: run)
  ⟨h.keys false, h.keys true, fun n i v b hn => h.awards n _ i hn (by simp [Event.awards])⟩

/-! ## Payments go to the proposal stored at their index -/

theorem Proposal.with_remainingOccurs_trans {p q r : Proposal}
    (h₁ : { p with remainingOccurs := q.remainingOccurs } = q)
    (h₂ : { q with remainingOccurs := r.remainingOccurs } = r) :
    { p with remainingOccurs := r.remainingOccurs } = r :=
  (congrArg (fun x : Proposal => { x with remainingOccurs := r.remainingOccurs }) h₁).trans h₂

/-- Key `i` of `Proposals` lies below `ProposalCount` and holds `p` with at most its
`remaining_occurs` changed, or nothing. -/
structure State.KeyHolds (s : State cfg) (i : ProposalIndex) (p : Proposal) : Prop where
  wf : s.Wf
  lt : i.toNat < s.proposals.count.toNat
  items : ∀ q, s.proposals.items i = some q → { p with remainingOccurs := q.remainingOccurs } = q

namespace State.KeyHolds

variable {s : State cfg} {i : ProposalIndex} {p : Proposal}

/-- A payment at `i` pays `p`'s value to `p`'s beneficiary. -/
theorem paid_eq (h : s.KeyHolds i p) {a : Action} {x : ProposalIndex × Proposal}
    (hx : x ∈ stepPaid s a) (hi : x.1 = i) :
    x.2.value = p.value ∧ x.2.beneficiary = p.beneficiary := by
  obtain ⟨q, hq, hqx⟩ := stepPaid_some hx
  have h' := Proposal.with_remainingOccurs_trans (h.items q (hi ▸ hq)) hqx
  exact ⟨(congrArg Proposal.value h').symm, (congrArg Proposal.beneficiary h').symm⟩

/-- A step that wraps no counter writes no other proposal at `i`: the key is below the counter,
and a write goes to the key the counter names. -/
theorem step (h : s.KeyHolds i p) (a : Action) (ha : a.Fits s) :
    (Treasury.step s a).KeyHolds i p :=
  have hk := stepKeeps s h.wf a ha
  ⟨hk.wf, Nat.lt_of_lt_of_le h.lt hk.count_le, fun q hq => by
    rcases hk.proposals i q hq with ⟨q₀, hq₀, hq₀q⟩ | ⟨-, hle⟩
    · exact Proposal.with_remainingOccurs_trans (h.items q₀ hq₀) hq₀q
    · exact absurd h.lt (Nat.not_lt.2 hle)⟩

/-- Over a run that wraps no counter, every `Awarded(i, v, b)` logged pays `p`'s value to `p`'s
beneficiary. -/
theorem exec (h : s.KeyHolds i p) {run : List Action} (hrun : NoOverflow s run) :
    ∃ t, (Treasury.exec s run).events = s.events ++ t ∧
      ∀ v b, Event.awarded i v b ∈ t → v = p.value ∧ b = p.beneficiary := by
  induction run generalizing s with
  | nil => exact ⟨[], (List.append_nil _).symm, fun _ _ hvb => absurd hvb (List.not_mem_nil _)⟩
  | cons a run ih =>
    obtain ⟨t₁, ht₁, ha₁⟩ := step_events s a
    obtain ⟨t₂, ht₂, ha₂⟩ := ih (h.step a hrun.1) hrun.2
    refine ⟨t₁ ++ t₂, by rw [exec_cons, ht₂, ht₁, List.append_assoc], fun v b hvb => ?_⟩
    rcases List.mem_append.1 hvb with hvb | hvb
    · obtain ⟨x, hx, hxe⟩ := ha₁ _ hvb i (by simp [Event.awards])
      simp only [awardedEvent, Event.awarded.injEq] at hxe
      obtain ⟨hi, rfl, rfl⟩ := hxe
      exact h.paid_eq hx hi
    · exact ha₂ v b hvb

end State.KeyHolds

/-- In a run from genesis whose `u32` counters never wrap, once a proposal `p` is stored at index
`i` of `Proposals`, every `Awarded(i, v, b)` the rest of the run logs pays `v = p.value` to
`b = p.beneficiary`: no other proposal is ever stored at `i`. -/
theorem awarded_pays_stored (l : Ledger) (run₁ run₂ : List Action) (i : ProposalIndex)
    (p : Proposal) (hrun : NoOverflow (genesis cfg l) (run₁ ++ run₂))
    (hp : (exec (genesis cfg l) run₁).proposals.items i = some p) :
    let s := exec (genesis cfg l) run₁
    ∀ v b, Event.awarded i v b ∈ (exec s run₂).events.drop s.events.length →
      v = p.value ∧ b = p.beneficiary := by
  intro s v b hvb
  rw [noOverflow_append] at hrun
  have hs := exec_wf (genesis_wf l) hrun.1
  have h : s.KeyHolds i p := ⟨hs, hs.proposals i fun h' => Option.noConfusion (h'.symm.trans hp),
    fun q hq => by obtain rfl := Option.some.inj (hq.symm.trans hp); rfl⟩
  obtain ⟨t, ht, hta⟩ := h.exec hrun.2
  rw [ht, List.drop_left] at hvb
  exact hta v b hvb

/-- A two-chunk proposal of value 100 to account 2, approved and paid once in the mock runtime:
its payment is the chunk of 50 to account 2. -/
theorem awarded_pays_stored_mock :
    let run₁ : List Action := [.dispatch (.proposeSpend (.signed 1) 100 2 2)]
    let run₂ : List Action := [.dispatch (.approveProposal .root 0), .nextBlock, .nextBlock]
    let s := exec (genesis mockConfig mockLedger) run₁
    NoOverflow (genesis mockConfig mockLedger) (run₁ ++ run₂) ∧
      s.proposals.items 0 = some ⟨1, 50, 2, 5, 2, 2⟩ ∧
      Event.awarded 0 50 2 ∈ (exec s run₂).events.drop s.events.length ∧
      ∀ v b, Event.awarded 0 v b ∈ (exec s run₂).events.drop s.events.length →
        v = 50 ∧ b = 2 :=
  have hrun : NoOverflow (genesis mockConfig mockLedger)
      ([Action.dispatch (.proposeSpend (.signed 1) 100 2 2)] ++
        [.dispatch (.approveProposal .root 0), .nextBlock, .nextBlock]) := by
    simp only [List.cons_append, List.nil_append, noOverflow_cons, noOverflow_nil, and_true]
    exact ⟨fun _ => by decide, trivial, fun _ => by decide, fun _ => by decide⟩
  have hp : (exec (genesis mockConfig mockLedger)
      [.dispatch (.proposeSpend (.signed 1) 100 2 2)]).proposals.items 0 =
        some ⟨1, 50, 2, 5, 2, 2⟩ := by decide
  ⟨hrun, hp, by decide, awarded_pays_stored mockLedger _ _ 0 _ hrun hp⟩

end Treasury
