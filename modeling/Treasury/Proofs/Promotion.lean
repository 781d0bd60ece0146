-- SUMMARY: The promotion loop at the end of spend_funds pushes the waiting proposals, in key order, onto Proposals, and what its events say.
import Treasury.Model.Runtime
import Treasury.Spec.Registry

/-!
# Promotion of waiting proposals

The loop `for i in 0..w_proposals` at the end of `spend_funds` reads `WaitingProposalCount`
once, then at each key `i` pushes the waiting proposal found there, if any, onto `Proposals`,
sets `WaitingProposalCount` to `w_proposals - 1` and removes key `i`.

When every waiting key lies below `WaitingProposalCount`, which the counters keep in every run
where they do not wrap, the loop is `pushAll` of the waiting proposals in key order and leaves
`WaitingProposals` empty. The counter is left at `w_proposals - 1`, not `0`, which is harmless:
the next waiting proposal goes to that key, below the counter.
-/

namespace Treasury

variable {cfg : Config}

section

variable (w : ProposalIndex) (s : State cfg) (i : ProposalIndex)

theorem promoteOne_proposals :
    (promoteOne w s i).proposals = s.proposals.pushAll (s.waitingProposals.items i).toList := by
  unfold promoteOne; split <;> simp_all

theorem promoteOne_waitingProposals :
    (promoteOne w s i).waitingProposals = { count := w - 1, items := Function.update s.waitingProposals.items i none } := by
  unfold promoteOne; split <;> rfl

@[simp] theorem promoteOne_approvals : (promoteOne w s i).approvals = s.approvals := by
  unfold promoteOne; split <;> rfl

@[simp] theorem promoteOne_ledger : (promoteOne w s i).ledger = s.ledger := by
  unfold promoteOne; split <;> rfl

@[simp] theorem promoteOne_blockNumber : (promoteOne w s i).blockNumber = s.blockNumber := by
  unfold promoteOne; split <;> rfl

/-- Each turn emits `WaitingProposalTransfered(w_proposals)` and `Proposed(ProposalCount)`, whether
key `i` held a proposal or not. -/
theorem promoteOne_events :
    (promoteOne w s i).events =
      s.events ++ [.waitingProposalTransfered w, .proposed s.proposals.count] := by
  unfold promoteOne; split <;> simp

end

/-- Two waiting proposals are promoted in block `2`, each announced as transferred from the
waiting index `2`, the count, though they sat at keys `0` and `1`. The loop leaves the count at
`1`, so the promotion of block `4` walks the empty key `0` and announces `Proposed(2)` though it
inserts nothing; the proposal made next in block `4` is `Proposed(2)` again. -/
theorem promotion_events_mock :
    let s := exec (genesis mockConfig mockLedger)
      [.nextBlock, .dispatch (.proposeSpend (.signed 1) 10 2 1),
        .dispatch (.proposeSpend (.signed 1) 10 2 1)]
    let s' := exec s [.nextBlock, .nextBlock, .nextBlock, .dispatch (.proposeSpend (.signed 1) 10 2 1)]
    s.waitingProposals.items 2 = none ∧ Event.waitingProposalTransfered 2 ∈ s'.events ∧
      s'.events.count (.proposed 2) = 2 := by
  decide

/-- The first `n` turns of the loop push the waiting proposals at keys below `n`, in key order,
and empty those keys. -/
theorem foldl_promoteOne (w : ProposalIndex) (s : State cfg) (n : Nat) (hn : n ≤ w.toNat) :
    let s' := (List.range n).foldl (fun s i => promoteOne w s (UInt32.ofNat i)) s
    s'.proposals = s.proposals.pushAll
      ((List.range n).filterMap fun i => s.waitingProposals.items (UInt32.ofNat i)) ∧
    (∀ k, s'.waitingProposals.items k =
      if k.toNat < n then none else s.waitingProposals.items k) ∧
    s'.waitingProposals.count = (if n = 0 then s.waitingProposals.count else w - 1) ∧
    s'.approvals = s.approvals ∧ s'.ledger = s.ledger ∧ s'.blockNumber = s.blockNumber := by
  induction n with
  | zero => simp
  | succ n ih =>
    obtain ⟨hp, hw, -, ha, hl, hb⟩ := ih (by omega)
    have hn' : (UInt32.ofNat n).toNat = n :=
      UInt32.toNat_ofNat_of_lt (Nat.lt_of_lt_of_le (by omega) (Nat.le_of_lt w.toNat_lt))
    have hkey := hw (UInt32.ofNat n)
    rw [if_neg (by omega)] at hkey
    simp only [List.range_succ, List.foldl_append, List.foldl_cons, List.foldl_nil,
      List.filterMap_append, promoteOne_proposals, promoteOne_waitingProposals,
      promoteOne_approvals, promoteOne_ledger, promoteOne_blockNumber, hp, hkey, ha, hl, hb,
      Registry.pushAll, List.foldl_append]
    refine ⟨?_, fun k => ?_, by simp, trivial, trivial, trivial⟩
    · rcases h : s.waitingProposals.items (UInt32.ofNat n) with _ | p <;> simp [h]
    · rw [Function.update_apply, hw k]
      by_cases hk : k = UInt32.ofNat n
      · subst hk; simp [hn']
      · have : k.toNat ≠ n := fun h => hk (UInt32.toNat.inj (h.trans hn'.symm))
        simp only [hk, if_false]
        split <;> split <;> first | rfl | omega

/-- Whatever the waiting keys, the loop pushes the waiting proposals below the counter it read,
in key order, and empties those keys. -/
theorem promoteWaiting_registries (s : State cfg) :
    (promoteWaiting s).proposals = s.proposals.pushAll s.waitingProposals.toList ∧
    ∀ k, (promoteWaiting s).waitingProposals.items k =
      if k.toNat < s.waitingProposals.count.toNat then none else s.waitingProposals.items k :=
  let h := foldl_promoteOne s.waitingProposals.count s _ (Nat.le_refl _)
  ⟨h.1, h.2.1⟩

@[simp] theorem promoteWaiting_approvals (s : State cfg) :
    (promoteWaiting s).approvals = s.approvals :=
  (foldl_promoteOne s.waitingProposals.count s _ (Nat.le_refl _)).2.2.2.1

@[simp] theorem promoteWaiting_ledger (s : State cfg) : (promoteWaiting s).ledger = s.ledger :=
  (foldl_promoteOne s.waitingProposals.count s _ (Nat.le_refl _)).2.2.2.2.1

/-- From a waiting registry whose keys lie below its counter, the loop pushes every waiting
proposal, in key order, onto `Proposals`, and leaves `WaitingProposals` empty with its counter
at `w_proposals - 1`. -/
theorem promoteWaiting_eq (s : State cfg) (hw : s.waitingProposals.Bounded) :
    (promoteWaiting s).proposals = s.proposals.pushAll s.waitingProposals.toList ∧
    (∀ k, (promoteWaiting s).waitingProposals.items k = none) ∧
    (promoteWaiting s).waitingProposals.count =
      (if s.waitingProposals.count = 0 then 0 else s.waitingProposals.count - 1) ∧
    (promoteWaiting s).approvals = s.approvals ∧ (promoteWaiting s).ledger = s.ledger ∧
    (promoteWaiting s).blockNumber = s.blockNumber := by
  obtain ⟨hp, hk, hc, ha, hl, hb⟩ :=
    foldl_promoteOne s.waitingProposals.count s _ (Nat.le_refl _)
  refine ⟨hp, fun k => ?_, ?_, ha, hl, hb⟩
  · rw [promoteWaiting, hk k]
    split
    · rfl
    · exact hw.items_eq_none (Nat.not_lt.1 ‹_›)
  · rw [promoteWaiting, hc]
    by_cases h : s.waitingProposals.count = 0
    · simp [h]
    · have : s.waitingProposals.count.toNat ≠ 0 := fun h' => h (UInt32.toNat.inj h')
      simp [h, this]

/-- The loop reads `WaitingProposalCount` once: at `0` it walks no key, whatever
`WaitingProposals` holds. -/
theorem promoteWaiting_of_count_zero (s : State cfg) (h : s.waitingProposals.count = 0) :
    promoteWaiting s = s := by
  simp [promoteWaiting, h]

end Treasury
