-- SUMMARY: The greedy first-fit disbursement the spend cycle is meant to perform, with its budget accounting.
import Treasury.Model.Types

/-!
# Greedy first-fit disbursement

The reference the disbursement pass of `spend_funds` is compared with. The queue is walked in
order with a budget. An index whose proposal is absent is dropped. A proposal the budget covers
is paid: the budget falls by its value, `remaining_occurs` is decremented, and the proposal is
removed when that reaches `0` and stored again otherwise. Every other index is kept.

Which proposals are paid depends only on the proposals and the budget, so the walk is stated
without the ledger. What a payment does to the ledger (the bond is unreserved, the value is
minted) is `payAll`, a fold over the payments the walk made, in order.
-/

namespace Treasury

/-- The result of the walk: the indices kept in the queue, the payments made (index and the
proposal as read), the proposals left, and the budget left. -/
structure FirstFit where
  kept : List ProposalIndex
  paid : List (ProposalIndex × Proposal)
  proposals : Registry
  budget : Nat

/-- The proposals after paying the proposal `p` stored at `i`: `remaining_occurs` is decremented,
and the proposal is removed when that reaches `0` and stored again otherwise. -/
def Registry.settlePayment (r : Registry) (i : ProposalIndex) (p : Proposal) : Registry :=
  if p.remainingOccurs - 1 = 0 then r.remove i
  else r.insert i { p with remainingOccurs := p.remainingOccurs - 1 }

/-- Greedy first fit: walk `q` in order with the budget `b`. -/
def firstFit : Registry → Nat → List ProposalIndex → FirstFit
  | r, b, [] => ⟨[], [], r, b⟩
  | r, b, i :: q =>
    match r.items i with
    | none => firstFit r b q
    | some p =>
      if p.value ≤ b then
        let w := firstFit (r.settlePayment i p) (b - p.value) q
        { w with paid := (i, p) :: w.paid }
      else
        let w := firstFit r b q
        { w with kept := i :: w.kept }

/-- The ledger effects of the payments `paid`, in order: unreserve the bond of each, and mint
its value to the beneficiary, adding the imbalance the minting made to the running total. -/
def payAll (m : Nat) : Ledger × Nat → List (ProposalIndex × Proposal) → Ledger × Nat
  | x, [] => x
  | (l, imbalance), (_, p) :: rest =>
    let d := (l.unreserve p.proposer p.bond).1.depositCreating p.beneficiary p.value m
    payAll m (d.1, imbalance + d.2) rest

/-- The total value of a list of payments. -/
def paidValue (paid : List (ProposalIndex × Proposal)) : Nat :=
  (paid.map fun x => x.2.value).sum

@[simp] theorem paidValue_nil : paidValue [] = 0 := rfl
@[simp] theorem paidValue_cons (x : ProposalIndex × Proposal) (paid) :
    paidValue (x :: paid) = x.2.value + paidValue paid := rfl

/-! ## Ledger effects -/

section

variable (m : Nat)

/-- Minting never makes a larger imbalance than the values paid. -/
theorem payAll_imbalance_le (l : Ledger) (imbalance : Nat) (paid : List (ProposalIndex × Proposal)) :
    (payAll m (l, imbalance) paid).2 ≤ imbalance + paidValue paid := by
  induction paid generalizing l imbalance with
  | nil => exact Nat.le_add_right _ _
  | cons x paid ih =>
    have hd := Ledger.depositCreating_le (l.unreserve x.2.proposer x.2.bond).1 x.2.beneficiary
      x.2.value m
    have := ih ((l.unreserve x.2.proposer x.2.bond).1.depositCreating x.2.beneficiary x.2.value m).1
      (imbalance + ((l.unreserve x.2.proposer x.2.bond).1.depositCreating x.2.beneficiary
        x.2.value m).2)
    simp only [payAll, paidValue_cons]
    omega

/-- No payment takes funds from a free balance. -/
theorem free_le_payAll (l : Ledger) (imbalance : Nat) (paid : List (ProposalIndex × Proposal))
    (a : AccountId) : l.free a ≤ (payAll m (l, imbalance) paid).1.free a := by
  induction paid generalizing l imbalance with
  | nil => exact Nat.le_refl _
  | cons x paid ih =>
    exact Nat.le_trans (Nat.le_trans (l.free_le_unreserve _ a _)
      (Ledger.free_le_depositCreating _ _ a _ m)) (ih _ _)

end

/-! ## The walk -/

section

variable (r : Registry) (b : Nat) (i : ProposalIndex) (q : List ProposalIndex)

@[simp] theorem firstFit_nil : firstFit r b [] = ⟨[], [], r, b⟩ := rfl

theorem firstFit_cons_absent (h : r.items i = none) : firstFit r b (i :: q) = firstFit r b q := by
  simp [firstFit, h]

theorem firstFit_cons_pay {p : Proposal} (h : r.items i = some p) (hp : p.value ≤ b) :
    firstFit r b (i :: q) =
      let w := firstFit (r.settlePayment i p) (b - p.value) q
      { w with paid := (i, p) :: w.paid } := by
  simp [firstFit, h, hp]

theorem firstFit_cons_keep {p : Proposal} (h : r.items i = some p) (hp : b < p.value) :
    firstFit r b (i :: q) =
      let w := firstFit r b q
      { w with kept := i :: w.kept } := by
  simp [firstFit, h, Nat.not_le.2 hp]

/-- The kept indices are a subsequence of the queue, in queue order. -/
theorem firstFit_kept_sublist : (firstFit r b q).kept.Sublist q := by
  induction q generalizing r b with
  | nil => exact List.Sublist.slnil
  | cons i q ih =>
    rcases h : r.items i with _ | p
    · rw [firstFit_cons_absent _ _ _ _ h]; exact (ih _ _).cons i
    · by_cases hp : p.value ≤ b
      · rw [firstFit_cons_pay _ _ _ _ h hp]; exact (ih _ _).cons i
      · rw [firstFit_cons_keep _ _ _ _ h (by omega)]; exact (ih _ _).cons₂ i

/-- The budget is split exactly between the payments and what is left: no payment is larger
than the budget that remained when it was made. -/
theorem firstFit_budget : paidValue (firstFit r b q).paid + (firstFit r b q).budget = b := by
  induction q generalizing r b with
  | nil => simp
  | cons i q ih =>
    rcases h : r.items i with _ | p
    · rw [firstFit_cons_absent _ _ _ _ h]; exact ih _ _
    · by_cases hp : p.value ≤ b
      · rw [firstFit_cons_pay _ _ _ _ h hp]
        have := ih (r.settlePayment i p) (b - p.value)
        simp only [paidValue_cons]
        omega
      · rw [firstFit_cons_keep _ _ _ _ h (by omega)]; exact ih _ _

/-- A proposal the budget does not cover is never paid, so it stays as it is. -/
theorem firstFit_items_of_lt {j : ProposalIndex} {p : Proposal} (hj : r.items j = some p)
    (hb : b < p.value) : (firstFit r b q).proposals.items j = some p := by
  induction q generalizing r b with
  | nil => exact hj
  | cons i q ih =>
    rcases h : r.items i with _ | p'
    · rw [firstFit_cons_absent _ _ _ _ h]; exact ih r b hj hb
    · by_cases hp : p'.value ≤ b
      · rw [firstFit_cons_pay _ _ _ _ h hp]
        have hij : i ≠ j := by rintro rfl; simp only [hj, Option.some.injEq] at h; subst h; omega
        refine ih _ _ ?_ (by omega)
        unfold Registry.settlePayment
        split <;> simp [Registry.remove_items, Registry.insert_items, hij.symm, hj]
      · rw [firstFit_cons_keep _ _ _ _ h (by omega)]; exact ih r b hj hb

/-- Every kept index still has its proposal at the end of the walk. -/
theorem firstFit_kept_present {j : ProposalIndex} (hj : j ∈ (firstFit r b q).kept) :
    (firstFit r b q).proposals.items j ≠ none := by
  induction q generalizing r b with
  | nil => simp at hj
  | cons i q ih =>
    rcases h : r.items i with _ | p
    · rw [firstFit_cons_absent _ _ _ _ h] at hj ⊢; exact ih _ _ hj
    · by_cases hp : p.value ≤ b
      · rw [firstFit_cons_pay _ _ _ _ h hp] at hj ⊢; exact ih _ _ hj
      · rw [firstFit_cons_keep _ _ _ _ h (by omega)] at hj ⊢
        rcases List.mem_cons.1 hj with rfl | hj
        · simp [firstFit_items_of_lt r b q h (by omega)]
        · exact ih _ _ hj

@[simp] theorem settlePayment_count (p : Proposal) : (r.settlePayment i p).count = r.count := by
  unfold Registry.settlePayment; split <;> rfl

/-- A payment only writes the key it pays, and leaves there the same proposal with another
`remaining_occurs`, or nothing. -/
theorem settlePayment_items (p : Proposal) (k : ProposalIndex) :
    (r.settlePayment i p).items k =
      if k = i then
        (if p.remainingOccurs - 1 = 0 then none
         else some { p with remainingOccurs := p.remainingOccurs - 1 })
      else r.items k := by
  unfold Registry.settlePayment
  split <;> simp_all [Registry.remove_items, Registry.insert_items]

@[simp] theorem firstFit_count : (firstFit r b q).proposals.count = r.count := by
  induction q generalizing r b with
  | nil => rfl
  | cons i q ih =>
    rcases h : r.items i with _ | p
    · rw [firstFit_cons_absent _ _ _ _ h, ih]
    · by_cases hp : p.value ≤ b
      · rw [firstFit_cons_pay _ _ _ _ h hp, ih, settlePayment_count]
      · rw [firstFit_cons_keep _ _ _ _ h (by omega), ih]

/-- What the walk leaves at a key is the proposal that was there, with at most its
`remaining_occurs` changed. -/
theorem firstFit_items_some {k : ProposalIndex} {p' : Proposal}
    (hk : (firstFit r b q).proposals.items k = some p') :
    ∃ p, r.items k = some p ∧ { p with remainingOccurs := p'.remainingOccurs } = p' := by
  induction q generalizing r b p' with
  | nil => exact ⟨p', hk, rfl⟩
  | cons i q ih =>
    rcases h : r.items i with _ | p
    · rw [firstFit_cons_absent _ _ _ _ h] at hk; exact ih _ _ hk
    · by_cases hp : p.value ≤ b
      · rw [firstFit_cons_pay _ _ _ _ h hp] at hk
        obtain ⟨p₁, h₁, hp₁⟩ := ih _ _ hk
        rw [settlePayment_items] at h₁
        split at h₁
        · subst k
          split at h₁
          · cases h₁
          · cases h₁; exact ⟨p, h, hp₁⟩
        · exact ⟨p₁, h₁, hp₁⟩
      · rw [firstFit_cons_keep _ _ _ _ h (by omega)] at hk; exact ih _ _ hk

/-- Each index of the queue is kept, paid or dropped: the kept copies of `j` and the payments
at `j` together are at most its copies in the queue. -/
theorem firstFit_count_le (j : ProposalIndex) :
    (firstFit r b q).kept.count j + (firstFit r b q).paid.countP (fun x => x.1 == j) ≤
      q.count j := by
  induction q generalizing r b with
  | nil => simp
  | cons i q ih =>
    rcases h : r.items i with _ | p
    · rw [firstFit_cons_absent _ _ _ _ h, List.count_cons]
      have := ih r b; omega
    · by_cases hp : p.value ≤ b
      · rw [firstFit_cons_pay _ _ _ _ h hp, List.count_cons]
        have := ih (r.settlePayment i p) (b - p.value)
        simp only [List.countP_cons]
        omega
      · rw [firstFit_cons_keep _ _ _ _ h (by omega)]
        dsimp only
        rw [List.count_cons, List.count_cons]
        have := ih r b; omega

/-- The walk pays no key that held no proposal. -/
theorem firstFit_paid_of_none {j : ProposalIndex} (hj : r.items j = none) :
    (firstFit r b q).paid.countP (fun x => x.1 == j) = 0 := by
  induction q generalizing r b with
  | nil => rfl
  | cons i q ih =>
    rcases h : r.items i with _ | p
    · rw [firstFit_cons_absent _ _ _ _ h]; exact ih _ _ hj
    · by_cases hp : p.value ≤ b
      · have hij : i ≠ j := by rintro rfl; simp [hj] at h
        rw [firstFit_cons_pay _ _ _ _ h hp]
        simp only [List.countP_cons, beq_iff_eq, hij, if_false, Nat.add_zero]
        exact ih _ _ (by rw [settlePayment_items, if_neg hij.symm, hj])
      · rw [firstFit_cons_keep _ _ _ _ h (by omega)]; exact ih _ _ hj

end

end Treasury
