-- SUMMARY: The ledger under the treasury: free and reserved funds per account, with reservation, slashing, minting and settlement.
import Mathlib

/-!
# The ledger

The treasury moves funds only through `T::Currency`, a `ReservableCurrency` whose code is not
part of the pallet. This module models the operations the pallet calls, from the interface of
the spec (§4.4): every account holds a free and a reserved balance, reservation moves funds from
the first to the second, and unreservation and slashing act on at most what is reserved.

Balances (`BalanceOf<T, I>`) are natural numbers: the pallet's own arithmetic on them never
overflows, since each subtraction is guarded and `pot` saturates. Imbalances are kept as the
amounts they carry. Minting returns a positive imbalance of the
amount it credited; settlement withdraws a positive imbalance from an account and fails,
leaving the ledger as it was, when the withdrawal would take the account below the minimum
balance.
-/

namespace Treasury

/-- Account identifiers. -/
abbrev AccountId := Nat

/-- Modelled from the spec: the balances of `T::Currency`, a free and a reserved part for every
account. -/
structure Ledger where
  free : AccountId → Nat
  reserved : AccountId → Nat

namespace Ledger

variable (l : Ledger) (who a : AccountId) (value : Nat)

/-- Modelled from the spec: `reserve(who, value)` moves `value` from the free to the reserved
balance of `who`, and fails when the free balance is smaller. -/
def reserve : Option Ledger :=
  if value ≤ l.free who then
    some { free := Function.update l.free who (l.free who - value)
           reserved := Function.update l.reserved who (l.reserved who + value) }
  else none

/-- Modelled from the spec: `unreserve(who, value)` moves back at most what `who` has reserved,
and returns the part of `value` it could not move. -/
def unreserve : Ledger × Nat :=
  let actual := min value (l.reserved who)
  ({ free := Function.update l.free who (l.free who + actual)
     reserved := Function.update l.reserved who (l.reserved who - actual) }, value - actual)

/-- Modelled from the spec: `slash_reserved(who, value)` destroys at most what `who` has
reserved, and returns the negative imbalance it made and the part of `value` it could not
slash. -/
def slashReserved : Ledger × Nat × Nat :=
  let actual := min value (l.reserved who)
  ({ l with reserved := Function.update l.reserved who (l.reserved who - actual) },
    actual, value - actual)

/-- Modelled from the spec: `deposit_creating(who, value)` credits `value` to `who` and returns
the positive imbalance it made. Like the balances pallet, it credits nothing to an account that
does not exist yet when `value` is below the minimum balance. -/
def depositCreating (minimumBalance : Nat) : Ledger × Nat :=
  if value = 0 ∨ (l.free who + l.reserved who = 0 ∧ value < minimumBalance) then (l, 0)
  else ({ l with free := Function.update l.free who (l.free who + value) }, value)

/-- Modelled from the spec: `settle(who, imbalance, _, KeepAlive)` withdraws the positive
imbalance `value` from the free balance of `who`. It fails, withdrawing nothing, exactly when a
nonzero withdrawal would leave less than the minimum balance. -/
def settle (minimumBalance : Nat) : Option Ledger :=
  if value = 0 ∨ value + minimumBalance ≤ l.free who then
    some { l with free := Function.update l.free who (l.free who - value) }
  else none

/-- `make_free_balance_be(who, value)`, used only at genesis. -/
def makeFreeBalanceBe : Ledger :=
  { l with free := Function.update l.free who value }

/-! ## Effects on balances -/

theorem reserve_eq_some {l' : Ledger} (h : l.reserve who value = some l') :
    value ≤ l.free who ∧
      l'.free a = (if a = who then l.free who - value else l.free a) ∧
      l'.reserved a = (if a = who then l.reserved who + value else l.reserved a) := by
  unfold reserve at h
  split at h
  · cases h; simp [Function.update_apply, *]
  · cases h

theorem reserve_eq_none (h : l.reserve who value = none) : l.free who < value := by
  unfold reserve at h
  split at h <;> simp_all

@[simp] theorem unreserve_free :
    (l.unreserve who value).1.free a =
      if a = who then l.free who + min value (l.reserved who) else l.free a := by
  simp [unreserve, Function.update_apply]

@[simp] theorem unreserve_reserved :
    (l.unreserve who value).1.reserved a =
      if a = who then l.reserved who - min value (l.reserved who) else l.reserved a := by
  simp [unreserve, Function.update_apply]

@[simp] theorem slashReserved_free : (l.slashReserved who value).1.free = l.free := rfl

@[simp] theorem slashReserved_reserved :
    (l.slashReserved who value).1.reserved a =
      if a = who then l.reserved who - min value (l.reserved who) else l.reserved a := by
  simp [slashReserved, Function.update_apply]

/-- The imbalance `deposit_creating` returns is the amount it credited, at most `value`. -/
theorem depositCreating_le (m : Nat) : (l.depositCreating who value m).2 ≤ value := by
  unfold depositCreating; split <;> simp

@[simp] theorem depositCreating_reserved (m : Nat) :
    (l.depositCreating who value m).1.reserved = l.reserved := by
  unfold depositCreating; split <;> rfl

theorem depositCreating_free (m : Nat) :
    (l.depositCreating who value m).1.free a =
      if a = who then l.free who + (l.depositCreating who value m).2 else l.free a := by
  unfold depositCreating
  by_cases ha : a = who
  · subst ha; split <;> simp
  · split <;> simp [Function.update_apply, ha]

theorem free_le_unreserve : l.free a ≤ (l.unreserve who value).1.free a := by
  rw [unreserve_free]
  split_ifs with h
  · subst h; omega
  · exact Nat.le_refl _

theorem free_le_depositCreating (m : Nat) :
    l.free a ≤ (l.depositCreating who value m).1.free a := by
  rw [depositCreating_free]
  split_ifs with h
  · subst h; omega
  · exact Nat.le_refl _

/-- Settlement succeeds when the account keeps the minimum balance after the withdrawal. -/
theorem settle_isSome {m : Nat} (h : value = 0 ∨ value + m ≤ l.free who) :
    (l.settle who value m).isSome := by
  simp [settle, h]

end Ledger

end Treasury
