-- SUMMARY: Registries as the counters are meant to keep them: every key below the counter, the entries in key order, and pushing a list of proposals.
import Treasury.Model.Types

/-!
# Registries

A registry is meant to keep every key below its counter, so that `push` always writes to a free
key. Under that invariant the entries of a registry are `toList`, read in key order below the
counter, and pushing a list of proposals places them at consecutive fresh keys. `All` says that
every entry satisfies a predicate and `total` sums a weight over the entries; both follow each
write.

The counter is a `u32` incremented without a check: these facts hold while it does not wrap,
which every lemma here assumes explicitly as a bound on `toNat`.
-/

namespace Treasury

/-! ## `u32` arithmetic -/

theorem UInt32.toNat_add_of_lt {a b : UInt32} (h : a.toNat + b.toNat < 2 ^ 32) :
    (a + b).toNat = a.toNat + b.toNat := by
  rw [UInt32.toNat_add]; exact Nat.mod_eq_of_lt h

theorem UInt32.toNat_add_one {a : UInt32} (h : a.toNat + 1 < 2 ^ 32) :
    (a + 1).toNat = a.toNat + 1 :=
  UInt32.toNat_add_of_lt h

namespace Registry

variable (r : Registry) (p : Proposal) (k : ProposalIndex)

/-- Every key with an entry lies below the counter. -/
def Bounded : Prop := ∀ k, r.items k ≠ none → k.toNat < r.count.toNat

/-- The entries below the counter, in key order. -/
def toList : List Proposal :=
  (List.range r.count.toNat).filterMap fun i => r.items (UInt32.ofNat i)

/-- Push the proposals of `ps` one after the other. -/
def pushAll (ps : List Proposal) : Registry := ps.foldl push r

theorem Bounded.items_eq_none {r : Registry} (h : r.Bounded) {k : ProposalIndex}
    (hk : r.count.toNat ≤ k.toNat) : r.items k = none := by
  by_contra hne
  exact absurd (h k hne) (Nat.not_lt.2 hk)

theorem push_items_toNat (j : ProposalIndex) :
    (r.push p).items j = if j.toNat = r.count.toNat then some p else r.items j := by
  rw [push_items]; simp only [UInt32.ext_iff]

theorem Bounded.push {r : Registry} (h : r.Bounded) (p : Proposal)
    (hc : r.count.toNat + 1 < 2 ^ 32) : (r.push p).Bounded := by
  intro j hj
  rw [push_count, UInt32.toNat_add_one hc]
  rw [push_items_toNat] at hj
  split at hj
  · omega
  · exact Nat.lt_succ_of_lt (h j hj)

theorem Bounded.remove {r : Registry} (h : r.Bounded) (k : ProposalIndex) : (r.remove k).Bounded := by
  intro j hj
  rw [remove_items] at hj
  split at hj
  · exact absurd rfl hj
  · exact h j hj

theorem Bounded.insert {r : Registry} (h : r.Bounded) {k : ProposalIndex}
    (hk : r.items k ≠ none) (p : Proposal) : (r.insert k p).Bounded := by
  intro j hj
  rw [insert_items] at hj
  split at hj
  · subst j; exact h k hk
  · exact h j hj

@[simp] theorem pushAll_nil : r.pushAll [] = r := rfl

@[simp] theorem pushAll_cons (ps : List Proposal) : r.pushAll (p :: ps) = (r.push p).pushAll ps :=
  rfl

theorem pushAll_count (ps : List Proposal) :
    (r.pushAll ps).count.toNat = (r.count.toNat + ps.length) % 2 ^ 32 := by
  induction ps generalizing r with
  | nil => simp [Nat.mod_eq_of_lt r.count.toNat_lt]
  | cons p ps ih =>
    have h1 : (1 : UInt32).toNat = 1 := rfl
    rw [pushAll_cons, ih, push_count, UInt32.toNat_add, h1, List.length_cons]
    show (_ % 2 ^ 32 + _) % 2 ^ 32 = _
    rw [Nat.mod_add_mod, Nat.add_assoc, Nat.add_comm 1]

/-- Pushing `ps` onto a bounded registry whose counter does not wrap places `ps[j]` at the
fresh key `count + j` and leaves every other key as it was. -/
theorem pushAll_items {r : Registry} (hr : r.Bounded) (ps : List Proposal)
    (hc : r.count.toNat + ps.length < 2 ^ 32) (k : ProposalIndex) :
    (r.pushAll ps).items k =
      if r.count.toNat ≤ k.toNat then ps[k.toNat - r.count.toNat]? else r.items k := by
  induction ps generalizing r with
  | nil =>
    simp only [pushAll_nil, List.getElem?_nil]
    split
    · exact hr.items_eq_none ‹_›
    · rfl
  | cons p ps ih =>
    simp only [List.length_cons] at hc
    have hc1 : r.count.toNat + 1 < 2 ^ 32 := by omega
    rw [pushAll_cons, ih (hr.push p hc1) (by rw [push_count, UInt32.toNat_add_one hc1]; omega),
      push_count, UInt32.toNat_add_one hc1, push_items_toNat]
    by_cases h1 : r.count.toNat + 1 ≤ k.toNat
    · rw [if_pos h1, if_pos (by omega),
        show k.toNat - r.count.toNat = (k.toNat - (r.count.toNat + 1)) + 1 by omega,
        List.getElem?_cons_succ]
    · rw [if_neg h1]
      by_cases h2 : k.toNat = r.count.toNat
      · rw [if_pos h2, if_pos (by omega), h2, Nat.sub_self, List.getElem?_cons_zero]
      · rw [if_neg h2, if_neg (by omega)]

theorem Bounded.pushAll {r : Registry} (hr : r.Bounded) (ps : List Proposal)
    (hc : r.count.toNat + ps.length < 2 ^ 32) : (r.pushAll ps).Bounded := by
  intro k hk
  rw [pushAll_count, Nat.mod_eq_of_lt hc]
  rw [pushAll_items hr ps hc] at hk
  split at hk
  · rename_i h
    have := (List.getElem?_eq_none_iff.not.1 hk)
    omega
  · exact Nat.lt_of_lt_of_le (hr k hk) (Nat.le_add_right _ _)

/-- On a bounded registry, `toList` holds every entry. -/
theorem Bounded.mem_toList {r : Registry} (h : r.Bounded) {k : ProposalIndex} {p : Proposal}
    (hk : r.items k = some p) : p ∈ r.toList := by
  have hlt := h k (by simp [hk])
  refine List.mem_filterMap.2 ⟨k.toNat, List.mem_range.2 hlt, ?_⟩
  rw [show UInt32.ofNat k.toNat = k from UInt32.toNat.inj (UInt32.toNat_ofNat_of_lt k.toNat_lt), hk]

/-- Pushing `ps` onto a bounded registry whose counter does not wrap places `ps[j]` at the
fresh key `count + j`. -/
theorem pushAll_items_add {r : Registry} (hr : r.Bounded) (ps : List Proposal)
    (hc : r.count.toNat + ps.length < 2 ^ 32) {j : Nat} (hj : j < ps.length) :
    r.items (r.count + UInt32.ofNat j) = none ∧
      (r.pushAll ps).items (r.count + UInt32.ofNat j) = some ps[j] := by
  have hj' : (r.count + UInt32.ofNat j).toNat = r.count.toNat + j := by
    rw [UInt32.toNat_add_of_lt] <;> rw [UInt32.toNat_ofNat_of_lt (show _ < 2 ^ 32 by omega)]; omega
  refine ⟨hr.items_eq_none (by omega), ?_⟩
  rw [pushAll_items hr ps hc, if_pos (by omega), hj', Nat.add_sub_cancel_left,
    List.getElem?_eq_getElem hj]

/-- Pushing `n` copies of one proposal onto the empty registry, with no wrap, counts `n` and
fills the keys below `n`. -/
theorem pushAll_replicate_empty {n : Nat} (hn : n < 2 ^ 32) :
    (empty.pushAll (List.replicate n p)).count.toNat = n ∧
      ∀ k : ProposalIndex, k.toNat < n → (empty.pushAll (List.replicate n p)).items k = some p := by
  have hc : empty.count.toNat + (List.replicate n p).length < 2 ^ 32 := by simpa using hn
  refine ⟨by rw [pushAll_count]; simpa using Nat.mod_eq_of_lt hn, fun k hk => ?_⟩
  rw [pushAll_items (fun _ h => absurd rfl h) _ hc]
  simp [hk]

/-! ## Writes to fresh keys -/

/-- What `r'` may hold compared with `r`: each of its entries either was in `r` at the same key,
with at most `remaining_occurs` changed, or sits at a key that was empty and at or above the
counter of `r`. No entry of `r` is overwritten by another proposal. -/
def FreshWrites (r r' : Registry) : Prop :=
  ∀ k p', r'.items k = some p' →
    (∃ p, r.items k = some p ∧ { p with remainingOccurs := p'.remainingOccurs } = p') ∨
    (r.items k = none ∧ r.count.toNat ≤ k.toNat)

theorem FreshWrites.refl : r.FreshWrites r := fun _ p' h => .inl ⟨p', h, rfl⟩

theorem FreshWrites.of_empty {r' : Registry} (h : ∀ k, r'.items k = none) : r.FreshWrites r' :=
  fun k _ hk => absurd hk (by simp [h k])

theorem FreshWrites.remove : r.FreshWrites (r.remove k) := by
  intro j p' hj
  rw [remove_items] at hj
  split at hj
  · cases hj
  · exact .inl ⟨p', hj, rfl⟩

theorem FreshWrites.pushAll {r : Registry} (hr : r.Bounded) (ps : List Proposal)
    (hc : r.count.toNat + ps.length < 2 ^ 32) : r.FreshWrites (r.pushAll ps) := by
  intro k p' hk
  rw [pushAll_items hr ps hc] at hk
  split at hk
  · exact .inr ⟨hr.items_eq_none ‹_›, ‹_›⟩
  · exact .inl ⟨p', hk, rfl⟩

theorem FreshWrites.push {r : Registry} (hr : r.Bounded) (p : Proposal)
    (hc : r.count.toNat + 1 < 2 ^ 32) : r.FreshWrites (r.push p) :=
  FreshWrites.pushAll hr [p] hc

/-- An empty key below the counter stays empty. -/
theorem FreshWrites.items_eq_none {r r' : Registry} (h : r.FreshWrites r') {k : ProposalIndex}
    (hk : r.items k = none) (hlt : k.toNat < r.count.toNat) : r'.items k = none := by
  rcases hk' : r'.items k with _ | p'
  · rfl
  · rcases h k p' hk' with ⟨p, hp, -⟩ | ⟨-, hle⟩
    · simp [hk] at hp
    · omega

end Registry

/-! ## Predicates and sums over the entries -/

namespace Registry

variable {r : Registry} {P : Proposal → Prop}

/-- Every proposal stored in `r` satisfies `P`. -/
def All (r : Registry) (P : Proposal → Prop) : Prop := ∀ k p, r.items k = some p → P p

theorem All.push (h : r.All P) {p : Proposal} (hp : P p) : (r.push p).All P := by
  intro k p' hk
  rw [push_items] at hk
  split at hk
  · cases hk; exact hp
  · exact h k p' hk

theorem All.remove (h : r.All P) (i : ProposalIndex) : (r.remove i).All P := by
  intro k p' hk
  rw [remove_items] at hk
  split at hk
  · cases hk
  · exact h k p' hk

theorem All.pushAll (h : r.All P) {ps : List Proposal} (hps : ∀ p ∈ ps, P p) :
    (r.pushAll ps).All P := by
  induction ps generalizing r with
  | nil => exact h
  | cons p ps ih =>
    exact ih (h.push (hps p (List.mem_cons_self p ps))) fun q hq =>
      hps q (List.mem_cons_of_mem p hq)

theorem All.mem_toList (h : r.All P) {p : Proposal} (hp : p ∈ r.toList) : P p := by
  obtain ⟨i, -, hi⟩ := List.mem_filterMap.1 hp
  exact h _ _ hi

/-- The sum of `w` over the entries below the counter. -/
def total (r : Registry) (w : Proposal → Nat) : Nat := (r.toList.map w).sum

theorem toList_push (p : Proposal) (hc : r.count.toNat + 1 < 2 ^ 32) :
    (r.push p).toList = r.toList ++ [p] := by
  unfold toList
  rw [push_count, UInt32.toNat_add_one hc, List.range_succ, List.filterMap_append]
  congr 1
  · refine List.filterMap_congr fun k hk => ?_
    have hk := List.mem_range.1 hk
    rw [push_items_toNat, if_neg (by rw [UInt32.toNat_ofNat_of_lt (show _ < 2 ^ 32 by omega)]; omega)]
  · simp [push_items_toNat, UInt32.toNat_ofNat_of_lt (Nat.lt_of_succ_lt hc)]

theorem toList_pushAll (ps : List Proposal) (hc : r.count.toNat + ps.length < 2 ^ 32) :
    (r.pushAll ps).toList = r.toList ++ ps := by
  induction ps generalizing r with
  | nil => simp
  | cons p ps ih =>
    simp only [List.length_cons] at hc
    have hc1 : r.count.toNat + 1 < 2 ^ 32 := by omega
    rw [pushAll_cons, ih (by rw [push_count, UInt32.toNat_add_one hc1]; omega), toList_push p hc1,
      List.append_assoc, List.singleton_append]

theorem total_pushAll (ps : List Proposal) (hc : r.count.toNat + ps.length < 2 ^ 32)
    (w : Proposal → Nat) : (r.pushAll ps).total w = r.total w + (ps.map w).sum := by
  simp [total, toList_pushAll ps hc]

theorem total_push (p : Proposal) (hc : r.count.toNat + 1 < 2 ^ 32) (w : Proposal → Nat) :
    (r.push p).total w = r.total w + w p := by
  simp [total, toList_push p hc]

theorem total_eq_zero (h : ∀ k, r.items k = none) (w : Proposal → Nat) : r.total w = 0 := by
  rw [total, toList, List.filterMap_eq_nil_iff.2 fun _ _ => h _]; rfl

/-- Clearing one position `m` of a duplicate-free list of positions takes its entry out of a
sum over the entries. -/
theorem sum_filterMap_clear {f g : Nat → Option Proposal} (w : Proposal → Nat) {l : List Nat}
    (hl : l.Nodup) {m : Nat} (hm : m ∈ l) {p : Proposal} (hf : f m = some p) (hg : g m = none)
    (hfg : ∀ k ∈ l, k ≠ m → g k = f k) :
    ((l.filterMap g).map w).sum + w p = ((l.filterMap f).map w).sum := by
  induction l with
  | nil => cases hm
  | cons a l ih =>
    obtain ⟨ha, hl⟩ := List.nodup_cons.1 hl
    by_cases hma : a = m
    · subst hma
      have hrest : l.filterMap g = l.filterMap f :=
        List.filterMap_congr fun k hk => hfg k (List.mem_cons_of_mem a hk) fun h => ha (h ▸ hk)
      simp only [List.filterMap_cons, hf, hg, hrest, List.map_cons, List.sum_cons]
      omega
    · have hm' : m ∈ l := (List.mem_cons.1 hm).resolve_left (Ne.symm hma)
      have := ih hl hm' fun k hk => hfg k (List.mem_cons_of_mem a hk)
      rw [List.filterMap_cons, List.filterMap_cons, hfg a (List.mem_cons_self a l) hma]
      cases f a <;> simp only [List.map_cons, List.sum_cons] <;> omega

/-- Removing a stored proposal takes its weight out of the total. -/
theorem total_remove (hr : r.Bounded) {i : ProposalIndex} {p : Proposal} (hi : r.items i = some p)
    (w : Proposal → Nat) : (r.remove i).total w + w p = r.total w := by
  have hlt := hr i (by simp [hi])
  have hofNat : ∀ k < r.count.toNat, UInt32.ofNat k = i ↔ k = i.toNat := fun k hk =>
    ⟨fun h => by rw [← h, UInt32.toNat_ofNat_of_lt (Nat.lt_trans hk r.count.toNat_lt)],
     fun h => by subst h; exact UInt32.toNat.inj (UInt32.toNat_ofNat_of_lt i.toNat_lt)⟩
  refine sum_filterMap_clear w (List.nodup_range _) (List.mem_range.2 hlt) ?_ ?_ ?_
  · rw [(hofNat _ hlt).2 rfl, hi]
  · rw [remove_items, if_pos ((hofNat _ hlt).2 rfl)]
  · intro k hk hne
    rw [remove_items, if_neg (mt (hofNat k (List.mem_range.1 hk)).1 hne)]

end Registry

end Treasury
