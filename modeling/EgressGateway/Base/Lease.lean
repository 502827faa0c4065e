import Mathlib.Data.List.Nodup
import Mathlib.Data.List.Pairwise

-- First-fit allocation of numbered slots. Slots are unique within a group, and an owner holds at
-- most one lease over all groups.

structure Lease (K G : Type) where
  owner : K
  group : G
  slot  : Nat
  deriving DecidableEq

namespace Lease

variable {K G : Type} [DecidableEq K] [DecidableEq G]

def occupied (g : G) (ls : List (Lease K G)) : List Nat :=
  (ls.filter (·.group = g)).map (·.slot)

def firstFree (n : Nat) (used : List Nat) : Option Nat :=
  (List.range n).find? (· ∉ used)

def release (k : K) (ls : List (Lease K G)) : List (Lease K G) :=
  ls.filter (·.owner ≠ k)

-- A lease in the same group is kept, a lease in another group is given up for a new one.
def acquire (n : Nat) (k : K) (g : G) (ls : List (Lease K G)) : Option (List (Lease K G) × Nat) :=
  match ls.find? (·.owner = k) with
  | some l => if l.group = g then some (ls, l.slot) else fresh
  | none   => fresh
where
  fresh := (firstFree n (occupied g (release k ls))).map fun i => (release k ls ++ [⟨k, g, i⟩], i)

structure Valid (n : Nat) (ls : List (Lease K G)) : Prop where
  owners   : (ls.map (·.owner)).Nodup
  bound    : ∀ l ∈ ls, l.slot < n
  disjoint : ls.Pairwise fun l l' => l.group = l'.group → l.slot ≠ l'.slot

variable {n i : Nat} {k : K} {g : G} {l : Lease K G} {ls ls' : List (Lease K G)}

theorem firstFree_some {used : List Nat} (h : firstFree n used = some i) : i < n ∧ i ∉ used := by
  have hm := List.mem_of_find?_eq_some h
  have hp := List.find?_some h
  exact ⟨List.mem_range.mp hm, by simpa using hp⟩

omit [DecidableEq K] in
theorem mem_occupied : i ∈ occupied g ls ↔ ∃ l ∈ ls, l.group = g ∧ l.slot = i := by
  simp [occupied, and_assoc]

omit [DecidableEq G] in
theorem mem_release : l ∈ release k ls ↔ l ∈ ls ∧ l.owner ≠ k := by
  simp [release]

omit [DecidableEq K] [DecidableEq G] in
theorem valid_nil : Valid n ([] : List (Lease K G)) where
  owners   := List.nodup_nil
  bound    := by simp
  disjoint := List.Pairwise.nil

omit [DecidableEq G] in
theorem Valid.release (v : Valid n ls) : Valid n (release k ls) where
  owners   := v.owners.sublist (List.filter_sublist.map _)
  bound l h := v.bound l (mem_release.mp h).left
  disjoint := v.disjoint.sublist List.filter_sublist

omit [DecidableEq K] in
theorem Valid.snoc (v : Valid n ls) (hk : ∀ l ∈ ls, l.owner ≠ k) (hi : i < n)
    (hf : i ∉ occupied g ls) : Valid n (ls ++ [⟨k, g, i⟩]) where
  owners := by
    simp only [List.map_append, List.map_cons, List.map_nil]
    refine List.nodup_append.mpr ⟨v.owners, List.nodup_singleton _, ?_⟩
    intro a ha b hb he
    have ⟨l, hl, hla⟩ := List.mem_map.mp ha
    rw [List.mem_singleton] at hb
    exact hk l hl (hla.trans (he.trans hb))
  bound l h := by
    rcases List.mem_append.mp h with h | h
    · exact v.bound l h
    · rw [List.mem_singleton.mp h]; exact hi
  disjoint := by
    refine List.pairwise_append.mpr ⟨v.disjoint, List.pairwise_singleton _ _, ?_⟩
    intro a ha b hb hg hs
    rw [List.mem_singleton.mp hb] at hg hs
    exact hf (mem_occupied.mpr ⟨a, ha, hg, hs⟩)

-- What a request can do: nothing, or replace whatever the owner held by a fresh lease.
theorem acquire_cases (h : acquire n k g ls = some (ls', i)) :
    (ls' = ls ∧ ∃ l ∈ ls, l.owner = k ∧ l.group = g ∧ l.slot = i) ∨
    (ls' = release k ls ++ [⟨k, g, i⟩] ∧ i < n ∧ i ∉ occupied g (release k ls)) := by
  have fresh : acquire.fresh n k g ls = some (ls', i) →
      ls' = release k ls ++ [⟨k, g, i⟩] ∧ i < n ∧ i ∉ occupied g (release k ls) := by
    intro h
    have ⟨j, hj, he⟩ := Option.map_eq_some_iff.mp h
    obtain ⟨rfl, rfl⟩ := Prod.mk.inj he
    exact ⟨rfl, firstFree_some hj⟩
  unfold acquire at h
  split at h
  case h_1 l hl =>
    split at h
    case isTrue hg =>
      obtain ⟨rfl, rfl⟩ := Prod.mk.inj (Option.some.inj h)
      exact .inl ⟨rfl, l, List.mem_of_find?_eq_some hl, by simpa using List.find?_some hl, hg, rfl⟩
    case isFalse => exact .inr (fresh h)
  case h_2 => exact .inr (fresh h)

theorem Valid.acquire (v : Valid n ls) (h : acquire n k g ls = some (ls', i)) : Valid n ls' := by
  rcases acquire_cases h with ⟨rfl, _⟩ | ⟨rfl, hi, hf⟩
  · exact v
  · exact v.release.snoc (fun l hl => (mem_release.mp hl).right) hi hf

theorem acquire_mem (h : acquire n k g ls = some (ls', i)) : ⟨k, g, i⟩ ∈ ls' := by
  rcases acquire_cases h with ⟨rfl, l, hl, rfl, rfl, rfl⟩ | ⟨rfl, _, _⟩
  · exact hl
  · simp

-- The leases of other owners are neither touched nor invented.
theorem mem_acquire_of_ne (h : acquire n k g ls = some (ls', i)) (hk : l.owner ≠ k) :
    l ∈ ls' ↔ l ∈ ls := by
  rcases acquire_cases h with ⟨rfl, _⟩ | ⟨rfl, _, _⟩
  · rfl
  · have : l ≠ ⟨k, g, i⟩ := fun he => hk (he ▸ rfl)
    simp [mem_release, hk, this]

omit [DecidableEq K] [DecidableEq G] in
theorem Valid.owner_inj (v : Valid n ls) {l l' : Lease K G} (h : l ∈ ls) (h' : l' ∈ ls)
    (ho : l.owner = l'.owner) : l = l' :=
  List.inj_on_of_nodup_map v.owners h h' ho

theorem Valid.acquire_stable (v : Valid n ls) (h : Lease.acquire n k g ls = some (ls', i))
    (hl : l ∈ ls) (hk : l.owner = k) (hg : l.group = g) : i = l.slot := by
  unfold Lease.acquire at h
  split at h
  case h_1 l' hl' =>
    have hm := List.mem_of_find?_eq_some hl'
    have ho : l'.owner = k := by simpa using List.find?_some hl'
    cases v.owner_inj hm hl (ho.trans hk.symm)
    rw [if_pos hg] at h
    exact (Prod.mk.inj (Option.some.inj h)).right.symm
  case h_2 hn =>
    have := List.find?_eq_none.mp hn l hl
    simp [hk] at this

omit [DecidableEq K] [DecidableEq G] in
theorem Valid.slot_ne (v : Valid n ls) {l l' : Lease K G} (h : l ∈ ls) (h' : l' ∈ ls)
    (hne : l ≠ l') (hg : l.group = l'.group) : l.slot ≠ l'.slot := by
  have symm : Std.Symm fun l l' : Lease K G => l.group = l'.group → l.slot ≠ l'.slot :=
    ⟨fun _ _ hab hg hs => hab hg.symm hs.symm⟩
  exact v.disjoint.forall h h' hne hg

end Lease
