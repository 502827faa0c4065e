import EgressGateway.Base.Lease
import EgressGateway.Base.Keyed

-- What the gateway load balancer is for, independently of how it is written down: every owner that
-- needs it holds a lease on a slot of its group and a probe, and every group that is in use has a
-- frontend and a backend.

open Keyed

structure Registry (K G : Type) where
  leases    : List (Lease K G) := []
  frontends : List G := []
  backends  : List G := []
  probes    : List K := []

namespace Registry

variable {K G : Type} [DecidableEq K] [DecidableEq G]

def require (n : Nat) (k : K) (g : G) (r : Registry K G) : Option (Registry K G × Nat) :=
  (Lease.acquire n k g r.leases).map fun (ls, i) =>
    ({ leases    := ls
       frontends := enroll g r.frontends
       backends  := enroll g r.backends
       probes    := enroll k r.probes }, i)

-- Gives up the lease and the probe of an owner.
def vacate (k : K) (r : Registry K G) : Registry K G :=
  { r with leases := Lease.release k r.leases, probes := r.probes.erase k }

-- Gives up the frontend and the backend of a group.
def close (g : G) (r : Registry K G) : Registry K G :=
  { r with frontends := r.frontends.erase g, backends := r.backends.erase g }

def dismiss (k : K) (g : G) (r : Registry K G) : Registry K G :=
  if g ∈ (Lease.release k r.leases).map (·.group) then r.vacate k else (r.vacate k).close g

structure Consistent (n : Nat) (r : Registry K G) : Prop where
  leases    : Lease.Valid n r.leases
  frontends : r.frontends.Nodup
  backends  : r.backends.Perm r.frontends
  probes    : r.probes.Nodup
  probed    : ∀ k, k ∈ r.probes ↔ k ∈ r.leases.map (·.owner)
  served    : ∀ l ∈ r.leases, l.group ∈ r.frontends

variable {n i : Nat} {k : K} {g : G} {r r' : Registry K G}

omit [DecidableEq K] [DecidableEq G] in
theorem Consistent.init : Consistent n ({} : Registry K G) where
  leases    := Lease.valid_nil
  frontends := List.nodup_nil
  backends  := .refl _
  probes    := List.nodup_nil
  probed    := by simp
  served    := by simp

theorem require_eq (h : require n k g r = some (r', i)) :
    Lease.acquire n k g r.leases = some (r'.leases, i) ∧
    r'.frontends = enroll g r.frontends ∧
    r'.backends = enroll g r.backends ∧
    r'.probes = enroll k r.probes := by
  have ⟨⟨ls, j⟩, hj, he⟩ := Option.map_eq_some_iff.mp h
  obtain ⟨rfl, rfl⟩ := Prod.mk.inj he
  exact ⟨hj, rfl, rfl, rfl⟩

theorem dismiss_of_mem (h : g ∈ (Lease.release k r.leases).map (·.group)) :
    r.dismiss k g = r.vacate k :=
  if_pos h

theorem dismiss_of_not_mem (h : g ∉ (Lease.release k r.leases).map (·.group)) :
    r.dismiss k g = (r.vacate k).close g :=
  if_neg h

@[simp]
theorem dismiss_leases : (dismiss k g r).leases = Lease.release k r.leases := by
  simp only [dismiss]
  split <;> rfl

@[simp]
theorem dismiss_probes : (dismiss k g r).probes = r.probes.erase k := by
  simp only [dismiss]
  split <;> rfl

theorem mem_owners_acquire {ls ls' : List (Lease K G)} {j : K}
    (h : Lease.acquire n k g ls = some (ls', i)) :
    j ∈ ls'.map (·.owner) ↔ j = k ∨ j ∈ ls.map (·.owner) := by
  simp only [List.mem_map]
  constructor
  case mp =>
    rintro ⟨l, hl, rfl⟩
    by_cases hk : l.owner = k
    · exact .inl hk
    · exact .inr ⟨l, (Lease.mem_acquire_of_ne h hk).mp hl, rfl⟩
  case mpr =>
    rintro (rfl | ⟨l, hl, rfl⟩)
    · exact ⟨_, Lease.acquire_mem h, rfl⟩
    · by_cases hk : l.owner = k
      · exact ⟨_, Lease.acquire_mem h, hk.symm⟩
      · exact ⟨l, (Lease.mem_acquire_of_ne h hk).mpr hl, rfl⟩

omit [DecidableEq G] in
theorem mem_owners_release {ls : List (Lease K G)} {j : K} :
    j ∈ (Lease.release k ls).map (·.owner) ↔ j ∈ ls.map (·.owner) ∧ j ≠ k := by
  simp only [List.mem_map, Lease.mem_release]
  constructor
  case mp =>
    rintro ⟨l, ⟨hl, hk⟩, rfl⟩
    exact ⟨⟨l, hl, rfl⟩, hk⟩
  case mpr =>
    rintro ⟨⟨l, hl, rfl⟩, hk⟩
    exact ⟨l, ⟨hl, hk⟩, rfl⟩

-- A lease after `require` is either the requested one or an old one.
theorem acquire_group {ls ls' : List (Lease K G)} {l : Lease K G}
    (h : Lease.acquire n k g ls = some (ls', i)) (hl : l ∈ ls') : l.group = g ∨ l ∈ ls := by
  rcases Lease.acquire_cases h with ⟨rfl, _⟩ | ⟨rfl, _, _⟩
  · exact .inr hl
  · rcases List.mem_append.mp hl with hl | hl
    · exact .inr (Lease.mem_release.mp hl).left
    · exact .inl (by rw [List.mem_singleton.mp hl])

theorem Consistent.require (c : Consistent n r) (h : require n k g r = some (r', i)) :
    Consistent n r' := by
  have ⟨ha, hf, hb, hp⟩ := require_eq h
  constructor
  case leases => exact c.leases.acquire ha
  case frontends => exact hf ▸ nodup_enroll c.frontends
  case backends => exact hf ▸ hb ▸ perm_enroll c.backends
  case probes => exact hp ▸ nodup_enroll c.probes
  case probed =>
    intro j
    rw [hp, mem_enroll, mem_owners_acquire ha, c.probed]
  case served =>
    intro l hl
    rw [hf, mem_enroll]
    exact (acquire_group ha hl).imp id (c.served l)

omit [DecidableEq G] in
theorem Consistent.vacate (c : Consistent n r) : Consistent n (r.vacate k) where
  leases    := c.leases.release
  frontends := c.frontends
  backends  := c.backends
  probes    := c.probes.erase _
  probed j  := by
    have hm : j ∈ r.probes.erase k ↔ j ∈ (Lease.release k r.leases).map (·.owner) := by
      rw [c.probes.mem_erase_iff, mem_owners_release, c.probed, and_comm]
    exact hm
  served l hl := c.served l (Lease.mem_release.mp hl).left

omit [DecidableEq K] in
theorem Consistent.close (c : Consistent n r) (hg : g ∉ r.leases.map (·.group)) :
    Consistent n (r.close g) where
  leases    := c.leases
  frontends := c.frontends.erase _
  backends  := c.backends.erase _
  probes    := c.probes
  probed    := c.probed
  served l hl := by
    have hne : l.group ≠ g := fun he => hg (List.mem_map.mpr ⟨l, hl, he⟩)
    exact c.frontends.mem_erase_iff.mpr ⟨hne, c.served l hl⟩

theorem Consistent.dismiss (c : Consistent n r) : Consistent n (r.dismiss k g) := by
  by_cases hg : g ∈ (Lease.release k r.leases).map (·.group)
  case pos => exact dismiss_of_mem hg ▸ c.vacate
  case neg => exact dismiss_of_not_mem hg ▸ c.vacate.close hg

-- Without frontends there is nothing at all.
omit [DecidableEq K] [DecidableEq G] in
theorem Consistent.eq_empty (c : Consistent n r) (h : r.frontends = []) : r = {} := by
  have hl : r.leases = [] := List.eq_nil_iff_forall_not_mem.mpr fun l hl => by
    have := c.served l hl
    simp [h] at this
  have hb : r.backends = [] := by
    have := c.backends
    rw [h] at this
    exact this.eq_nil
  have hp : r.probes = [] := List.eq_nil_iff_forall_not_mem.mpr fun k hk => by
    have := (c.probed k).mp hk
    simp [hl] at this
  cases r
  simp_all

theorem dismiss_empty : (({} : Registry K G).dismiss k g) = {} := by
  simp [dismiss, vacate, close, Lease.release]

-- No frontend outlives the last lease of its group. This takes owners that stay in one group.
def Tight (r : Registry K G) : Prop :=
  ∀ g, g ∈ r.frontends ↔ g ∈ r.leases.map (·.group)

omit [DecidableEq K] [DecidableEq G] in
theorem Tight.init : Tight ({} : Registry K G) := by
  simp [Tight]

theorem Tight.require (t : Tight r) (hk : ∀ l ∈ r.leases, l.owner = k → l.group = g)
    (h : require n k g r = some (r', i)) : Tight r' := by
  have ⟨ha, hf, _, _⟩ := require_eq h
  intro g'
  rw [hf, mem_enroll, t, List.mem_map, List.mem_map]
  constructor
  case mp =>
    rintro (rfl | ⟨l, hl, rfl⟩)
    · exact ⟨_, Lease.acquire_mem ha, rfl⟩
    · by_cases ho : l.owner = k
      · exact ⟨_, Lease.acquire_mem ha, (hk l hl ho).symm⟩
      · exact ⟨l, (Lease.mem_acquire_of_ne ha ho).mpr hl, rfl⟩
  case mpr =>
    rintro ⟨l, hl, rfl⟩
    exact (acquire_group ha hl).imp id fun hl => ⟨l, hl, rfl⟩

theorem Tight.dismiss (t : Tight r) (c : Consistent n r)
    (hk : ∀ l ∈ r.leases, l.owner = k → l.group = g) : Tight (r.dismiss k g) := by
  intro g'
  rw [dismiss_leases]
  by_cases hg : g ∈ (Lease.release k r.leases).map (·.group)
  case pos =>
    rw [dismiss_of_mem hg, show (r.vacate k).frontends = r.frontends from rfl, t]
    constructor
    case mp =>
      intro h
      have ⟨l, hl, hlg⟩ := List.mem_map.mp h
      by_cases ho : l.owner = k
      · exact hlg ▸ hk l hl ho ▸ hg
      · exact List.mem_map.mpr ⟨l, Lease.mem_release.mpr ⟨hl, ho⟩, hlg⟩
    case mpr =>
      intro h
      have ⟨l, hl, hlg⟩ := List.mem_map.mp h
      exact List.mem_map.mpr ⟨l, (Lease.mem_release.mp hl).left, hlg⟩
  case neg =>
    rw [dismiss_of_not_mem hg, show ((r.vacate k).close g).frontends = r.frontends.erase g from rfl,
      c.frontends.mem_erase_iff, t]
    constructor
    case mp =>
      rintro ⟨hne, h⟩
      have ⟨l, hl, hlg⟩ := List.mem_map.mp h
      have ho : l.owner ≠ k := fun ho => hne (hlg ▸ hk l hl ho)
      exact List.mem_map.mpr ⟨l, Lease.mem_release.mpr ⟨hl, ho⟩, hlg⟩
    case mpr =>
      intro h
      have ⟨l, hl, hlg⟩ := List.mem_map.mp h
      refine ⟨fun he => hg (he ▸ h), ?_⟩
      exact List.mem_map.mpr ⟨l, (Lease.mem_release.mp hl).left, hlg⟩

end Registry
