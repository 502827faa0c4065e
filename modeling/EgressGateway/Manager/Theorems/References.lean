import EgressGateway.Manager.Theorems.Allocation
import Mathlib.Data.Set.Insert
import Mathlib.Data.Set.Image

-- What the load balancer consists of after a history of calls that all returned without error.

open Kubernetes Azure Text Program Keyed

namespace Manager

variable [CaseFold] (P : Platform) (S : Settings)

-- `L` are the configurations whose last call had `needLB = true`, and `pool` gives the unique ID of
-- the pool of each configuration.
inductive LBHistory (U : Set String) (pool : String → String) : Set String → State → Prop
  | init {s : State} (h : s.cloud.loadBalancer = none) : LBHistory U pool ∅ s
  | change {L : Set String} {s s' : State} (e : LBHistory U pool L s)
      (h : s'.cloud.loadBalancer = s.cloud.loadBalancer) : LBHistory U pool L s'
  | add {L : Set String} {s : State} (e : LBHistory U pool L s) {cfg : GatewayLBConfiguration}
      {φ : Oracle Sig} {out : String × Int} (hu : cfg.meta_.uid ∈ U)
      (hp : poolID S s.cloud cfg.spec = some (pool cfg.meta_.uid))
      (h : (callLBRule P S cfg true φ s).result = .ok out) :
      LBHistory U pool (insert cfg.meta_.uid L) (callLBRule P S cfg true φ s).state
  | remove {L : Set String} {s : State} (e : LBHistory U pool L s) {cfg : GatewayLBConfiguration}
      {φ : Oracle Sig} {out : String × Int} (hu : cfg.meta_.uid ∈ U)
      (hp : poolID S s.cloud cfg.spec = some (pool cfg.meta_.uid))
      (h : (callLBRule P S cfg false φ s).result = .ok out) :
      LBHistory U pool (L \ {cfg.meta_.uid}) (callLBRule P S cfg false φ s).state

-- Each of the names is borne by exactly one element, and no element has another name.
def Exactly {α : Type} (xs : List α) (name : α → String) (names : Set String) : Prop :=
  (∀ n ∈ names, xs.countP (fun x => equalFold (name x) n) = 1) ∧
  ∀ x ∈ xs, ∃ n ∈ names, equalFold (name x) n = true

variable {P S} {U L : Set String} {pool : String → String} {s : State}
  {r r' : Registry FoldKey FoldKey} {cfg : GatewayLBConfiguration}

theorem exactly_of_keys {α : Type} {xs : List α} {name : α → String} {names : Set String}
    (hn : (xs.map fun x => foldKey (name x)).Nodup)
    (hm : ∀ k, k ∈ (xs.map fun x => foldKey (name x)) ↔ ∃ n ∈ names, foldKey n = k) :
    Exactly xs name names := by
  constructor
  case left =>
    intro n h
    have hc : xs.countP (fun x => equalFold (name x) n) =
        (xs.map fun x => foldKey (name x)).count (foldKey n) := by
      rw [List.count, List.countP_map]
      refine List.countP_congr fun x _ => ?_
      simp [equalFold_iff]
    rw [hc]
    exact List.count_eq_one_of_mem hn ((hm _).mpr ⟨n, h, rfl⟩)
  case right =>
    intro x hx
    have ⟨n, h, he⟩ := (hm _).mp (List.mem_map_of_mem hx)
    exact ⟨n, h, equalFold_iff.mpr he.symm⟩

-- The registry after a history.
structure Counted (U : Set String) (pool : String → String) (L : Set String)
    (r : Registry FoldKey FoldKey) : Prop where
  owners : ∀ k, k ∈ r.leases.map (·.owner) ↔ ∃ u ∈ L, foldKey u = k
  groups : ∀ l ∈ r.leases, ∀ u ∈ U, l.owner = foldKey u → l.group = foldKey (pool u)
  tight  : r.Tight
  known  : L ⊆ U

theorem Counted.init : Counted U pool ∅ {} where
  owners _ := by simp
  groups   := nofun
  tight    := .init
  known    := Set.empty_subset _

theorem Counted.require (c : Counted U pool L r) (hU : FoldDistinct U) {u : String} (hu : u ∈ U)
    {i : Nat} (h : r.require portCount (foldKey u) (foldKey (pool u)) = some (r', i)) :
    Counted U pool (insert u L) r' where
  owners k := by
    rw [Registry.mem_owners_acquire (Registry.require_eq h).left, c.owners]
    constructor
    case mp =>
      rintro (rfl | ⟨v, hv, rfl⟩)
      · exact ⟨u, .inl rfl, rfl⟩
      · exact ⟨v, .inr hv, rfl⟩
    case mpr =>
      rintro ⟨v, rfl | hv, rfl⟩
      · exact .inl rfl
      · exact .inr ⟨v, hv, rfl⟩
  groups l hl v hv ho := by
    by_cases huv : foldKey v = foldKey u
    case pos =>
      obtain rfl := hU v hv u hu huv
      rcases Registry.acquire_group (Registry.require_eq h).left hl with hg | hl
      · exact hg
      · exact c.groups l hl v hv ho
    case neg =>
      have hne : l.owner ≠ foldKey u := fun he => huv (ho.symm.trans he)
      have hl := (Lease.mem_acquire_of_ne (Registry.require_eq h).left hne).mp hl
      exact c.groups l hl v hv ho
  tight := c.tight.require (fun l hl ho => c.groups l hl u hu ho) h
  known := Set.insert_subset hu c.known

theorem Counted.dismiss (c : Counted U pool L r) (hU : FoldDistinct U) {u : String} (hu : u ∈ U)
    (hc : r.Consistent portCount) :
    Counted U pool (L \ {u}) (r.dismiss (foldKey u) (foldKey (pool u))) where
  owners k := by
    rw [Registry.dismiss_leases, Registry.mem_owners_release, c.owners]
    constructor
    case mp =>
      rintro ⟨⟨v, hv, rfl⟩, hne⟩
      exact ⟨v, ⟨hv, fun he => hne (congrArg foldKey he)⟩, rfl⟩
    case mpr =>
      rintro ⟨v, ⟨hv, hne⟩, rfl⟩
      exact ⟨⟨v, hv, rfl⟩, fun he => hne (hU v (c.known hv) u hu he)⟩
  groups l hl := by
    rw [Registry.dismiss_leases] at hl
    exact c.groups l (Lease.mem_release.mp hl).left
  tight := c.tight.dismiss hc fun l hl ho => c.groups l hl u hu ho
  known := fun v hv => c.known hv.left

theorem Counted.moved {needLB : Bool} {c : Cloud} {out : String × Int} (h : Counted U pool L r)
    (hU : FoldDistinct U) (hc : r.Consistent portCount) (hu : cfg.meta_.uid ∈ U)
    (hp : poolID S c cfg.spec = some (pool cfg.meta_.uid)) (hm : Moved S cfg c r needLB r' out) :
    Counted U pool (if needLB then insert cfg.meta_.uid L else L \ {cfg.meta_.uid}) r' := by
  cases hm
  case require q i ip hq hip hr =>
    obtain rfl := Option.some.inj (hp.symm.trans hq)
    exact h.require hU hu hr
  case dismiss q ip hq =>
    obtain rfl := Option.some.inj (hp.symm.trans hq)
    exact h.dismiss hU hu hc
  case absent ip he =>
    have hd := h.dismiss hU hu hc
    rw [he, Registry.dismiss_empty] at hd
    rw [he]
    exact hd

theorem LBHistory.counted (e : LBHistory P S U pool L s) (hU : FoldDistinct U) :
    ∃ r, Allocated S s r ∧ Counted U pool L r := by
  have call {L : Set String} {s : State} {r} (ha : Allocated S s r) (hc : Counted U pool L r)
      {cfg : GatewayLBConfiguration} (needLB : Bool) {φ : Oracle Sig} {out : String × Int}
      (hu : cfg.meta_.uid ∈ U) (hp : poolID S s.cloud cfg.spec = some (pool cfg.meta_.uid))
      (h : (callLBRule P S cfg needLB φ s).result = .ok out) :
      ∃ r', Allocated S (callLBRule P S cfg needLB φ s).state r' ∧
        Counted U pool (if needLB then insert cfg.meta_.uid L else L \ {cfg.meta_.uid}) r' := by
    have ⟨_, r', hr, hm⟩ := ha.call (P := P) cfg needLB φ
    rw [h] at hm
    exact ⟨r', ⟨hr, hm.consistent ha.right⟩, hc.moved hU ha.right hu hp hm⟩
  induction e
  case init h => exact ⟨{}, .init h, .init⟩
  case change h hi =>
    have ⟨r, ha, hc⟩ := hi
    exact ⟨r, ⟨h ▸ ha.left, ha.right⟩, hc⟩
  case add hu hp h hi =>
    have ⟨r, ha, hc⟩ := hi
    exact call ha hc true hu hp h
  case remove hu hp h hi =>
    have ⟨r, ha, hc⟩ := hi
    exact call ha hc false hu hp h

-- The names of everything on the load balancer.
theorem Allocated.names (h : Allocated S s r) :
    s.lbRules.map (foldKey ·.name) = r.leases.map (·.owner) ∧
    (s.lbProbes.map (foldKey ·.name)).Perm r.probes ∧
    s.lbFrontends.map (foldKey ·.name) = r.frontends ∧
    s.lbBackends.map (foldKey ·.name) = r.backends := by
  have ⟨es, hes, hls⟩ := h.entries
  refine ⟨by rw [hes, hls, List.map_map, List.map_map]; rfl, ?_⟩
  unfold State.lbProbes State.lbFrontends State.lbBackends
  have ⟨hr, _⟩ := h
  cases hlb : s.cloud.loadBalancer
  case none =>
    rw [hlb] at hr
    obtain rfl : r = {} := hr
    exact ⟨.refl _, rfl, rfl⟩
  case some lb =>
    rw [hlb] at hr
    have ⟨p, hp, hd, _⟩ := hr
    simp only [Option.bind_some, hp, Option.getD_some]
    exact ⟨hd.probes, hd.frontends, hd.backends⟩

theorem Counted.mem_frontends (c : Counted U pool L r) (g : FoldKey) :
    g ∈ r.frontends ↔ ∃ n ∈ pool '' L, foldKey n = g := by
  rw [c.tight, List.mem_map]
  constructor
  case mp =>
    rintro ⟨l, hl, rfl⟩
    have ⟨u, hu, ho⟩ := (c.owners _).mp (List.mem_map_of_mem hl)
    exact ⟨pool u, Set.mem_image_of_mem _ hu, (c.groups l hl u (c.known hu) ho.symm).symm⟩
  case mpr =>
    rintro ⟨_, ⟨u, hu, rfl⟩, rfl⟩
    have ⟨l, hl, ho⟩ := List.mem_map.mp ((c.owners _).mpr ⟨u, hu, rfl⟩)
    exact ⟨l, hl, c.groups l hl u (c.known hu) ho⟩

theorem Allocated.exists_iff (h : Allocated S s r) (c : Counted U pool L r) :
    s.cloud.loadBalancer.isSome ↔ L.Nonempty := by
  have ⟨hr, _⟩ := h
  cases hlb : s.cloud.loadBalancer
  case none =>
    rw [hlb] at hr
    obtain rfl : r = {} := hr
    refine ⟨nofun, ?_⟩
    rintro ⟨u, hu⟩
    exact absurd ((c.owners _).mpr ⟨u, hu, rfl⟩) (by simp)
  case some lb =>
    rw [hlb] at hr
    have ⟨_, _, _, _, hne⟩ := hr
    refine ⟨fun _ => ?_, fun _ => rfl⟩
    have ⟨g, hg⟩ := List.exists_mem_of_ne_nil _ hne
    have ⟨_, ⟨u, hu, _⟩, _⟩ := (c.mem_frontends g).mp hg
    exact ⟨u, hu⟩

theorem lb_references_counted (hU : FoldDistinct U) (e : LBHistory P S U pool L s) :
    (s.cloud.loadBalancer.isSome ↔ L.Nonempty) ∧
    Exactly s.lbRules (·.name) L ∧
    Exactly s.lbProbes (·.name) L ∧
    Exactly s.lbFrontends (·.name) (pool '' L) ∧
    Exactly s.lbBackends (·.name) (pool '' L) := by
  have ⟨r, h, c⟩ := e.counted hU
  have ⟨hrules, hprobes, hfronts, hbacks⟩ := h.names
  refine ⟨h.exists_iff c, ?_, ?_, ?_, ?_⟩
  · refine exactly_of_keys (hrules ▸ h.right.leases.owners) fun k => ?_
    rw [hrules, c.owners]
  · refine exactly_of_keys (hprobes.nodup_iff.mpr h.right.probes) fun k => ?_
    rw [hprobes.mem_iff, h.right.probed, c.owners]
  · refine exactly_of_keys (hfronts ▸ h.right.frontends) fun g => ?_
    rw [hfronts, c.mem_frontends]
  · refine exactly_of_keys (hbacks ▸ h.right.backends.nodup_iff.mpr h.right.frontends) fun g => ?_
    rw [hbacks, h.right.backends.mem_iff, c.mem_frontends]

end Manager

namespace Manager

namespace Sample

theorem call_ok : (call "a" inventory).result = .ok ("10.0.0.4", 6000) := by
  rfl

theorem history : LBHistory .simple settings {"a", "b"} (fun _ => "vmss-1")
    (insert "a" ∅) (call "a" inventory).state :=
  .add (.init rfl) (.inl rfl) rfl call_ok

end Sample

open Sample in
theorem lb_references_counted_sample :
    Exactly (call "a" inventory).state.lbRules (·.name) (insert "a" ∅) ∧
    Exactly (call "a" inventory).state.lbFrontends (·.name) ((fun _ => "vmss-1") '' (insert "a" ∅)) :=
  have h := lb_references_counted foldDistinct history
  ⟨h.right.left, h.right.right.right.left⟩

end Manager
