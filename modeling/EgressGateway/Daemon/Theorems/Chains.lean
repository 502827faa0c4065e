import EgressGateway.Daemon.Theorems.Frame

-- The chains that the daemon adds to a `nat` table: adding and removing them as inverse operations.

open Kubernetes Text Net Program Iptables

namespace Daemon

-- The arguments of a call of `ensureIPTablesChain`.
structure ChainSpec where
  target  : String
  source  : String
  comment : String
  rules   : List Rule
  deriving DecidableEq

deriving instance DecidableEq for ChainRef

namespace ChainSpec

def ref (x : ChainSpec) : ChainRef := ⟨x.target, x.source, x.comment⟩

def jump (x : ChainSpec) : Rule := Chains.jumpRule x.comment x.target

def ensure (ns : Space) (x : ChainSpec) : M Unit :=
  ensureIPTablesChain ns x.target x.source x.comment x.rules

end ChainSpec

-- The world up to how a chain is deleted.
def removing (remove : Table → String → Option Table) : World Sig Node where
  exec
    | .removeChain ns c, s => s.onNat ns "iptables-restore failed" (remove · c)
    | c,                 s => s.serve c
  outage := world.outage

theorem removing_removeChain : removing Table.removeChain = world := by
  unfold removing world
  congr
  funext c s
  cases c <;> rfl

namespace Node

def withNat (s : Node) (ns : Space) (t : Table) : Node :=
  (s.netns ns).elim s fun n => s.setNetns ns { n with nat := t }

variable {s : Node} {ns : Space} {n : Netns} {t t' : Table}

theorem withNat_self (hn : s.netns ns = some n) : s.withNat ns n.nat = s := by
  cases ns
  case host    => cases hn; rfl
  case gateway =>
    have hg : s.gateway = some n := hn
    simp only [withNat, netns, hg, Option.elim_some, setNetns]
    rw [← hg]

theorem netns_withNat (hn : s.netns ns = some n) : (s.withNat ns t).netns ns = some { n with nat := t } := by
  rw [withNat, hn, Option.elim_some, netns_setNetns, if_pos rfl]

theorem onNat_withNat (text : String) {f : Table → Option Table} (hn : s.netns ns = some n) (h : f t = some t') :
    (s.withNat ns t).onNat ns text f = (.ok (), s.withNat ns t') := by
  have hset : (s.withNat ns t).setNetns ns { n with nat := t' } = s.withNat ns t' := by
    rw [withNat, hn, withNat, hn]
    cases ns <;> rfl
  simp only [onNat, onNetns, netns_withNat hn, h, hset]

end Node

section Chains

variable {remove : Table → String → Option Table} {s s' : Node} {ns : Space} {n : Netns} {t t' : Table}

theorem yields_wrapError {W : World Sig Node} {α : Type} {p : M α} {a : α} {context : String}
    (h : Yields W p s a s') : Yields W (wrapError context p) s a s' :=
  h.attempt.bind yields_ret

-- The calls of `ensureIPTablesChain` so far, of a table without any of the chains.
structure Ensured (l : List ChainSpec) (pre : String → List Rule) (new : Table) : Prop where
  jumps   : ∀ c, ∀ r ∈ pre c, ∃ x ∈ l, x.source = c ∧ x.jump = r
  nodup   : ∀ c, (pre c).Nodup
  present : ∀ x ∈ l, x.jump ∈ pre x.source
  chains  : ∀ c rs, new.find c = some rs → ∃ x ∈ l, x.target = c ∧ (rs = [] ∨ rs = x.rules)
  created : ∀ x ∈ l, ∃ rs, new.find x.target = some rs ∧ (x.rules ≠ [] → rs = x.rules)

-- The chains that can be added to a table.
structure Addable (t : Table) (l : List ChainSpec) : Prop where
  nodup        : t.names.Nodup
  absent       : ∀ x ∈ l, x.target ∉ t.names
  unreferenced : ∀ x ∈ l, ∀ ch ∈ t, ∀ r ∈ ch.rules, r.target ≠ .jump x.target
  sources      : ∀ x ∈ l, x.source ∈ t.names

-- The calls agree on the rules of the chains.
def Compatible (l : List ChainSpec) : Prop :=
  ∀ x ∈ l, ∀ y ∈ l, x.target = y.target → x.rules ≠ [] → y.rules ≠ [] → x.rules = y.rules

namespace ChainSpec

-- What a call makes of the rules in front of those of the table, and of the further chains.

def insert (x : ChainSpec) (pre : String → List Rule) : String → List Rule :=
  Function.update pre x.source (Table.withRule x.jump (pre x.source))

def create (x : ChainSpec) (new : Table) : Table :=
  if x.rules = [] then new.ensureChain x.target else (new.ensureChain x.target).set x.target x.rules

end ChainSpec

variable {l : List ChainSpec} {x : ChainSpec} {pre : String → List Rule} {new : Table} {c : String}

theorem find_create : (x.create new).find c =
    if c = x.target then some (if x.rules = [] then (new.find x.target).getD [] else x.rules) else new.find c := by
  unfold ChainSpec.create
  split
  case isTrue  => exact Table.find_ensureChain
  case isFalse =>
    rw [Table.find_set, Table.find_ensureChain]
    split <;> rfl

theorem mem_insert {r : Rule} : r ∈ x.insert pre c ↔ r ∈ pre c ∨ c = x.source ∧ r = x.jump := by
  unfold ChainSpec.insert Table.withRule
  by_cases hc : c = x.source
  case neg => simp [hc]
  case pos =>
    subst hc
    rw [Function.update_self]
    split
    case isTrue h  =>
      simp only [true_and]
      exact ⟨.inl, fun hr => hr.elim id fun he => he ▸ h⟩
    case isFalse h => simp [or_comm]

theorem Ensured.call (h : Ensured l pre new) (hc : Compatible (l ++ [x])) :
    Ensured (l ++ [x]) (x.insert pre) (x.create new) where
  jumps c r hr := by
    rcases mem_insert.mp hr with hr | ⟨rfl, rfl⟩
    · have ⟨y, hy, hyc⟩ := h.jumps c r hr
      exact ⟨y, List.mem_append_left _ hy, hyc⟩
    · exact ⟨x, by simp, rfl, rfl⟩
  nodup c := by
    unfold ChainSpec.insert Table.withRule
    by_cases hs : c = x.source
    case neg =>
      rw [Function.update_of_ne hs]
      exact h.nodup c
    case pos =>
      subst hs
      rw [Function.update_self]
      split
      case isTrue     => exact h.nodup _
      case isFalse hn => exact List.nodup_cons.mpr ⟨hn, h.nodup _⟩
  present y hy := by
    refine mem_insert.mpr ?_
    rcases List.mem_append.mp hy with hy | hy
    · exact .inl (h.present y hy)
    · obtain rfl := List.mem_singleton.mp hy
      exact .inr ⟨rfl, rfl⟩
  chains c rs hf := by
    rw [find_create] at hf
    split at hf
    case isFalse =>
      have ⟨y, hy, hyc⟩ := h.chains c rs hf
      exact ⟨y, List.mem_append_left _ hy, hyc⟩
    case isTrue hx =>
      subst hx
      split at hf
      case isFalse => exact ⟨x, by simp, rfl, .inr (Option.some.inj hf).symm⟩
      case isTrue =>
        cases hn : new.find x.target
        case none    => exact ⟨x, by simp, rfl, .inl (by simpa [hn] using hf.symm)⟩
        case some rs' =>
          have ⟨y, hy, hyc⟩ := h.chains _ rs' hn
          obtain rfl : rs' = rs := by simpa [hn] using hf
          exact ⟨y, List.mem_append_left _ hy, hyc⟩
  created y hy := by
    rw [find_create]
    split
    case isTrue ht =>
      refine ⟨_, rfl, fun hr => ?_⟩
      split
      case isFalse hx => exact hc x (by simp) y hy ht.symm hx hr
      case isTrue hx =>
        rcases List.mem_append.mp hy with hy | hy
        · have ⟨rs, hf, hrs⟩ := h.created y hy
          rw [← ht, hf]
          exact hrs hr
        · obtain rfl := List.mem_singleton.mp hy
          exact absurd hx hr
    case isFalse ht =>
      rcases List.mem_append.mp hy with hy | hy
      · exact h.created y hy
      · exact absurd (congrArg ChainSpec.target (List.mem_singleton.mp hy)) ht

-- A call that has been made before changes nothing.
theorem Ensured.again (h : Ensured l pre new) (hx : x ∈ l) : x.insert pre = pre ∧ x.create new = new := by
  have ⟨rs, hf, hrs⟩ := h.created x hx
  constructor
  case left =>
    rw [ChainSpec.insert, Table.withRule, if_pos (h.present x hx), Function.update_eq_self]
  case right =>
    have hs : new.ensureChain x.target = new := by rw [Table.ensureChain, hf]; rfl
    rw [ChainSpec.create, hs]
    split
    case isTrue     => rfl
    case isFalse hr => exact Table.set_of_find (hrs hr ▸ hf)

-- The table after these calls.
def layout (t : Table) (pre : String → List Rule) (new : Table) : Table :=
  t.inserting pre ++ new

theorem find_layout_of_mem (pre : String → List Rule) (new : Table) (h : c ∈ t.names) :
    ∃ rs, t.find c = some rs ∧ (layout t pre new).find c = some (pre c ++ rs) := by
  have ⟨rs, hrs⟩ := Option.isSome_iff_exists.mp (Table.find_isSome_iff.mpr h)
  refine ⟨rs, hrs, ?_⟩
  rw [layout, Table.find_append, Table.find_inserting, hrs]
  rfl

theorem find_layout_of_notMem (h : c ∉ t.names) : (layout t pre new).find c = new.find c := by
  rw [layout, Table.find_append, Table.find_inserting, Table.find_eq_none h]
  rfl

theorem set_layout (js : List Rule) {rs : List Rule} (hd : t.names.Nodup) (h : t.find c = some rs) :
    (layout t pre new).set c (js ++ rs) = layout t (Function.update pre c js) new := by
  have hm : c ∈ (t.inserting pre).names := by
    rw [Table.names_inserting, ← Table.find_isSome_iff, h]
    rfl
  rw [layout, Table.set_append_left hm, Table.set_inserting hd h, layout]

theorem Addable.notMem_rules {rs : List Rule} (h : Addable t l) (hx : x ∈ l) (hf : t.find c = some rs) {r : Rule}
    (hr : r.target = .jump x.target) : r ∉ rs :=
  fun hm => h.unreferenced x hx ⟨c, rs⟩ (Table.mem_of_find hf) r hm hr

theorem yields_ensure (remove : Table → String → Option Table) (pre : String → List Rule) (new : Table)
    (hn : s.netns ns = some n) (ha : Addable t l) (hx : x ∈ l) :
    Yields (removing remove) (x.ensure ns) (s.withNat ns (layout t pre new)) ()
      (s.withNat ns (layout t (x.insert pre) (x.create new))) := by
  have hnew : x.target ∉ (t.inserting pre).names := by
    rw [Table.names_inserting]
    exact ha.absent x hx
  have hchain : (layout t pre new).ensureChain x.target = layout t pre (new.ensureChain x.target) := by
    rw [Table.ensureChain, find_layout_of_notMem (ha.absent x hx), Table.ensureChain]
    split
    · rfl
    · exact Table.set_append_right hnew
  have hrule : (layout t pre (new.ensureChain x.target)).ensureRule x.source x.jump =
      some (layout t (x.insert pre) (new.ensureChain x.target)) := by
    obtain ⟨rs, hrs, hf⟩ := find_layout_of_mem pre (new.ensureChain x.target) (ha.sources x hx)
    have hmem : x.jump ∈ pre x.source ++ rs ↔ x.jump ∈ pre x.source := by
      simp [ha.notMem_rules hx hrs (r := x.jump) rfl]
    have htarget : ((layout t pre (new.ensureChain x.target)).find x.target).isSome = true := by
      rw [find_layout_of_notMem (ha.absent x hx), Table.find_ensureChain, if_pos rfl]
      rfl
    rw [Table.ensureRule, hf]
    simp only [hmem, ChainSpec.insert, Table.withRule]
    split
    case isTrue => rw [Function.update_eq_self]
    case isFalse =>
      simp only [ChainSpec.jump, Chains.jumpRule, htarget, if_true]
      exact congrArg some (set_layout (_ :: pre x.source) ha.nodup hrs)
  refine Yields.bind (yields_wrapError (yields_perform (Node.onNat_withNat "error creating chain"
    (f := fun t => some (t.ensureChain x.target)) hn (congrArg some hchain)))) ?_
  refine Yields.bind (yields_wrapError (yields_perform (Node.onNat_withNat "error appending rule"
    (f := (·.ensureRule x.source x.jump)) hn hrule))) ?_
  unfold ChainSpec.create
  split
  case isTrue  => exact yields_ret
  case isFalse =>
    refine yields_wrapError (yields_perform (Node.onNat_withNat "iptables-restore failed"
      (f := fun t => some (t.restoreAll x.target x.rules)) hn (congrArg some ?_)))
    exact Table.set_append_right (by rw [Table.names_inserting]; exact ha.absent x hx)

-- While the chains are removed: what is left of them.
structure Remaining (l : List ChainSpec) (done : List ChainRef) (pre : String → List Rule) (new : Table) : Prop where
  jumps  : ∀ c, ∀ r ∈ pre c, ∃ x ∈ l, x.source = c ∧ x.jump = r ∧ x.ref ∉ done
  nodup  : ∀ c, (pre c).Nodup
  chains : ∀ c rs, new.find c = some rs → (∀ d ∈ done, d.target ≠ c) ∧
    ∃ x ∈ l, x.target = c ∧ (rs = [] ∨ rs = x.rules)

theorem Ensured.remaining (h : Ensured l pre new) : Remaining l [] pre new where
  jumps c r hr :=
    have ⟨x, hx, hs, hj⟩ := h.jumps c r hr
    ⟨x, hx, hs, hj, nofun⟩
  nodup  := h.nodup
  chains c rs hf := ⟨nofun, h.chains c rs hf⟩

-- Nothing is left once all of them are removed.
theorem Remaining.layout_eq {done : List ChainRef} (h : Remaining l done pre new) (hd : ∀ x ∈ l, x.ref ∈ done) :
    layout t pre new = t := by
  have hpre : ∀ c, pre c = [] := by
    refine fun c => List.eq_nil_iff_forall_not_mem.mpr fun r hr => ?_
    have ⟨x, hx, _, _, hn⟩ := h.jumps c r hr
    exact hn (hd x hx)
  have hnew : new = [] := by
    refine List.eq_nil_iff_forall_not_mem.mpr fun ch hm => ?_
    have ⟨rs, hf⟩ := Option.isSome_iff_exists.mp (Table.find_isSome_iff.mpr (List.mem_map.mpr ⟨ch, hm, rfl⟩))
    have ⟨hn, x, hx, ht, _⟩ := h.chains _ rs hf
    exact hn _ (hd x hx) ht
  rw [layout, hnew, List.append_nil, Table.inserting_nil hpre]

namespace ChainSpec

def extract (x : ChainSpec) (pre : String → List Rule) : String → List Rule :=
  Function.update pre x.source ((pre x.source).erase x.jump)

end ChainSpec

theorem mem_extract {r : Rule} (hd : ∀ c, (pre c).Nodup) :
    r ∈ x.extract pre c ↔ r ∈ pre c ∧ ¬(c = x.source ∧ r = x.jump) := by
  unfold ChainSpec.extract
  by_cases hc : c = x.source
  case neg => simp [hc]
  case pos =>
    subst hc
    rw [Function.update_self, (hd _).mem_erase_iff]
    simp [and_comm]

-- How chains are deleted: either always, or only unless there is a jump to the chain. Then each chain has
-- to belong to one jump, and no rule of the chains may jump to one of them.
def Deletes (remove : Table → String → Option Table) (l : List ChainSpec) : Prop :=
  (∀ t c, remove t c = some (t.drop c)) ∨
  remove = Table.removeChain ∧ (∀ x ∈ l, ∀ y ∈ l, x.target = y.target → x.ref = y.ref) ∧
    ∀ x ∈ l, ∀ r ∈ x.rules, ∀ y ∈ l, r.target ≠ .jump y.target

variable {done : List ChainRef}

theorem Remaining.remove_eq (h : Remaining l done pre new) (ha : Addable t l) (hx : x ∈ l) (hr : Deletes remove l) :
    remove (layout t (x.extract pre) new) x.target = some ((layout t (x.extract pre) new).drop x.target) := by
  rcases hr with hr | ⟨rfl, hone, hrules⟩
  · exact hr _ _
  rw [Table.removeChain, if_neg]
  rw [Table.references_iff]
  rintro ⟨c, rs, hf, r, hm, ht⟩
  rw [Table.find_set] at hf
  split at hf
  case isTrue =>
    obtain rfl := Option.some.inj hf
    nomatch hm
  case isFalse =>
    by_cases hc : c ∈ t.names
    case pos =>
      obtain ⟨rs₀, hf₀, hl⟩ := find_layout_of_mem (x.extract pre) new hc
      obtain rfl := Option.some.inj (hl.symm.trans hf)
      rcases List.mem_append.mp hm with hm | hm
      case inr => exact ha.notMem_rules hx hf₀ ht hm
      have ⟨hm, hne⟩ := (mem_extract h.nodup).mp hm
      obtain ⟨y, hy, hs, rfl, _⟩ := h.jumps c r hm
      have href := hone y hy x hx (Target.jump.inj ht)
      refine hne ⟨hs.symm.trans (congrArg ChainRef.source href), ?_⟩
      exact congrArg₂ Chains.jumpRule (congrArg ChainRef.comment href) (congrArg ChainRef.target href)
    case neg =>
      rw [find_layout_of_notMem hc] at hf
      obtain ⟨_, y, hy, _, rfl | rfl⟩ := h.chains c rs hf
      · nomatch hm
      · exact hrules y hy r hm x hx ht

theorem Remaining.step (h : Remaining l done pre new) (x : ChainSpec) :
    Remaining l (done ++ [x.ref]) (x.extract pre) (new.drop x.target) where
  jumps c r hr := by
    have ⟨hr, hne⟩ := (mem_extract h.nodup).mp hr
    obtain ⟨y, hy, rfl, rfl, hd⟩ := h.jumps c r hr
    refine ⟨y, hy, rfl, rfl, fun hm => ?_⟩
    rcases List.mem_append.mp hm with hm | hm
    · exact hd hm
    · have href : y.ref = x.ref := List.mem_singleton.mp hm
      exact hne ⟨congrArg ChainRef.source href,
        congrArg₂ Chains.jumpRule (congrArg ChainRef.comment href) (congrArg ChainRef.target href)⟩
  nodup c := by
    unfold ChainSpec.extract
    by_cases hc : c = x.source
    case neg =>
      rw [Function.update_of_ne hc]
      exact h.nodup c
    case pos =>
      rw [hc, Function.update_self]
      exact (h.nodup _).erase _
  chains c rs hf := by
    rw [Table.find_drop] at hf
    split at hf
    case isTrue => nomatch hf
    case isFalse hc =>
      have ⟨hn, hy⟩ := h.chains c rs hf
      refine ⟨fun d hd => ?_, hy⟩
      rcases List.mem_append.mp hd with hd | hd
      · exact hn d hd
      · rw [List.mem_singleton.mp hd]
        exact fun he => hc he.symm

theorem yields_removeIPTablesChain {existing : List String} (hn : s.netns ns = some n) (ha : Addable t l) (hx : x ∈ l)
    (hr : Deletes remove l) (h : Remaining l done pre new) (he : x.target ∈ existing) :
    Yields (removing remove) (removeIPTablesChain ns existing x.ref) (s.withNat ns (layout t pre new)) ()
      (s.withNat ns (layout t (x.extract pre) (new.drop x.target))) := by
  have hrule : (layout t pre new).deleteRule x.source x.jump = layout t (x.extract pre) new := by
    obtain ⟨rs, hrs, hf⟩ := find_layout_of_mem pre new (ha.sources x hx)
    have hrs' : x.jump ∉ rs := ha.notMem_rules hx hrs rfl
    rw [Table.deleteRule, hf]
    dsimp only
    split
    case isTrue hm =>
      have hm : x.jump ∈ pre x.source := (List.mem_append.mp hm).resolve_right hrs'
      rw [List.erase_append_left _ hm, set_layout _ ha.nodup hrs, ChainSpec.extract]
    case isFalse hm =>
      rw [ChainSpec.extract, List.erase_of_not_mem fun h => hm (List.mem_append_left _ h), Function.update_eq_self]
  have hdrop : (layout t (x.extract pre) new).drop x.target = layout t (x.extract pre) (new.drop x.target) := by
    rw [layout, Table.drop_append, Table.drop_of_notMem, layout]
    rw [Table.names_inserting]
    exact ha.absent x hx
  unfold removeIPTablesChain
  rw [if_pos (show x.ref.target ∈ existing from he)]
  refine Yields.bind (yields_wrapError (yields_perform (Node.onNat_withNat "error deleting rule"
    (f := fun t => some (t.deleteRule x.source x.jump)) hn (congrArg some hrule)))) ?_
  refine yields_wrapError (yields_perform (Node.onNat_withNat "iptables-restore failed" (f := (remove · x.target)) hn ?_))
  rw [h.remove_eq ha hx hr, hdrop]

-- Chains that do not exist are not removed.
theorem yields_removeIPTablesChains_absent {refs : List ChainRef} (hn : s.netns ns = some n)
    (h : ∀ c ∈ refs, c.target ∉ n.nat.names) :
    Yields (removing remove) (removeIPTablesChains ns refs) s () s := by
  have hsave : (removing remove).exec (.saveInto ns) s = (.ok n.nat.names, s) := by
    simp only [removing, Node.serve, Node.look, hn]
  refine Yields.bind (yields_wrapError (yields_perform hsave)) ?_
  obtain ⟨s', hy, hs⟩ := yields_forEach (W := removing remove) (J := fun _ s' => s' = s)
    (f := removeIPTablesChain ns n.nat.names) refs [] rfl fun _ c hc s' hs => by
      refine ⟨s', ?_, hs⟩
      rw [removeIPTablesChain, if_neg (h c hc)]
      exact yields_ret
  exact hs ▸ hy

theorem yields_removeIPTablesChains {refs : List ChainRef} (hn : s.netns ns = some n) (ha : Addable t l)
    (hr : Deletes remove l) (h : Ensured l pre new) (hrefs : ∀ c, c ∈ refs ↔ ∃ x ∈ l, x.ref = c) :
    Yields (removing remove) (removeIPTablesChains ns refs) (s.withNat ns (layout t pre new)) () (s.withNat ns t) := by
  have hsave : (removing remove).exec (.saveInto ns) (s.withNat ns (layout t pre new)) =
      (.ok (layout t pre new).names, s.withNat ns (layout t pre new)) := by
    simp only [removing, Node.serve, Node.look, Node.netns_withNat hn]
  refine Yields.bind (yields_wrapError (yields_perform hsave)) ?_
  have hloop := yields_forEach (W := removing remove)
    (J := fun done s' => ∃ pre' new', s' = s.withNat ns (layout t pre' new') ∧ Remaining l done pre' new')
    (f := removeIPTablesChain ns (layout t pre new).names) refs [] ⟨pre, new, rfl, h.remaining⟩ ?_
  case refine_1 =>
    rintro done c hc _ ⟨pre', new', rfl, hrem⟩
    obtain ⟨x, hx, rfl⟩ := (hrefs c).mp hc
    have hmem : x.target ∈ (layout t pre new).names := by
      obtain ⟨rs, hf, _⟩ := h.created x hx
      rw [← Table.find_isSome_iff, find_layout_of_notMem (ha.absent x hx), hf]
      rfl
    exact ⟨_, yields_removeIPTablesChain hn ha hx hr hrem hmem, _, _, rfl, hrem.step x⟩
  obtain ⟨s', hy, pre', new', hs, hrem⟩ := hloop
  have hlayout : layout t pre' new' = t := hrem.layout_eq fun x hx => (hrefs _).mpr ⟨x, hx, rfl⟩
  rw [hs, hlayout] at hy
  exact hy

theorem yields_ensure_all (remove : Table → String → Option Table) (hn : s.netns ns = some n) (ha : Addable n.nat l) (hc : Compatible l) :
    ∃ pre new, Ensured l pre new ∧
      Yields (removing remove) (forEach l (·.ensure ns)) s () (s.withNat ns (layout n.nat pre new)) := by
  have h₀ : Ensured [] (fun _ => []) [] :=
    ⟨nofun, fun _ => List.nodup_nil, nofun, nofun, nofun⟩
  have hs : s = s.withNat ns (layout n.nat (fun _ => []) []) := by
    rw [layout, Table.inserting_nil fun _ => rfl, List.append_nil, Node.withNat_self hn]
  have ⟨s', hy, _, pre, new, hs', h⟩ := yields_forEach (W := removing remove) (f := (·.ensure ns))
    (J := fun done s' => done ⊆ l ∧ ∃ pre new, s' = s.withNat ns (layout n.nat pre new) ∧ Ensured done pre new)
    l [] ⟨List.nil_subset _, _, _, hs, h₀⟩ ?_
  case refine_1 =>
    rintro done x hx _ ⟨hsub, pre, new, rfl, h⟩
    have hsub' : done ++ [x] ⊆ l := List.append_subset.mpr ⟨hsub, by simpa using hx⟩
    have hc' : Compatible (done ++ [x]) := fun y hy z hz => hc y (hsub' hy) z (hsub' hz)
    exact ⟨_, yields_ensure remove pre new hn ha hx, hsub', _, _, rfl, h.call hc'⟩
  exact ⟨pre, new, h, hs' ▸ hy⟩

-- The chains are added whatever the order of the calls, adding one of them again changes nothing, and
-- removing them restores the table.
theorem chains_restored (hn : s.netns ns = some n) (ha : Addable n.nat l) (hc : Compatible l) (hr : Deletes remove l) :
    ∃ t, Yields (removing remove) (forEach l (·.ensure ns)) s () (s.withNat ns t) ∧
      (∀ x ∈ l, Yields (removing remove) (x.ensure ns) (s.withNat ns t) () (s.withNat ns t)) ∧
      (∀ c, (∀ x ∈ l, x.target ≠ c) → ∃ js, t.find c = (n.nat.find c).map (js ++ ·) ∧
        ((∀ x ∈ l, x.source ≠ c) → js = [])) ∧
      ∀ refs : List ChainRef, (∀ c, c ∈ refs ↔ ∃ x ∈ l, x.ref = c) →
        Yields (removing remove) (removeIPTablesChains ns refs) (s.withNat ns t) () s ∧
        ∀ s' n', s'.netns ns = some n' → (∀ c ∈ refs, c.target ∉ n'.nat.names) →
          Yields (removing remove) (removeIPTablesChains ns refs) s' () s' := by
  obtain ⟨pre, new, h, hy⟩ := yields_ensure_all remove hn ha hc
  refine ⟨layout n.nat pre new, hy, fun x hx => ?_, fun c ht => ⟨pre c, ?_, fun hs => ?_⟩, fun refs hrefs => ⟨?_, ?_⟩⟩
  case refine_1 =>
    have hx' := yields_ensure remove pre new hn ha hx
    have ⟨hi, hcr⟩ := h.again hx
    rwa [hi, hcr] at hx'
  case refine_2 =>
    have hnone : new.find c = none := by
      by_contra hf
      have ⟨rs, hf⟩ := Option.ne_none_iff_exists'.mp hf
      have ⟨x, hx, he, _⟩ := h.chains c rs hf
      exact ht x hx he
    rw [layout, Table.find_append, Table.find_inserting, hnone, Option.or_none]
  case refine_3 =>
    refine List.eq_nil_iff_forall_not_mem.mpr fun r hr => ?_
    have ⟨x, hx, he, _⟩ := h.jumps c r hr
    exact hs x hx he
  case refine_4 =>
    have hrem := yields_removeIPTablesChains hn ha hr h hrefs
    rwa [Node.withNat_self hn] at hrem
  case refine_5 => exact fun s' n' hn' habs => yields_removeIPTablesChains_absent hn' habs

end Chains

namespace Sample

-- The chains of the table of the host and of a gateway.

def exempting : ChainSpec := ⟨Chains.snat, postrouting, Chains.noMasqueradeComment, []⟩

def marking (mark : Int) : ChainSpec :=
  ⟨Chains.mark 6000, prerouting, Chains.markComment "wg-6000", [Chains.markRule "wg-6000" mark]⟩

def chained (l : List ChainSpec) : Outcome Sig Node Unit :=
  run (removing fun t c => some (t.drop c)) .calm 0 (forEach l (·.ensure .host)) {}

end Sample

open Sample in
theorem chains_restored_sample : ∃ t,
    Yields world (forEach [exempting, marking 6000] (·.ensure .host)) {} () (Node.withNat {} .host t) ∧
    Yields world (removeIPTablesChains .host [exempting.ref, (marking 6000).ref]) (Node.withNat {} .host t) () {} := by
  have ha : Addable Table.empty [exempting, marking 6000] :=
    ⟨by decide +kernel, by decide +kernel, by decide +kernel, by decide +kernel⟩
  have hc : Compatible [exempting, marking 6000] := by
    unfold Compatible
    decide +kernel
  have hr : Deletes Table.removeChain [exempting, marking 6000] := by
    exact .inr ⟨rfl, by decide +kernel, by decide +kernel⟩
  have hn : Node.netns {} .host = some {} := rfl
  have hrefs : ∀ c, c ∈ [exempting.ref, (marking 6000).ref] ↔ ∃ x ∈ [exempting, marking 6000], x.ref = c := by
    simp [eq_comm]
  have ⟨t, hy, _, _, hrem⟩ := chains_restored hn ha hc hr
  rw [removing_removeChain] at hy hrem
  exact ⟨t, hy, (hrem _ hrefs).left⟩

open Sample in
-- Two calls that do not agree on the rules of a chain: repeating the first one changes the chain again.
theorem chains_disagree :
    Addable Table.empty [marking 1, marking 2] ∧ [marking 1, marking 2].Nodup ∧
    (chained [marking 1, marking 2]).result.isOk = true ∧ (chained [marking 1, marking 2, marking 1]).result.isOk = true ∧
    (chained [marking 1, marking 2, marking 1]).state.host.nat ≠ (chained [marking 1, marking 2]).state.host.nat := by
  have ha : Addable Table.empty [marking 1, marking 2] :=
    ⟨by decide +kernel, by decide +kernel, by decide +kernel, by decide +kernel⟩
  refine ⟨ha, ?_⟩
  decide +kernel

end Daemon
