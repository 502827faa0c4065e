import EgressGateway.Base.Iptables
import Mathlib.Data.List.Nodup
import Mathlib.Logic.Function.Basic

-- A chain all of whose rules jump, unconditionally, to a chain of their own: one per key. This is how
-- a program keeps the rules of many clients apart in a table that they share.

namespace Iptables

structure Dispatch (K : Type) where
  source     : String
  chain      : K → String
  jump       : K → Rule
  target     : ∀ k, (jump k).target = .jump (chain k)
  always     : ∀ k p, (jump k).holds p = true
  chain_inj  : Function.Injective chain
  chain_ne   : ∀ k, chain k ≠ source

namespace Dispatch

-- The part of a table that a dispatch is about: the keys in the order of the jumps, and the rules of
-- the chains. No jump leads nowhere.
structure View (K : Type) where
  keys  : List K
  body  : K → Option (List Rule)
  nodup : keys.Nodup
  live  : ∀ k ∈ keys, (body k).isSome

variable {K : Type} [DecidableEq K]

namespace View

variable (v : View K) (k : K)

-- `v'` differs from `v` in nothing but `k`, and its rules are either those of `v` or among `rules`.
structure Moved (rules : List (List Rule)) (v' : View K) : Prop where
  keys : ∀ j ≠ k, j ∈ v'.keys ↔ j ∈ v.keys
  body : ∀ j ≠ k, v'.body j = v.body j
  self : ∀ rs, v'.body k = some rs → v.body k = some rs ∨ rs ∈ rules

def create : View K where
  keys  := v.keys
  body  := Function.update v.body k (some ((v.body k).getD []))
  nodup := v.nodup
  live j hj := by
    by_cases h : j = k
    case pos => rw [h, Function.update_self]; rfl
    case neg => rw [Function.update_of_ne h]; exact v.live j hj

def enlist (h : (v.body k).isSome) : View K where
  keys  := v.keys.insert k
  body  := v.body
  nodup := v.nodup.insert
  live j hj := by
    rcases List.mem_insert_iff.mp hj with rfl | hj
    · exact h
    · exact v.live j hj

def fill (rs : List Rule) : View K where
  keys  := v.keys
  body  := Function.update v.body k (some rs)
  nodup := v.nodup
  live j hj := by
    by_cases h : j = k
    case pos => rw [h, Function.update_self]; rfl
    case neg => rw [Function.update_of_ne h]; exact v.live j hj

def delist : View K where
  keys  := v.keys.erase k
  body  := v.body
  nodup := v.nodup.erase k
  live j hj := v.live j (List.mem_of_mem_erase hj)

def remove (h : k ∉ v.keys) : View K where
  keys  := v.keys
  body  := Function.update v.body k none
  nodup := v.nodup
  live j hj := by
    have hne : j ≠ k := fun he => h (he ▸ hj)
    rw [Function.update_of_ne hne]
    exact v.live j hj

variable {v k} {v' v'' : View K} {rules : List (List Rule)}

omit [DecidableEq K] in
theorem Moved.refl : v.Moved k rules v where
  keys _ _ := Iff.rfl
  body _ _ := rfl
  self _ h := .inl h

omit [DecidableEq K] in
theorem Moved.trans (h : v.Moved k rules v') (h' : v'.Moved k rules v'') : v.Moved k rules v'' where
  keys j hj := (h'.keys j hj).trans (h.keys j hj)
  body j hj := (h'.body j hj).trans (h.body j hj)
  self rs hr := (h'.self rs hr).elim (h.self rs) .inr

omit [DecidableEq K] in
theorem not_mem_of_body (h : v.body k = none) : k ∉ v.keys := by
  intro hk
  have := v.live k hk
  simp [h] at this

end View

variable (D : Dispatch K)

structure Shows (v : View K) (t : Table) : Prop where
  source : (t.find D.source).getD [] = v.keys.map D.jump
  chain  : ∀ k, t.find (D.chain k) = v.body k

-- What an edit on behalf of `k` may do: it touches neither other keys nor other chains.
structure Edited (k : K) (rules : List (List Rule)) (v : View K) (t : Table) (v' : View K) (t' : Table) :
    Prop where
  shows  : D.Shows v' t'
  moved  : v.Moved k rules v'
  source : (t.find D.source).isSome = true → (t'.find D.source).isSome = true
  frame  : ∀ d, d ≠ D.source → d ≠ D.chain k → t'.find d = t.find d

variable {D} {k : K} {v v' v'' : View K} {t t' t'' : Table} {rules : List (List Rule)}

omit [DecidableEq K] in
theorem Edited.refl (h : D.Shows v t) : D.Edited k rules v t v t where
  shows       := h
  moved       := .refl
  source      := id
  frame _ _ _ := rfl

omit [DecidableEq K] in
theorem Edited.trans (h : D.Edited k rules v t v' t') (h' : D.Edited k rules v' t' v'' t'') :
    D.Edited k rules v t v'' t'' where
  shows  := h'.shows
  moved  := h.moved.trans h'.moved
  source := h'.source ∘ h.source
  frame d hs hc := (h'.frame d hs hc).trans (h.frame d hs hc)

omit [DecidableEq K] in
theorem jump_inj (D : Dispatch K) : Function.Injective D.jump := by
  intro j k h
  have ht := D.target j
  rw [h, D.target k] at ht
  exact D.chain_inj (Target.jump.inj ht).symm

-- A view is insensitive to changes elsewhere in the table.
omit [DecidableEq K] in
theorem Shows.congr (h : D.Shows v t) (hs : t'.find D.source = t.find D.source)
    (hc : ∀ k, t'.find (D.chain k) = t.find (D.chain k)) : D.Shows v t' where
  source  := hs ▸ h.source
  chain k := (hc k).trans (h.chain k)

-- Edits of the chain of one key.
theorem Shows.update (h : D.Shows v t) {b : Option (List Rule)} (hk : v'.keys = v.keys)
    (hb : v'.body = Function.update v.body k b)
    (hf : ∀ d, t'.find d = if d = D.chain k then b else t.find d)
    (hr : ∀ rs, b = some rs → v.body k = some rs ∨ rs ∈ rules) : D.Edited k rules v t v' t' where
  shows := by
    constructor
    case source =>
      rw [hf, if_neg (D.chain_ne k).symm, hk]
      exact h.source
    case chain =>
      intro j
      rw [hf, hb]
      by_cases hj : j = k
      case pos => rw [hj, if_pos rfl, Function.update_self]
      case neg =>
        rw [if_neg fun he => hj (D.chain_inj he), Function.update_of_ne hj]
        exact h.chain j
  moved := by
    constructor
    case keys => simp [hk]
    case body =>
      intro j hj
      rw [hb, Function.update_of_ne hj]
    case self =>
      intro rs he
      rw [hb, Function.update_self] at he
      exact hr rs he
  source hs := by rwa [hf, if_neg (D.chain_ne k).symm]
  frame d _ hc := by rw [hf, if_neg hc]

-- Edits of the jumps.
omit [DecidableEq K] in
theorem Shows.relist (h : D.Shows v t) (hk : ∀ j ≠ k, j ∈ v'.keys ↔ j ∈ v.keys)
    (hb : v'.body = v.body) (hs : (t'.find D.source).getD [] = v'.keys.map D.jump)
    (hx : (t.find D.source).isSome = true → (t'.find D.source).isSome = true)
    (hn : ∀ d ≠ D.source, t'.find d = t.find d) : D.Edited k rules v t v' t' where
  shows := by
    constructor
    case source => exact hs
    case chain =>
      intro j
      rw [hn _ (D.chain_ne j), hb]
      exact h.chain j
  moved := ⟨hk, fun j _ => by rw [hb], fun rs hr => .inl (hb ▸ hr)⟩
  source := hx
  frame d hs _ := hn d hs

theorem edited_ensureChain (h : D.Shows v t) (hr : [] ∈ rules) :
    D.Edited k rules v t (v.create k) (t.ensureChain (D.chain k)) := by
  refine h.update rfl rfl (fun d => ?_) fun rs he => ?_
  · rw [Table.find_ensureChain, h.chain]
  · cases hb : v.body k
    case none =>
      rw [hb] at he
      exact .inr (Option.some.inj he ▸ hr)
    case some => rw [hb] at he; exact .inl he

theorem edited_ensureRule (h : D.Shows v t) (hl : (v.body k).isSome)
    (he : t.ensureRule D.source (D.jump k) = some t') :
    D.Edited k rules v t (v.enlist k hl) t' := by
  have ⟨rs, hs, hf⟩ := Table.find_ensureRule he
  have hv : rs = v.keys.map D.jump := by
    have := h.source
    rw [hs] at this
    exact this
  have hm : D.jump k ∈ rs ↔ k ∈ v.keys := by
    rw [hv, List.mem_map_of_injective D.jump_inj]
  refine h.relist (fun j hj => ?_) rfl ?_ (fun _ => ?_) fun d hd => ?_
  · exact ⟨fun hm => (List.mem_insert_iff.mp hm).resolve_left hj, List.mem_insert_of_mem⟩
  · rw [hf, if_pos rfl, Option.getD_some]
    by_cases hk : k ∈ v.keys
    case pos =>
      have hi : (v.enlist k hl).keys = v.keys := List.insert_of_mem hk
      rw [Table.withRule, if_pos (hm.mpr hk), hi, hv]
    case neg =>
      have hi : (v.enlist k hl).keys = k :: v.keys := List.insert_of_not_mem hk
      rw [Table.withRule, if_neg (mt hm.mp hk), hi, List.map_cons, hv]
  · rw [hf, if_pos rfl]
    rfl
  · rw [hf, if_neg hd]

theorem edited_restoreAll (h : D.Shows v t) {rs : List Rule} (hr : rs ∈ rules) :
    D.Edited k rules v t (v.fill k rs) (t.restoreAll (D.chain k) rs) :=
  h.update rfl rfl (fun _ => Table.find_restoreAll) fun _ he => .inr (Option.some.inj he ▸ hr)

theorem edited_deleteRule (h : D.Shows v t) :
    D.Edited k rules v t (v.delist k) (t.deleteRule D.source (D.jump k)) := by
  have he : ((t.find D.source).map (·.erase (D.jump k))).getD [] = (v.keys.erase k).map D.jump := by
    rw [List.map_erase D.jump_inj, ← h.source]
    cases t.find D.source <;> rfl
  refine h.relist (fun j hj => List.mem_erase_of_ne hj) rfl ?_ (fun hx => ?_) fun d hd => ?_
  · rw [Table.find_deleteRule, if_pos rfl]
    exact he
  · rwa [Table.find_deleteRule, if_pos rfl, Option.isSome_map]
  · rw [Table.find_deleteRule, if_neg hd]

omit [DecidableEq K] in
theorem edited_deleteOther (h : D.Shows v t) {r : Rule} (hr : ∀ j, r ≠ D.jump j) :
    D.Edited k rules v t v (t.deleteRule D.source r) := by
  have he : ((t.find D.source).map (·.erase r)).getD [] = v.keys.map D.jump := by
    have hm : r ∉ v.keys.map D.jump := fun hm => by
      have ⟨j, _, hj⟩ := List.mem_map.mp hm
      exact hr j hj.symm
    rw [← List.erase_of_not_mem hm, ← h.source]
    cases t.find D.source <;> rfl
  refine h.relist (fun j _ => Iff.rfl) rfl ?_ (fun hx => ?_) fun d hd => ?_
  · rw [Table.find_deleteRule, if_pos rfl]
    exact he
  · rwa [Table.find_deleteRule, if_pos rfl, Option.isSome_map]
  · rw [Table.find_deleteRule, if_neg hd]

-- A chain can only be removed once no rule jumps to it.
theorem edited_removeChain (h : D.Shows v t) (he : t.removeChain (D.chain k) = some t') :
    ∃ hk : k ∉ v.keys, D.Edited k rules v t (v.remove k hk) t' := by
  have hk : k ∉ v.keys := by
    intro hk
    have hr : (t.set (D.chain k) []).references (D.chain k) = true := by
      refine Table.references_iff.mpr ⟨D.source, v.keys.map D.jump, ?_, D.jump k, ?_, D.target k⟩
      · rw [Table.find_set, if_neg (D.chain_ne k).symm]
        have hs := h.source
        cases hf : t.find D.source
        case none =>
          rw [hf] at hs
          have := List.map_eq_nil_iff.mp hs.symm
          simp [this] at hk
        case some => rw [hf] at hs; exact congrArg some hs
      · exact List.mem_map_of_mem hk
    rw [Table.removeChain, if_pos hr] at he
    nomatch he
  exact ⟨hk, h.update rfl rfl (fun _ => Table.find_removeChain he) fun _ hn => nomatch hn⟩

-- A chain together with the rules that jump to it, in a table of which nothing else is known.
structure Placed (D : Dispatch K) (k : K) (n : Nat) (t : Table) : Prop where
  jumps : ((t.find D.source).getD []).count (D.jump k) = n
  chain : (t.find (D.chain k)).isSome = true

section Placed

variable {n : Nat} {d : String} {r : Rule}

omit [DecidableEq K] in
theorem Placed.deleteRule (h : D.Placed k n t) (hr : d ≠ D.source ∨ r ≠ D.jump k) :
    D.Placed k n (t.deleteRule d r) where
  jumps := by
    rw [Table.find_deleteRule]
    split
    case isFalse => exact h.jumps
    case isTrue hs =>
      have hr := hr.resolve_left fun hd => hd hs.symm
      have hj := h.jumps
      rw [hs] at hj
      cases hf : t.find d
      case none => rw [hf] at hj; exact hj
      case some rs => rw [hf] at hj; exact (List.count_erase_of_ne hr.symm).trans hj
  chain := by
    rw [Table.find_deleteRule]
    split
    case isFalse   => exact h.chain
    case isTrue hc => rw [Option.isSome_map, ← hc]; exact h.chain

-- As long as a rule jumps to it, the chain cannot be removed.
omit [DecidableEq K] in
theorem count_deleteRule (t : Table) : (((t.deleteRule D.source (D.jump k)).find D.source).getD []).count (D.jump k) =
    ((t.find D.source).getD []).count (D.jump k) - 1 := by
  rw [Table.find_deleteRule, if_pos rfl]
  cases t.find D.source
  case none    => rfl
  case some rs => exact List.count_erase_self

omit [DecidableEq K] in
theorem Placed.removeChain (h : D.Placed k n t) (hn : 0 < n) (hd : d ≠ D.source)
    (he : t.removeChain d = some t') : D.Placed k n t' where
  jumps := by
    rw [Table.find_removeChain he, if_neg hd.symm]
    exact h.jumps
  chain := by
    rw [Table.find_removeChain he]
    split
    case isFalse => exact h.chain
    case isTrue hc =>
      have hj : D.jump k ∈ (t.find D.source).getD [] := List.count_pos_iff.mp (h.jumps ▸ hn)
      cases hf : t.find D.source
      case none => simp [hf] at hj
      case some rs =>
        have hr : (t.set d []).references d = true := by
          refine Table.references_iff.mpr ⟨D.source, rs, ?_, D.jump k, ?_, hc ▸ D.target k⟩
          · rw [Table.find_set, if_neg hd.symm, hf]
          · simpa [hf] using hj
        rw [Table.removeChain, if_pos hr] at he
        nomatch he

end Placed

-- Traversal of the jumps: they are taken one after the other until one of the chains reaches a verdict.

section Walk

variable {enter : String → Packet → Option Verdict} {ks : List K} {p : Packet}

omit [DecidableEq K] in
theorem walk_jumps_pass (h : ∀ k ∈ ks, enter (D.chain k) p = some (.next p)) :
    walk enter (ks.map D.jump) p = some (.next p) := by
  induction ks
  case nil => rfl
  case cons k ks hi =>
    rw [List.map_cons, walk, if_pos (D.always k p)]
    simp only [D.target k, h k List.mem_cons_self]
    exact hi fun j hj => h j (List.mem_cons_of_mem _ hj)

omit [DecidableEq K] in
theorem walk_jumps {vd : Verdict} (hn : ks.Nodup) (hk : k ∈ ks) (he : enter (D.chain k) p = some vd)
    (others : ∀ j ∈ ks, j ≠ k → ∀ q, q = p ∨ vd = .next q → enter (D.chain j) q = some (.next q)) :
    walk enter (ks.map D.jump) p = some vd := by
  induction ks
  case nil => nomatch hk
  case cons j ks hi =>
    have ⟨hj, hn⟩ := List.nodup_cons.mp hn
    rw [List.map_cons, walk, if_pos (D.always j p)]
    simp only [D.target j]
    by_cases h : j = k
    case pos =>
      rw [h, he]
      cases vd
      case next q =>
        refine walk_jumps_pass fun i hi => others i (List.mem_cons_of_mem _ hi) ?_ q (.inr rfl)
        exact fun he => hj (h ▸ he ▸ hi)
      case accept | snat => rfl
    case neg =>
      rw [others j List.mem_cons_self h p (.inl rfl)]
      have hk : k ∈ ks := (List.mem_cons.mp hk).resolve_left fun he => h he.symm
      exact hi hn hk fun i hi => others i (List.mem_cons_of_mem _ hi)

end Walk

end Dispatch

namespace Dispatch

variable {K : Type} {D : Dispatch K} {t t' : Table}

-- Nothing but the source chain jumps to the chains of the dispatch, and there is at most one jump for each.
structure Sole (D : Dispatch K) (t : Table) : Prop where
  jumps : ∀ c rs, t.find c = some rs → ∀ r ∈ rs, ∀ k, r.target = .jump (D.chain k) → c = D.source ∧ r = D.jump k
  once  : ∀ rs, t.find D.source = some rs → ∀ k, rs.count (D.jump k) ≤ 1

section Sole

variable {c : String} {r : Rule} {rs : List Rule}

-- Chains only lose rules, or do not jump to the chains of the dispatch.
theorem Sole.shrink (h : D.Sole t)
    (hs : ∀ d rs', t'.find d = some rs' →
      (∀ r ∈ rs', ∀ k, r.target ≠ .jump (D.chain k)) ∨ ∃ rs, t.find d = some rs ∧ rs'.Sublist rs) :
    D.Sole t' where
  jumps d rs' hd r hr k hk := by
    rcases hs d rs' hd with hn | ⟨rs, hd', hsub⟩
    · exact absurd hk (hn r hr k)
    · exact h.jumps d rs hd' r (hsub.subset hr) k hk
  once rs' hd k := by
    rcases hs _ rs' hd with hn | ⟨rs, hd', hsub⟩
    · have hm : D.jump k ∉ rs' := fun hm => hn _ hm k (D.target k)
      simp [List.count_eq_zero.mpr hm]
    · exact Nat.le_trans (List.Sublist.count_le _ hsub) (h.once rs hd' k)

theorem Sole.ensureChain (h : D.Sole t) : D.Sole (t.ensureChain c) := by
  refine h.shrink fun d rs' hd => ?_
  rw [Table.find_ensureChain] at hd
  split at hd
  case isFalse => exact .inr ⟨rs', hd, .refl _⟩
  case isTrue he =>
    cases hc : t.find c
    case none =>
      rw [hc] at hd
      exact .inl fun r hr => by simp [← Option.some.inj hd] at hr
    case some rs =>
      rw [hc] at hd
      exact .inr ⟨rs, he ▸ hc, by rw [← Option.some.inj hd]; exact .refl _⟩

theorem Sole.restoreAll (h : D.Sole t) (hr : ∀ r ∈ rs, ∀ k, r.target ≠ .jump (D.chain k)) :
    D.Sole (t.restoreAll c rs) := by
  refine h.shrink fun d rs' hd => ?_
  rw [Table.find_restoreAll] at hd
  split at hd
  case isTrue  => exact .inl (Option.some.inj hd ▸ hr)
  case isFalse => exact .inr ⟨rs', hd, .refl _⟩

theorem Sole.deleteRule (h : D.Sole t) : D.Sole (t.deleteRule c r) := by
  refine h.shrink fun d rs' hd => ?_
  rw [Table.find_deleteRule] at hd
  split at hd
  case isFalse => exact .inr ⟨rs', hd, .refl _⟩
  case isTrue he =>
    obtain ⟨rs, hc, rfl⟩ := Option.map_eq_some_iff.mp hd
    exact .inr ⟨rs, he ▸ hc, List.erase_sublist⟩

theorem Sole.removeChain (h : D.Sole t) (he : t.removeChain c = some t') : D.Sole t' := by
  refine h.shrink fun d rs' hd => ?_
  rw [Table.find_removeChain he] at hd
  split at hd
  case isTrue  => cases hd
  case isFalse => exact .inr ⟨rs', hd, .refl _⟩

-- A jump to one of the chains is put where it belongs.
theorem Sole.ensureRule (h : D.Sole t) (hr : ∀ k, r.target = .jump (D.chain k) → c = D.source ∧ r = D.jump k)
    (he : t.ensureRule c r = some t') : D.Sole t' := by
  have ⟨rs, hc, hf⟩ := Table.find_ensureRule he
  constructor
  case jumps =>
    intro d rs' hd r' hr' k hk
    rw [hf] at hd
    split at hd
    case isFalse => exact h.jumps d rs' hd r' hr' k hk
    case isTrue hdc =>
      subst hdc
      have hm : r' = r ∨ r' ∈ rs := by
        rw [← Option.some.inj hd, Table.withRule] at hr'
        split at hr'
        · exact .inr hr'
        · exact List.mem_cons.mp hr'
      rcases hm with rfl | hm
      · exact hr k hk
      · exact h.jumps d rs hc r' hm k hk
  case once =>
    intro rs' hd k
    rw [hf] at hd
    split at hd
    case isFalse => exact h.once rs' hd k
    case isTrue hdc =>
      subst hdc
      have hold := h.once rs hc k
      rw [← Option.some.inj hd, Table.withRule]
      split
      case isTrue => exact hold
      case isFalse hnot =>
        by_cases hj : r = D.jump k
        · simp [hj, List.count_eq_zero.mpr (hj ▸ hnot)]
        · rwa [List.count_cons_of_ne hj]

-- Without its jump, a chain can be removed.
theorem Sole.removable (h : D.Sole t) (k : K) :
    ∃ t', (t.deleteRule D.source (D.jump k)).removeChain (D.chain k) = some t' := by
  refine ⟨_, if_neg fun hr => ?_⟩
  obtain ⟨d, rs, hd, r, hm, ht⟩ := Table.references_iff.mp hr
  rw [Table.find_set] at hd
  split at hd
  case isTrue => simp [← Option.some.inj hd] at hm
  case isFalse =>
    obtain ⟨rfl, rfl⟩ := h.deleteRule.jumps d rs hd r hm k ht
    rw [Table.find_deleteRule, if_pos rfl] at hd
    obtain ⟨rs₀, h₀, rfl⟩ := Option.map_eq_some_iff.mp hd
    have hc := h.once rs₀ h₀ k
    have hp := List.count_pos_iff.mpr hm
    rw [List.count_erase_self] at hp
    omega

end Sole

end Dispatch

end Iptables
