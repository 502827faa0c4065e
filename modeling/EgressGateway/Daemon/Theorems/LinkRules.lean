import EgressGateway.Daemon.Theorems.Nat

-- The rules of the gateway links in the table of the gateway namespace, and how the daemon changes them.

open Kubernetes Text Net Program Iptables

namespace Daemon

-- The rules of the gateway links, by their packet marks.
structure LinkRules where
  marks : Dispatch.View Int
  snats : Dispatch.View Int

namespace LinkRules

structure Shown (v : LinkRules) (t : Table) : Prop where
  marks : Chains.marks.Shows v.marks t
  snats : Chains.snats.Shows v.snats t
  pre   : (t.find prerouting).isSome = true
  post  : (t.find postrouting).isSome = true

structure Moved (v : LinkRules) (k : Int) (ms ss : List (List Rule)) (v' : LinkRules) : Prop where
  marks : v.marks.Moved k ms v'.marks
  snats : v.snats.Moved k ss v'.snats

variable {v : LinkRules} {t t' : Table} {k : Int} {rs : List (List Rule)} {w : Dispatch.View Int}

-- The two families of chains do not interfere.

theorem Shown.marks_edited (h : v.Shown t) (he : Chains.marks.Edited k rs v.marks t w t') :
    Shown ⟨w, v.snats⟩ t' where
  marks := he.shows
  snats := by
    refine h.snats.congr (he.frame _ ?_ ?_) fun j => he.frame _ ?_ ?_
    · exact Chains.prerouting_ne_postrouting.symm
    · exact (Chains.mark_ne_postrouting k).symm
    · exact Chains.snatOf_ne_prerouting j
    · exact (Chains.mark_ne_snatOf k j).symm
  pre  := he.source h.pre
  post := by
    have hp := he.frame _ Chains.prerouting_ne_postrouting.symm (Chains.mark_ne_postrouting k).symm
    exact hp ▸ h.post

theorem Shown.snats_edited (h : v.Shown t) (he : Chains.snats.Edited k rs v.snats t w t') :
    Shown ⟨v.marks, w⟩ t' where
  marks := by
    refine h.marks.congr (he.frame _ ?_ ?_) fun j => he.frame _ ?_ ?_
    · exact Chains.prerouting_ne_postrouting
    · exact (Chains.snatOf_ne_prerouting k).symm
    · exact Chains.mark_ne_postrouting j
    · exact Chains.mark_ne_snatOf j k
  snats := he.shows
  pre   := by
    have hp := he.frame _ Chains.prerouting_ne_postrouting (Chains.snatOf_ne_prerouting k).symm
    exact hp ▸ h.pre
  post  := he.source h.post

def init : LinkRules where
  marks := ⟨[], fun _ => none, List.nodup_nil, nofun⟩
  snats := ⟨[], fun _ => none, List.nodup_nil, nofun⟩

theorem find_empty {c : String} (h : ∀ ch ∈ Table.empty, ch.name ≠ c) : Table.empty.find c = none := by
  cases hf : Table.empty.find c
  case none => rfl
  case some rs =>
    have ⟨ch, hm, hn⟩ := Table.exists_mem_of_find hf
    exact absurd hn (h ch hm)

theorem shown_init : init.Shown Table.empty where
  marks := by
    refine ⟨by decide +kernel, fun k => find_empty fun ch hm he => ?_⟩
    simp only [Table.empty, List.mem_cons, List.not_mem_nil, or_false] at hm
    rcases hm with rfl | rfl | rfl | rfl <;> exact ne_literal_of_diverge (by decide +kernel) _ he.symm
  snats := by
    refine ⟨by decide +kernel, fun k => find_empty fun ch hm he => ?_⟩
    simp only [Table.empty, List.mem_cons, List.not_mem_nil, or_false] at hm
    rcases hm with rfl | rfl | rfl | rfl <;> exact ne_literal_of_diverge (by decide +kernel) _ he.symm
  pre  := by decide +kernel
  post := by decide +kernel

end LinkRules

section Operations

variable {v : LinkRules} {s : Node} {A : Fault → Prop} {gwConfig : StaticGatewayConfiguration}
  {privateKey : Key} {vmPrimaryIP vmSecondaryIP : String}

theorem getPacketMark_linkNameOf {k mark : Int} (h : getPacketMark (linkNameOf k) = .ok mark) :
    mark = k := by
  unfold getPacketMark linkNameOf at h
  rw [trimPrefix_append] at h
  split at h
  case h_1 ha => exact Except.ok.inj h ▸ eq_of_atoi_toString ha
  case h_2    => nomatch h

-- The rules that a configured link has.
def Configured (v : LinkRules) (k : Int) (ip : String) : Prop :=
  k ∈ v.marks.keys ∧ v.marks.body k = some [Chains.markRule (linkNameOf k) k] ∧
  k ∈ v.snats.keys ∧ v.snats.body k = some [Chains.snatRule k ip]

theorem shown_of_uses {α : Type} {p : M α} (hv : v.Shown (s.nat .gateway))
    (h : p.Uses fun c : Call => c.writes (.nat .gateway) = false) :
    wp world (.faults A) p (fun _ s' => v.Shown (s'.nat .gateway)) s :=
  wp_mono (nat_of_uses h) fun _ _ hn => hn.symm ▸ hv

def Reconfigured (v : LinkRules) (k : Int) (ip : String) (r : Except Err Unit) (s' : Node) : Prop :=
  ∃ v' : LinkRules, v'.Shown (s'.nat .gateway) ∧
    v.Moved k [[], [Chains.markRule (linkNameOf k) k]] [[], [Chains.snatRule k ip]] v' ∧
    (r = .ok () → Configured v' k ip)

theorem Reconfigured.idle {k : Int} {ip : String} {e : Err} (hv : v.Shown (s.nat .gateway)) :
    Reconfigured v k ip (.error e) s :=
  ⟨v, hv, ⟨.refl, .refl⟩, nofun⟩

-- The part of `configureGatewayNamespace` that is about packets.
theorem wp_ensureLinkRules {k : Int} {ip : String} (hv : v.Shown (s.nat .gateway)) :
    wp world (.faults A) (do
      ensureIPTablesChain .gateway (Chains.mark k) prerouting (Chains.markComment (linkNameOf k))
        [Chains.markRule (linkNameOf k) k]
      ensureIPTablesChain .gateway (Chains.snatOf k) postrouting (Chains.snatComment (linkNameOf k))
        [Chains.snatRule k ip]) (Reconfigured v k ip) s := by
  refine wp_seq (wp_ensureIPTablesChain (D := Chains.marks) (k := k) hv.marks (by simp) rfl)
    (fun _ s₁ ⟨m, hm, pm⟩ => ?_) fun _ s₁ ⟨m, hm, _⟩ => ?_
  case refine_2 => exact ⟨⟨m, v.snats⟩, hv.marks_edited hm, ⟨hm.moved, .refl⟩, nofun⟩
  have hv₁ := hv.marks_edited hm
  refine wp_mono (wp_ensureIPTablesChain (D := Chains.snats) (k := k) hv₁.snats (by simp) rfl)
    fun r s₂ ⟨w, hw, pw⟩ => ?_
  exact ⟨⟨m, w⟩, hv₁.snats_edited hw, ⟨hm.moved, hw.moved⟩, fun hr => ⟨(pm rfl).1, (pm rfl).2, pw hr⟩⟩

theorem wp_configureGatewayNamespace (hv : v.Shown (s.nat .gateway)) :
    wp world (.faults A) (configureGatewayNamespace gwConfig privateKey vmPrimaryIP vmSecondaryIP)
      (Reconfigured v (port gwConfig) vmSecondaryIP) s := by
  refine wp_seq (shown_of_uses hv (uses_wrapError (uses_request rfl))) (fun _ s hv => ?_) fun _ _ => .idle
  refine wp_seq (shown_of_uses hv (uses_reconcileWireguardLink.mono fun _ => nat_of_wireguardCalls))
    (fun _ s hv => ?_) fun _ _ => .idle
  refine wp_seq (shown_of_uses hv (uses_reconcileVethPair.mono fun _ => nat_of_vethCalls))
    (fun _ s hv => ?_) fun _ _ => .idle
  refine wp_seq (shown_of_uses hv (uses_wrapError (uses_request rfl))) (fun _ s hv => ?_) fun _ _ => .idle
  refine wp_seq (shown_of_uses hv (uses_wrapError (uses_request rfl))) (fun _ s hv => ?_) fun _ _ => .idle
  refine wp_seq (P := fun r s' => getPacketMark (getWireguardInterfaceName gwConfig) = r ∧
    v.Shown (s'.nat .gateway)) (wp_ofExcept.mpr ⟨rfl, hv⟩) (fun mark s ⟨hm, hv⟩ => ?_) fun _ _ h => .idle h.right
  have he : mark = port gwConfig := getPacketMark_linkNameOf hm
  subst he
  exact wp_ensureLinkRules hv

-- After a deletion without an error there are no rules left for the mark of the link. A link that does
-- not have the name of its mark cannot harm the one that does.
def Unconfigured (v : LinkRules) (link : String) (k : Int) (r : Except Err Unit) (s' : Node) : Prop :=
  ∃ v' : LinkRules, v'.Shown (s'.nat .gateway) ∧ v.Moved k [] [] v' ∧
    (link ≠ linkNameOf k → (k ∈ v.marks.keys → k ∈ v'.marks.keys) ∧ (k ∈ v.snats.keys → k ∈ v'.snats.keys)) ∧
    (r = .ok () → v'.marks.body k = none ∧ v'.snats.body k = none)

theorem Unconfigured.idle {link : String} {k : Int} {e : Err} (hv : v.Shown (s.nat .gateway)) :
    Unconfigured v link k (.error e) s :=
  ⟨v, hv, ⟨.refl, .refl⟩, fun _ => ⟨id, id⟩, nofun⟩

-- What happens after the removal of the rules does not matter any more.
theorem Unconfigured.later {link : String} {k : Int} {r r' : Except Err Unit} {s' : Node}
    (h : Unconfigured v link k r s) (hs : s'.nat .gateway = s.nat .gateway)
    (hr : r' = .ok () → r = .ok ()) : Unconfigured v link k r' s' := by
  have ⟨v', hv, hm, hl, ho⟩ := h
  exact ⟨v', hs ▸ hv, hm, hl, ho ∘ hr⟩

-- Removal of both chains of a mark.
theorem wp_removeLinkRules {k : Int} {link : String} (hv : v.Shown (s.nat .gateway)) :
    wp world (.faults A) (removeIPTablesChains .gateway [
      ⟨Chains.mark k, prerouting, Chains.markComment link⟩,
      ⟨Chains.snatOf k, postrouting, Chains.snatComment link⟩]) (Unconfigured v link k) s := by
  refine wp_seq (wp_saveInto _) (fun names s₀ ⟨hs, hn⟩ => ?_) fun _ _ ⟨hs, _⟩ => .idle (hs ▸ hv)
  subst hs
  have hn := hn names rfl
  have hm : Chains.mark k ∈ names ↔ (v.marks.body k).isSome = true := by
    rw [hn, ← hv.marks.chain k]
    rfl
  have hs : Chains.snatOf k ∈ names ↔ (v.snats.body k).isSome = true := by
    rw [hn, ← hv.snats.chain k]
    rfl
  refine wp_seq (wp_removeIPTablesChain (D := Chains.marks) hv.marks hm) (fun _ s₁ ⟨m, em, km, pm⟩ => ?_)
    fun _ s₁ ⟨m, em, km, _⟩ => ?_
  case refine_2 =>
    exact ⟨⟨m, v.snats⟩, hv.marks_edited em, ⟨em.moved, .refl⟩, fun h => ⟨km (Chains.jumpRule_ne h.symm), id⟩, nofun⟩
  have hv₁ := hv.marks_edited em
  refine wp_seq (wp_removeIPTablesChain (D := Chains.snats) hv₁.snats hs) (fun _ s₂ ⟨w, ew, kw, pw⟩ => ?_)
    fun _ s₂ ⟨w, ew, kw, _⟩ => ?_
  case refine_2 =>
    exact ⟨⟨m, w⟩, hv₁.snats_edited ew, ⟨em.moved, ew.moved⟩,
      fun h => ⟨km (Chains.jumpRule_ne h.symm), kw (Chains.jumpRule_ne h.symm)⟩, nofun⟩
  exact ⟨⟨m, w⟩, hv₁.snats_edited ew, ⟨em.moved, ew.moved⟩,
    fun h => ⟨km (Chains.jumpRule_ne h.symm), kw (Chains.jumpRule_ne h.symm)⟩, fun _ => ⟨pm rfl, pw rfl⟩⟩

-- Deletion of a link whose name has a mark.
theorem wp_ensureDeleteLink {link : Link} {k : Int} (hv : v.Shown (s.nat .gateway))
    (hk : getPacketMark link.name = .ok k) :
    wp world (.faults A) (ensureDeleteLink link) (Unconfigured v link.name k) s := by
  refine wp_seq (shown_of_uses hv (uses_wrapError (uses_request rfl))) (fun _ s hv => ?_) fun _ _ => .idle
  refine wp_seq (P := fun r s' => r = .ok k ∧ s' = s) (wp_ofExcept.mpr ⟨hk, rfl⟩) ?_ nofun
  rintro mark s' ⟨hm, rfl⟩
  obtain rfl := Except.ok.inj hm
  refine wp_seq (wp_wrapped (wp_removeLinkRules hv) (fun _ _ h => h) fun _ _ h => h.later rfl nofun)
    (fun _ s h => ?_) fun _ _ h => h
  have hu : (Program.bind (updateGatewayNodeStatus { interfaceName := link.name } false) fun _ =>
      request (.removeGateway link.alias_)).Uses fun c : Call => c.writes (.nat .gateway) = false :=
    uses_bind (uses_removeStatus rfl fun _ => rfl) fun _ => uses_request rfl
  exact wp_mono (nat_of_uses hu) fun r s' hs => h.later hs fun _ => rfl

-- Deletion of a link whose name does not have a mark.
theorem wp_ensureDeleteLink_unmarked {link : Link} {e : Err} (hv : v.Shown (s.nat .gateway))
    (hk : getPacketMark link.name = .error e) :
    wp world (.faults A) (ensureDeleteLink link)
      (fun r s' => v.Shown (s'.nat .gateway) ∧ ∃ e, r = .error e) s := by
  refine wp_seq (shown_of_uses hv (uses_wrapError (uses_request rfl))) (fun _ s hv => ?_)
    fun _ _ hv => ⟨hv, _, rfl⟩
  refine wp_seq (P := fun r s' => r = .error e ∧ s' = s) (wp_ofExcept.mpr ⟨hk, rfl⟩) nofun ?_
  rintro _ s' ⟨_, rfl⟩
  exact ⟨hv, _, rfl⟩

end Operations

end Daemon
