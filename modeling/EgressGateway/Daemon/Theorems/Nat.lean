import EgressGateway.Base.Dispatch
import EgressGateway.Daemon.Theorems.Frame

-- The functions that install and remove chains, seen as edits of a dispatch.

open Kubernetes Text Net Program Iptables

namespace Daemon

namespace Chains

theorem linkNameOf_inj {j k : Int} (h : linkNameOf j = linkNameOf k) : j = k :=
  toString_int_inj ((String.append_right_inj _).mp h)

theorem hasPrefix_linkNameOf (k : Int) : hasPrefix (linkNameOf k) wireguardLinkNamePrefix = true := by
  simp [hasPrefix, linkNameOf]

theorem linkNameOf_ne_hostLinkName (k : Int) : linkNameOf k ≠ hostLinkName :=
  ne_literal_of_diverge (by decide +kernel) _

theorem mark_inj {j k : Int} (h : mark j = mark k) : j = k :=
  toString_int_inj ((String.append_right_inj _).mp h)

theorem snatOf_inj {j k : Int} (h : snatOf j = snatOf k) : j = k :=
  toString_int_inj ((String.append_right_inj _).mp h)

-- The chains of the gateway namespace, which mark the packets of a link ...
def marks : Dispatch Int where
  source      := prerouting
  chain       := mark
  jump k      := jumpRule (markComment (linkNameOf k)) (mark k)
  target _    := rfl
  always _ _  := rfl
  chain_inj _ _ := mark_inj
  chain_ne k  := ne_literal_of_diverge (by decide +kernel) _

-- ... and rewrite the source address of the marked packets.
def snats : Dispatch Int where
  source      := postrouting
  chain       := snatOf
  jump k      := jumpRule (snatComment (linkNameOf k)) (snatOf k)
  target _    := rfl
  always _ _  := rfl
  chain_inj _ _ := snatOf_inj
  chain_ne k  := ne_literal_of_diverge (by decide +kernel) _

theorem mark_ne_snatOf (j k : Int) : mark j ≠ snatOf k :=
  ne_of_diverge (by decide +kernel) _ _

theorem mark_ne_postrouting (k : Int) : mark k ≠ postrouting :=
  ne_literal_of_diverge (by decide +kernel) _

theorem snatOf_ne_prerouting (k : Int) : snatOf k ≠ prerouting :=
  ne_literal_of_diverge (by decide +kernel) _

theorem noSNAT_ne_postrouting (ip : String) : noSNAT ip ≠ postrouting :=
  ne_literal_of_diverge (by decide +kernel) _

theorem jumpRule_ne {context a b target target' : String} (h : a ≠ b) :
    jumpRule (context ++ a) target ≠ jumpRule (context ++ b) target' := by
  intro he
  have hc : context ++ a = context ++ b := by
    have hm := congrArg Rule.matches_ he
    simpa [jumpRule] using hm
  exact h ((String.append_right_inj _).mp hc)

theorem prerouting_ne_postrouting : prerouting ≠ postrouting := by
  decide +kernel

end Chains

-- The rule of the host's own table that leads to the chains of the addresses.
def Chains.entry : Dispatch Unit where
  source      := postrouting
  chain _     := snat
  jump _      := jumpRule noMasqueradeComment snat
  target _    := rfl
  always _ _  := rfl
  chain_inj _ _ _ := rfl
  chain_ne _  := by decide +kernel

section Install

variable {K : Type} {D : Dispatch K} {k : K} {v : Dispatch.View K} {s : Node} {ns : Space}
  {A : Fault → Prop} {comment : String} {rules : List Rule}

-- The view after an edit that a call has made, or has failed to make.
theorem wp_edited {c : Call} (rs : List (List Rule)) {P : Dispatch.View K → Prop} (context : String)
    (hc : c.writes (.nat ns) = true) (hs : D.Shows v (s.nat ns))
    (edit : ∀ t, c.edit (s.nat ns) = some t → ∃ v', D.Edited k rs v (s.nat ns) v' t ∧ P v') :
    wp world (.faults A) (wrapError context (request c))
      (fun r s' => ∃ v', D.Edited k rs v (s.nat ns) v' (s'.nat ns) ∧ (v' = v ∨ P v') ∧
        ∀ a, r = .ok a → P v') s := by
  refine wp_mono (wp_edit ns context hc) fun r s' h => ?_
  rcases h.nat with ⟨⟨e, rfl⟩, hn⟩ | hn
  · exact ⟨v, hn.symm ▸ .refl hs, .inl rfl, nofun⟩
  · have ⟨v', hv, hp⟩ := edit _ hn
    exact ⟨v', hv, .inr hp, fun _ _ => hp⟩

theorem wp_saveInto (context : String) :
    wp world (.faults A) (wrapError context (request (.saveInto ns)))
      (fun r s' => s' = s ∧ ∀ names, r = .ok names → ∀ c, c ∈ names ↔ ((s.nat ns).find c).isSome = true)
      s := by
  refine wp_mono (wp_reads context rfl) fun r s' ⟨hs, h⟩ => ⟨hs, fun names hr c => ?_⟩
  have he := h names hr
  simp only [Node.serve, Node.look] at he
  split at he
  case h_1 => cases he
  case h_2 n hn =>
    rw [Node.nat_of_netns hn, Table.find_isSome_iff]
    exact Except.ok.inj he ▸ Iff.rfl

variable [DecidableEq K]

-- A chain that has been ensured without an error is jumped to and consists of the given rules.
theorem wp_ensureIPTablesChain (hs : D.Shows v (s.nat ns)) (hr : rules ≠ [])
    (hj : D.jump k = Chains.jumpRule comment (D.chain k)) :
    wp world (.faults A) (ensureIPTablesChain ns (D.chain k) D.source comment rules)
      (fun r s' => ∃ v', D.Edited k [[], rules] v (s.nat ns) v' (s'.nat ns) ∧
        (r = .ok () → k ∈ v'.keys ∧ v'.body k = some rules)) s := by
  refine wp_seq (wp_edited [[], rules] (P := fun v => (v.body k).isSome = true) _ (decide_eq_true rfl)
    hs fun t ht => ⟨v.create k, ?_, ?_⟩) (fun _ s₁ ⟨v₁, h₁, _, p₁⟩ => ?_)
    fun _ _ ⟨v₁, h₁, _⟩ => ⟨v₁, h₁, nofun⟩
  · exact Option.some.inj ht ▸ Dispatch.edited_ensureChain hs List.mem_cons_self
  · simp [Dispatch.View.create]
  refine wp_seq (wp_edited [[], rules] (P := fun v => k ∈ v.keys) _ (decide_eq_true rfl) h₁.shows
    fun t ht => ⟨v₁.enlist k (p₁ _ rfl), ?_, ?_⟩) (fun _ s₂ ⟨v₂, h₂, _, p₂⟩ => ?_)
    fun _ _ ⟨v₂, h₂, _⟩ => ⟨v₂, h₁.trans h₂, nofun⟩
  · exact Dispatch.edited_ensureRule h₁.shows _ (hj ▸ ht)
  · exact List.mem_insert_self
  rw [if_neg hr]
  refine wp_mono (wp_edited [[], rules] (P := fun v => k ∈ v.keys ∧ v.body k = some rules) _
    (decide_eq_true rfl) h₂.shows fun t ht => ⟨v₂.fill k rules, ?_, p₂ _ rfl, ?_⟩)
    fun _ _ ⟨v₃, h₃, _, p₃⟩ => ⟨v₃, (h₁.trans h₂).trans h₃, p₃ _⟩
  · exact Option.some.inj ht ▸ Dispatch.edited_restoreAll h₂.shows (by simp)
  · simp [Dispatch.View.fill]

-- The deletion of the jump rule. With a wrong comment it finds nothing to delete.
theorem edited_deleteJump (hs : D.Shows v (s.nat ns)) (rs : List (List Rule)) :
    ∃ v', D.Edited k rs v (s.nat ns) v'
        ((s.nat ns).deleteRule D.source (Chains.jumpRule comment (D.chain k))) ∧
      (D.jump k ≠ Chains.jumpRule comment (D.chain k) → k ∈ v.keys → k ∈ v'.keys) := by
  by_cases hj : D.jump k = Chains.jumpRule comment (D.chain k)
  case pos => exact ⟨v.delist k, hj ▸ Dispatch.edited_deleteRule hs, fun hn => absurd hj hn⟩
  case neg =>
    refine ⟨v, Dispatch.edited_deleteOther hs fun j he => hj ?_, fun _ h => h⟩
    have ht := congrArg Rule.target he
    rw [D.target j] at ht
    have hk : k = j := D.chain_inj (Target.jump.inj ht)
    rw [he, hk]

-- Removal of a chain, given whether it exists. A chain that is still in use cannot be removed.
theorem wp_removeIPTablesChain {existing : List String} (hs : D.Shows v (s.nat ns))
    (hx : D.chain k ∈ existing ↔ (v.body k).isSome = true) :
    wp world (.faults A) (removeIPTablesChain ns existing ⟨D.chain k, D.source, comment⟩)
      (fun r s' => ∃ v', D.Edited k [] v (s.nat ns) v' (s'.nat ns) ∧
        (D.jump k ≠ Chains.jumpRule comment (D.chain k) → k ∈ v.keys → k ∈ v'.keys) ∧
        (r = .ok () → v'.body k = none)) s := by
  unfold removeIPTablesChain
  split
  case isFalse hn =>
    have hb := mt hx.mpr hn
    exact ⟨v, .refl hs, fun _ h => h, fun _ => Option.not_isSome_iff_eq_none.mp hb⟩
  case isTrue =>
    refine wp_seq (wp_edited [] _ (decide_eq_true rfl) hs
      fun t ht => Option.some.inj ht ▸ edited_deleteJump hs []) (fun _ s₁ ⟨v₁, h₁, _, p₁⟩ => ?_)
      fun _ _ ⟨v₁, h₁, p₁, _⟩ => ⟨v₁, h₁, ?_, nofun⟩
    case refine_2 =>
      rcases p₁ with rfl | p₁
      · exact fun _ h => h
      · exact p₁
    refine wp_mono (wp_edited (k := k) [] (P := fun v' => v'.keys = v₁.keys ∧ v'.body k = none) _
      (decide_eq_true rfl) h₁.shows fun t ht => ?_) fun r s₂ ⟨v₂, h₂, q₂, p₂⟩ => ?_
    · obtain ⟨hk, he⟩ := Dispatch.edited_removeChain h₁.shows ht
      exact ⟨v₁.remove k hk, he, rfl, Function.update_self ..⟩
    · have hkeys : v₂.keys = v₁.keys := q₂.elim (congrArg _) And.left
      exact ⟨v₂, h₁.trans h₂, fun hn hk => hkeys ▸ p₁ _ rfl hn hk, fun hr => (p₂ _ hr).right⟩

end Install

end Daemon
