import EgressGateway.Daemon.Theorems.LinkRules

-- Gateways do not share addresses: what the table of the gateway namespace does to packets, whichever
-- operations have led to it.

open Kubernetes Text Net Program Iptables

namespace Daemon

-- What has been done to the table, the most recent operation first. `done` tells whether it succeeded.
inductive NatEvent
  | configured (gwConfig : StaticGatewayConfiguration) (vmSecondaryIP : String) (done : Bool)
  | deleted (linkName : String) (done : Bool)
  deriving DecidableEq

def NatEvent.link : NatEvent → String
  | configured gwConfig _ _ => getWireguardInterfaceName gwConfig
  | deleted linkName _      => linkName

def lastEvent (h : List NatEvent) (link : String) : Option NatEvent :=
  h.find? (·.link = link)

-- Runs in which gateways are configured and links are deleted in any order, with any faults. In between,
-- anything but the table may change.
inductive NatRun : List NatEvent → Node → Prop
  | init {s} (h : s.nat .gateway = .empty) : NatRun [] s
  | change {h s s'} (hr : NatRun h s) (hs : s'.nat .gateway = s.nat .gateway) : NatRun h s'
  | configure {h s o gwConfig privateKey vmPrimaryIP vmSecondaryIP φ} (hr : NatRun h s)
      (ready : isReady gwConfig = true)
      (ho : run world φ 0 (configureGatewayNamespace gwConfig privateKey vmPrimaryIP vmSecondaryIP) s = o) :
      NatRun (.configured gwConfig vmSecondaryIP o.result.isOk :: h) o.state
  | delete {h s o link φ} (hr : NatRun h s) (ho : run world φ 0 (ensureDeleteLink link) s = o) :
      NatRun (.deleted link.name o.result.isOk :: h) o.state

-- The link is neither configured nor in an intermediate state.
def Idle : Option NatEvent → Prop
  | none                   => True
  | some (.deleted _ done) => done = true
  | _                      => False

structure Accounted (h : List NatEvent) (v : LinkRules) : Prop where
  ready : ∀ c ip d, .configured c ip d ∈ h → port c ≠ 0
  marks : ∀ k rs, v.marks.body k = some rs → rs = [] ∨ rs = [Chains.markRule (linkNameOf k) k]
  snats : ∀ k rs, v.snats.body k = some rs →
    rs = [] ∨ ∃ c ip d, rs = [Chains.snatRule k ip] ∧ .configured c ip d ∈ h ∧ port c = k
  on    : ∀ k c ip, lastEvent h (linkNameOf k) = some (.configured c ip true) → Configured v k ip
  off   : ∀ k, Idle (lastEvent h (linkNameOf k)) → v.marks.body k = none ∧ v.snats.body k = none

section Accounted

variable {h : List NatEvent} {v v' : LinkRules} {k : Int} {e : NatEvent} {r : Except Err Unit} {s : Node}

theorem Accounted.init : Accounted [] .init where
  ready := by simp
  marks := nofun
  snats := nofun
  on    := nofun
  off   := fun _ _ => ⟨rfl, rfl⟩

theorem lastEvent_cons {link : String} :
    lastEvent (e :: h) link = if e.link = link then some e else lastEvent h link := by
  unfold lastEvent
  split
  case isTrue he  => exact List.find?_cons_of_pos (decide_eq_true he)
  case isFalse he => exact List.find?_cons_of_neg (by simpa using he)

theorem lastEvent_linkNameOf {j : Int} (he : e.link = linkNameOf k) :
    lastEvent (e :: h) (linkNameOf j) = if j = k then some e else lastEvent h (linkNameOf j) := by
  rw [lastEvent_cons, he]
  by_cases hj : j = k
  · rw [if_pos hj, if_pos (congrArg linkNameOf hj.symm)]
  · rw [if_neg hj, if_neg fun hl => hj (Chains.linkNameOf_inj hl).symm]

-- The rules of other links are not affected.
theorem Configured.moved {j : Int} {ip : String} {ms ss : List (List Rule)} (hc : Configured v j ip)
    (hm : v.Moved k ms ss v') (hj : j ≠ k) : Configured v' j ip :=
  ⟨(hm.marks.keys j hj).mpr hc.1, (hm.marks.body j hj).trans hc.2.1,
    (hm.snats.keys j hj).mpr hc.2.2.1, (hm.snats.body j hj).trans hc.2.2.2⟩

theorem Accounted.configure {gwConfig : StaticGatewayConfiguration} {ip : String} (ha : Accounted h v)
    (ready : isReady gwConfig = true) (hr : Reconfigured v (port gwConfig) ip r s) :
    ∃ v' : LinkRules, v'.Shown (s.nat .gateway) ∧ Accounted (.configured gwConfig ip r.isOk :: h) v' := by
  have ⟨v', hv, hm, hc⟩ := hr
  have hl {j : Int} := lastEvent_linkNameOf (h := h) (j := j) (k := port gwConfig)
    (e := .configured gwConfig ip r.isOk) rfl
  refine ⟨v', hv, ?_⟩
  constructor
  case ready =>
    intro c ip' d hc
    rcases List.mem_cons.mp hc with he | hc
    · obtain ⟨rfl, rfl, rfl⟩ := NatEvent.configured.inj he
      simp only [isReady, Bool.decide_and, Bool.and_eq_true, decide_eq_true_eq] at ready
      exact ready.2.2.1
    · exact ha.ready c ip' d hc
  case marks =>
    intro j rs hb
    by_cases hj : j = port gwConfig
    · subst hj
      rcases hm.marks.self rs hb with hb | hb
      · exact ha.marks _ rs hb
      · simpa using hb
    · exact ha.marks j rs (hm.marks.body j hj ▸ hb)
  case snats =>
    have old : ∀ j rs, v.snats.body j = some rs → rs = [] ∨ ∃ c ip' d, rs = [Chains.snatRule j ip'] ∧
        .configured c ip' d ∈ .configured gwConfig ip r.isOk :: h ∧ port c = j := fun j rs hb =>
      (ha.snats j rs hb).imp_right fun ⟨c, ip', d, he, hc, hp⟩ =>
        ⟨c, ip', d, he, List.mem_cons_of_mem _ hc, hp⟩
    intro j rs hb
    by_cases hj : j = port gwConfig
    · subst hj
      rcases hm.snats.self rs hb with hb | hb
      · exact old _ rs hb
      · rcases List.mem_cons.mp hb with hb | hb
        · exact .inl hb
        · exact .inr ⟨gwConfig, ip, r.isOk, List.mem_singleton.mp hb, List.mem_cons_self, rfl⟩
    · exact old j rs (hm.snats.body j hj ▸ hb)
  case on =>
    intro j c ip' he
    rw [hl] at he
    by_cases hj : j = port gwConfig
    · rw [if_pos hj] at he
      obtain ⟨rfl, rfl, hd⟩ := NatEvent.configured.inj (Option.some.inj he)
      subst hj
      refine hc ?_
      cases r
      case ok    => rfl
      case error => nomatch hd
    · rw [if_neg hj] at he
      exact (ha.on j c ip' he).moved hm hj
  case off =>
    intro j hi
    rw [hl] at hi
    by_cases hj : j = port gwConfig
    · rw [if_pos hj] at hi
      nomatch hi
    · rw [if_neg hj] at hi
      rw [hm.marks.body j hj, hm.snats.body j hj]
      exact ha.off j hi

-- Rules that are neither added nor changed are accounted for by the old events.
theorem Accounted.retain (ha : Accounted h v) (he : ∀ c ip d, e ≠ .configured c ip d)
    (hm : v.Moved k [] [] v')
    (on : ∀ j c ip, lastEvent (e :: h) (linkNameOf j) = some (.configured c ip true) → Configured v' j ip)
    (off : ∀ j, Idle (lastEvent (e :: h) (linkNameOf j)) →
      v'.marks.body j = none ∧ v'.snats.body j = none) : Accounted (e :: h) v' where
  ready c ip d hc := ha.ready c ip d ((List.mem_cons.mp hc).resolve_left fun h => he c ip d h.symm)
  marks j rs hb := by
    by_cases hj : j = k
    · subst hj
      exact ha.marks j rs ((hm.marks.self rs hb).resolve_right nofun)
    · exact ha.marks j rs (hm.marks.body j hj ▸ hb)
  snats j rs hb := by
    have hb : v.snats.body j = some rs := by
      by_cases hj : j = k
      · subst hj
        exact (hm.snats.self rs hb).resolve_right nofun
      · exact hm.snats.body j hj ▸ hb
    exact (ha.snats j rs hb).imp_right fun ⟨c, ip, d, hr, hc, hp⟩ =>
      ⟨c, ip, d, hr, List.mem_cons_of_mem _ hc, hp⟩
  on  := on
  off := off

-- A chain that is not to be filled and still exists has its old rules.
theorem body_of_live {w w' : Dispatch.View Int} (hm : w.Moved k [] w') (hk : k ∈ w'.keys) :
    w'.body k = w.body k := by
  have hs := w'.live k hk
  cases hb : w'.body k
  case none => simp [hb] at hs
  case some rs => exact ((hm.self rs hb).resolve_right nofun).symm

theorem body_eq_none {w w' : Dispatch.View Int} {j : Int} (hm : w.Moved k [] w') (hb : w.body j = none) :
    w'.body j = none := by
  by_cases hj : j = k
  case neg => rw [hm.body j hj, hb]
  case pos =>
    subst hj
    cases hb' : w'.body j
    case none    => rfl
    case some rs => exact absurd (hb.symm.trans ((hm.self rs hb').resolve_right nofun)) nofun

theorem Accounted.delete {link : String} (ha : Accounted h v) (hk : getPacketMark link = .ok k)
    (hr : Unconfigured v link k r s) :
    ∃ v' : LinkRules, v'.Shown (s.nat .gateway) ∧ Accounted (.deleted link r.isOk :: h) v' := by
  have ⟨v', hv, hm, hkeep, hnone⟩ := hr
  refine ⟨v', hv, ?_⟩
  by_cases hl : link = linkNameOf k
  case pos =>
    have hlast {j : Int} := lastEvent_linkNameOf (h := h) (j := j) (e := .deleted link r.isOk) hl
    refine ha.retain (by simp) hm (fun j c ip he => ?_) fun j hi => ?_
    · rw [hlast] at he
      by_cases hj : j = k
      · rw [if_pos hj] at he
        nomatch he
      · rw [if_neg hj] at he
        exact (ha.on j c ip he).moved hm hj
    · rw [hlast] at hi
      by_cases hj : j = k
      · rw [if_pos hj] at hi
        subst hj
        refine hnone ?_
        cases r
        case ok    => rfl
        case error => nomatch hi
      · rw [if_neg hj] at hi
        have ⟨hbm, hbs⟩ := ha.off j hi
        exact ⟨body_eq_none hm.marks hbm, body_eq_none hm.snats hbs⟩
  case neg =>
    -- Such a name is not the name of any gateway link.
    have hlast {j : Int} : lastEvent (.deleted link r.isOk :: h) (linkNameOf j) = lastEvent h (linkNameOf j) := by
      rw [lastEvent_cons, if_neg]
      intro (he : link = linkNameOf j)
      have hj : k = j := getPacketMark_linkNameOf (he ▸ hk)
      exact hl (hj ▸ he)
    refine ha.retain (by simp) hm (fun j c ip he => ?_) fun j hi => ?_
    · have hc := ha.on j c ip (hlast ▸ he)
      by_cases hj : j = k
      case neg => exact hc.moved hm hj
      case pos =>
        subst hj
        have hkm := (hkeep hl).1 hc.1
        have hks := (hkeep hl).2 hc.2.2.1
        exact ⟨hkm, (body_of_live hm.marks hkm).trans hc.2.1, hks, (body_of_live hm.snats hks).trans hc.2.2.2⟩
    · have ⟨hbm, hbs⟩ := ha.off j (hlast ▸ hi)
      exact ⟨body_eq_none hm.marks hbm, body_eq_none hm.snats hbs⟩

theorem Accounted.delete_unmarked {link : String} (ha : Accounted h v) :
    Accounted (.deleted link false :: h) v := by
  refine ha.retain (k := 0) (by simp) ⟨.refl, .refl⟩ (fun j c ip he => ?_) fun j hi => ?_
  all_goals rw [lastEvent_cons] at *; split at *
  · nomatch he
  · exact ha.on j c ip he
  · nomatch hi
  · exact ha.off j hi

theorem NatRun.accounted (hr : NatRun h s) :
    ∃ v : LinkRules, v.Shown (s.nat .gateway) ∧ Accounted h v := by
  induction hr
  case init h => exact ⟨.init, h ▸ LinkRules.shown_init, .init⟩
  case change hs hi =>
    have ⟨v, hv, ha⟩ := hi
    exact ⟨v, hs ▸ hv, ha⟩
  case configure ready ho hi =>
    have ⟨v, hv, ha⟩ := hi
    exact ha.configure ready (outcome_of_wp (wp_configureGatewayNamespace hv) ho)
  case delete link φ _ ho hi =>
    have ⟨v, hv, ha⟩ := hi
    cases hk : getPacketMark link.name
    case ok k => exact ha.delete hk (outcome_of_wp (wp_ensureDeleteLink hv hk) ho)
    case error e =>
      have ⟨hv', e', he⟩ := outcome_of_wp (wp_ensureDeleteLink_unmarked hv hk) ho
      rw [he]
      exact ⟨v, hv', ha.delete_unmarked⟩

end Accounted

-- The traversal of the table.

section Packets

variable {h : List NatEvent} {v : LinkRules} {t : Table} {p : Packet} {k : Int} {n : Nat}

theorem enter_of_find {depth : Nat} {c : String} {rs : List Rule} (hf : t.find c = some rs) :
    enter t (depth + 1) c p = walk (enter t depth) rs p := by
  rw [enter, hf]
  rfl

theorem length_of_shown (hv : v.Shown t) : ∃ n, t.length = n + 2 := by
  have ⟨rs, hr⟩ := Option.isSome_iff_exists.mp hv.pre
  have ⟨rs', hr'⟩ := Option.isSome_iff_exists.mp hv.post
  have ⟨ch, hm, hn⟩ := Table.exists_mem_of_find hr
  have ⟨ch', hm', hn'⟩ := Table.exists_mem_of_find hr'
  match t, hm, hm' with
  | _ :: _ :: t, _, _ => exact ⟨t.length, rfl⟩
  | [c], hm, hm' =>
    have he := List.mem_singleton.mp hm
    have he' := List.mem_singleton.mp hm'
    exact absurd (hn.symm.trans (he.trans he'.symm ▸ hn')) Chains.prerouting_ne_postrouting

theorem holds_markRule : (Chains.markRule (linkNameOf k) k).holds p = decide (p.inInterface = linkNameOf k) := by
  simp [Chains.markRule, Rule.holds, Match.holds]

theorem holds_snatRule {ip : String} :
    (Chains.snatRule k ip).holds p = (decide (p.outInterface = hostLinkName) && decide (p.mark = k)) := by
  simp [Chains.snatRule, Rule.holds, Match.holds]

-- The chain of a mark leaves the packets of other links alone.
theorem enter_mark_pass (hv : v.Shown t) (ha : Accounted h v) (hk : k ∈ v.marks.keys)
    (hp : p.inInterface ≠ linkNameOf k) : enter t (n + 1) (Chains.marks.chain k) p = some (.next p) := by
  have ⟨rs, hr⟩ := Option.isSome_iff_exists.mp (v.marks.live k hk)
  rw [enter_of_find ((hv.marks.chain k).trans hr)]
  rcases ha.marks k rs hr with rfl | rfl
  · rfl
  · rw [walk, holds_markRule, decide_eq_false hp]
    rfl

theorem enter_mark (hv : v.Shown t) (hb : v.marks.body k = some [Chains.markRule (linkNameOf k) k])
    (hp : p.inInterface = linkNameOf k) :
    enter t (n + 1) (Chains.marks.chain k) p = some (.next { p with mark := k }) := by
  rw [enter_of_find ((hv.marks.chain k).trans hb), walk, holds_markRule, decide_eq_true hp]
  rfl

theorem enter_snat_pass (hv : v.Shown t) (ha : Accounted h v) (hk : k ∈ v.snats.keys)
    (hp : ¬(p.outInterface = hostLinkName ∧ p.mark = k)) :
    enter t (n + 1) (Chains.snats.chain k) p = some (.next p) := by
  have ⟨rs, hr⟩ := Option.isSome_iff_exists.mp (v.snats.live k hk)
  rw [enter_of_find ((hv.snats.chain k).trans hr)]
  rcases ha.snats k rs hr with rfl | ⟨_, ip, _, rfl, _⟩
  · rfl
  · have hh : (Chains.snatRule k ip).holds p = false := by
      rw [holds_snatRule, ← Bool.decide_and, decide_eq_false hp]
    rw [walk, hh]
    rfl

theorem enter_snat {ip : String} (hv : v.Shown t) (hb : v.snats.body k = some [Chains.snatRule k ip])
    (ho : p.outInterface = hostLinkName) (hm : p.mark = k) :
    enter t (n + 1) (Chains.snats.chain k) p = some (.snat p ip) := by
  rw [enter_of_find ((hv.snats.chain k).trans hb), walk, holds_snatRule, decide_eq_true ho,
    decide_eq_true hm]
  rfl

theorem enter_prerouting (hv : v.Shown t) :
    enter t (n + 2) prerouting p = walk (enter t (n + 1)) (v.marks.keys.map Chains.marks.jump) p := by
  have ⟨rs, hr⟩ := Option.isSome_iff_exists.mp hv.pre
  have hs := hv.marks.source
  rw [show Chains.marks.source = prerouting from rfl, hr] at hs
  exact hs ▸ enter_of_find hr

theorem enter_postrouting (hv : v.Shown t) :
    enter t (n + 2) postrouting p = walk (enter t (n + 1)) (v.snats.keys.map Chains.snats.jump) p := by
  have ⟨rs, hr⟩ := Option.isSome_iff_exists.mp hv.post
  have hs := hv.snats.source
  rw [show Chains.snats.source = postrouting from rfl, hr] at hs
  exact hs ▸ enter_of_find hr

-- A packet of a link that has no rules passes through unmarked.
theorem prerouting_pass (hv : v.Shown t) (ha : Accounted h v)
    (hp : ∀ k ∈ v.marks.keys, p.inInterface ≠ linkNameOf k) :
    enter t (n + 2) prerouting p = some (.next p) := by
  rw [enter_prerouting hv]
  exact Dispatch.walk_jumps_pass fun k hk => enter_mark_pass hv ha hk (hp k hk)

-- A packet can only be marked by the rule of its own link.
theorem prerouting_of_link (hv : v.Shown t) (ha : Accounted h v) (hk : k ∈ v.marks.keys)
    (hp : p.inInterface = linkNameOf k) {q : Packet} (hq : q.inInterface = p.inInterface)
    (he : enter t (n + 1) (Chains.marks.chain k) p = some (.next q)) :
    enter t (n + 2) prerouting p = some (.next q) := by
  rw [enter_prerouting hv]
  refine Dispatch.walk_jumps v.marks.nodup hk he fun j hj hne q' hq' => enter_mark_pass hv ha hj ?_
  have hi : q'.inInterface = p.inInterface := by
    rcases hq' with rfl | he
    · rfl
    · exact Verdict.next.inj he ▸ hq
  exact fun hl => hne (Chains.linkNameOf_inj (hl.symm.trans (hi.trans hp)))

theorem prerouting_cases (hv : v.Shown t) (ha : Accounted h v) :
    enter t (n + 2) prerouting p = some (.next p) ∨
    ∃ k, p.inInterface = linkNameOf k ∧
      enter t (n + 2) prerouting p = some (.next { p with mark := k }) := by
  by_cases hp : ∃ k ∈ v.marks.keys, p.inInterface = linkNameOf k
  case neg =>
    simp only [not_exists, not_and] at hp
    exact .inl (prerouting_pass hv ha hp)
  case pos =>
    have ⟨k, hk, hp⟩ := hp
    have ⟨rs, hr⟩ := Option.isSome_iff_exists.mp (v.marks.live k hk)
    rcases ha.marks k rs hr with rfl | rfl
    · refine .inl (prerouting_of_link hv ha hk hp rfl ?_)
      rw [enter_of_find ((hv.marks.chain k).trans hr)]
      rfl
    · exact .inr ⟨k, hp, prerouting_of_link hv ha hk hp rfl (enter_mark hv hr hp)⟩

theorem postrouting_pass (hv : v.Shown t) (ha : Accounted h v)
    (hp : ∀ k ∈ v.snats.keys, ¬(p.outInterface = hostLinkName ∧ p.mark = k)) :
    enter t (n + 2) postrouting p = some (.next p) := by
  rw [enter_postrouting hv]
  exact Dispatch.walk_jumps_pass fun k hk => enter_snat_pass hv ha hk (hp k hk)

theorem postrouting_of_mark {vd : Verdict} (hv : v.Shown t) (ha : Accounted h v) (hk : k ∈ v.snats.keys)
    (hm : p.mark = k) (hd : vd = .next p ∨ ∃ ip, vd = .snat p ip)
    (he : enter t (n + 1) (Chains.snats.chain k) p = some vd) :
    enter t (n + 2) postrouting p = some vd := by
  rw [enter_postrouting hv]
  refine Dispatch.walk_jumps v.snats.nodup hk he fun j hj hne q hq => enter_snat_pass hv ha hj ?_
  have hq : q = p := by
    rcases hq with hq | hq
    · exact hq
    · rcases hd with hd | ⟨_, hd⟩
      · exact Verdict.next.inj (hq.symm.trans hd)
      · nomatch hq.symm.trans hd
  exact fun hl => hne (hl.right.symm.trans (hq ▸ hm))

theorem postrouting_cases (hv : v.Shown t) (ha : Accounted h v) :
    enter t (n + 2) postrouting p = some (.next p) ∨
    ∃ ip, p.outInterface = hostLinkName ∧ v.snats.body p.mark = some [Chains.snatRule p.mark ip] ∧
      enter t (n + 2) postrouting p = some (.snat p ip) := by
  by_cases hp : p.outInterface = hostLinkName ∧ p.mark ∈ v.snats.keys
  case neg =>
    refine .inl (postrouting_pass hv ha fun k hk hl => hp ⟨hl.left, ?_⟩)
    exact hl.right ▸ hk
  case pos =>
    have ⟨ho, hk⟩ := hp
    have ⟨rs, hr⟩ := Option.isSome_iff_exists.mp (v.snats.live p.mark hk)
    rcases ha.snats _ rs hr with rfl | ⟨_, ip, _, rfl, _⟩
    · refine .inl (postrouting_of_mark hv ha hk rfl (.inl rfl) ?_)
      rw [enter_of_find ((hv.snats.chain _).trans hr)]
      rfl
    · exact .inr ⟨ip, ho, hr, postrouting_of_mark hv ha hk rfl (.inr ⟨ip, rfl⟩) (enter_snat hv hr ho rfl)⟩

theorem sourceNAT_of_enter {q : Packet} {vd : Verdict} (hpre : enter t t.length prerouting p = some (.next q))
    (hpost : enter t t.length postrouting q = some vd) :
    sourceNAT t p = match vd with
      | .snat _ ip => some ip
      | _          => none := by
  have hf : forward t p = some vd := by
    rw [forward, hpre]
    exact hpost
  rw [sourceNAT, hf]
  cases vd <;> rfl

end Packets

-- The first packet of a connection that enters through a configured link and leaves through the host's
-- link gets the address that was configured last for that link. A packet that enters through anything
-- else is not rewritten. In any case a packet only ever gets an address of the gateway whose link it
-- entered through, even if operations have failed half way.
theorem egress_isolated {h : List NatEvent} {s : Node} (hr : NatRun h s) (p : Packet) (hp : p.mark = 0) :
    (∀ gwConfig ip, lastEvent h p.inInterface = some (.configured gwConfig ip true) →
      sourceNAT (s.nat .gateway) p = if p.outInterface = hostLinkName then some ip else none) ∧
    (Idle (lastEvent h p.inInterface) → sourceNAT (s.nat .gateway) p = none) ∧
    (∀ ip, sourceNAT (s.nat .gateway) p = some ip → p.outInterface = hostLinkName ∧
      ∃ gwConfig done, p.inInterface = getWireguardInterfaceName gwConfig ∧
        .configured gwConfig ip done ∈ h) := by
  have ⟨v, hv, ha⟩ := hr.accounted
  have ⟨n, hn⟩ := length_of_shown hv
  -- No gateway has the mark of an unmarked packet.
  have zero : enter (s.nat .gateway) (n + 2) postrouting p = some (.next p) := by
    refine (postrouting_cases hv ha).resolve_right fun ⟨ip, _, hb, _⟩ => ?_
    rcases ha.snats _ _ hb with hn | ⟨c, ip', d, _, hc, hz⟩
    · nomatch hn
    · exact ha.ready c ip' d hc (hz.trans hp)
  refine ⟨fun gwConfig ip he => ?_, fun hi => ?_, fun ip he => ?_⟩
  case refine_1 =>
    have hl : p.inInterface = linkNameOf (port gwConfig) := by
      have hs := List.find?_some he
      exact (of_decide_eq_true hs).symm
    have ⟨hkm, hbm, hks, hbs⟩ := ha.on (port gwConfig) gwConfig ip (hl ▸ he)
    have hpre := prerouting_of_link (n := n) (q := { p with mark := port gwConfig }) hv ha hkm hl rfl
      (enter_mark hv hbm hl)
    by_cases ho : p.outInterface = hostLinkName
    case pos =>
      have hpost := postrouting_of_mark (n := n) (p := { p with mark := port gwConfig }) hv ha hks rfl
        (.inr ⟨ip, rfl⟩) (enter_snat hv hbs ho rfl)
      rw [if_pos ho]
      exact sourceNAT_of_enter (hn ▸ hpre) (hn ▸ hpost)
    case neg =>
      have hpost := postrouting_pass (n := n) (p := { p with mark := port gwConfig }) hv ha
        fun k _ hl => ho hl.left
      rw [if_neg ho]
      exact sourceNAT_of_enter (hn ▸ hpre) (hn ▸ hpost)
  case refine_2 =>
    have hpre := prerouting_pass (n := n) (p := p) hv ha fun k hk hl => by
      have ⟨hb, _⟩ := ha.off k (hl ▸ hi)
      exact Dispatch.View.not_mem_of_body hb hk
    exact sourceNAT_of_enter (hn ▸ hpre) (hn ▸ zero)
  case refine_3 =>
    rcases prerouting_cases (n := n) (p := p) hv ha with hpre | ⟨k, hk, hpre⟩
    · have := sourceNAT_of_enter (hn ▸ hpre) (hn ▸ zero)
      nomatch he.symm.trans this
    · rcases postrouting_cases (n := n) (p := { p with mark := k }) hv ha with hpost | ⟨ip', ho, hb, hpost⟩
      · have := sourceNAT_of_enter (hn ▸ hpre) (hn ▸ hpost)
        nomatch he.symm.trans this
      · have hip := he.symm.trans (sourceNAT_of_enter (hn ▸ hpre) (hn ▸ hpost))
        obtain rfl := Option.some.inj hip
        refine ⟨ho, ?_⟩
        rcases ha.snats _ _ hb with hn | ⟨c, ip', d, hr, hc, hport⟩
        · nomatch hn
        · have hs : ip = ip' := by simpa [Chains.snatRule] using hr
          subst hport
          exact ⟨c, d, hk, hs ▸ hc⟩

namespace Sample

def configured : Outcome Sig Node Unit :=
  run world .calm 0 (configureGatewayNamespace (gwConfig "a" "1" 6000) .zero "10.0.0.4" "10.0.0.5") (node {})

theorem configured_run : NatRun [.configured (gwConfig "a" "1" 6000) "10.0.0.5" true] configured.state := by
  have hok : configured.result.isOk = true := by decide +kernel
  exact hok ▸ NatRun.configure (.init rfl) (by decide +kernel) rfl

end Sample

theorem egress_isolated_sample :
    let p : Packet := { inInterface := "wg-6000", outInterface := "host0", address := "10.1.0.7" }
    let q : Packet := { p with inInterface := "lo" }
    NatRun [.configured (Sample.gwConfig "a" "1" 6000) "10.0.0.5" true] Sample.configured.state ∧
    sourceNAT (Sample.configured.state.nat .gateway) p = some "10.0.0.5" ∧
    sourceNAT (Sample.configured.state.nat .gateway) q = none := by
  intro p q
  have hp := (egress_isolated Sample.configured_run p rfl).1 (Sample.gwConfig "a" "1" 6000) "10.0.0.5"
    (by decide +kernel)
  have hq := (egress_isolated Sample.configured_run q rfl).2.1
  have hi : lastEvent [.configured (Sample.gwConfig "a" "1" 6000) "10.0.0.5" true] q.inInterface = none := by
    decide +kernel
  exact ⟨Sample.configured_run, hp, hq (hi ▸ trivial)⟩

end Daemon
