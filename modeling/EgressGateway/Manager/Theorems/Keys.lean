import EgressGateway.Daemon.Node
import EgressGateway.Manager.Theorems.Client

-- The key pair of a gateway: the secret that holds it, and the public key that is published.

open Kubernetes Text Program

namespace Manager

namespace GwController

section Entries

variable {m : List (String × String)} {key value : String}

theorem lookup_filter {k : String} :
    (m.filter (·.1 ≠ key)).lookup k = if k = key then none else m.lookup k := by
  induction m
  case nil => simp
  case cons e m hi =>
    rw [List.filter_cons, List.lookup_cons]
    by_cases he : e.1 = key
    case pos => grind
    case neg => grind

theorem lookup_setEntry {k : String} :
    (setEntry key value m).lookup k = if k = key then some value else m.lookup k := by
  rw [setEntry, List.lookup_append, lookup_filter, List.lookup_cons]
  by_cases h : k = key
  case pos => simp [h]
  case neg => simp [h, beq_false_of_ne h]

end Entries

section Provide

variable [CaseFold] {P : Platform} {S : Settings} {s : State} {gwConfig : StaticGatewayConfiguration}

-- What becomes of the content of a secret: a private key stays, and with it the whole content.
def Provided (P : Platform) (before after : List (String × String)) : Prop :=
  match before.lookup wireguardPrivateKeyName with
  | some _ => after = before
  | none   => ∃ n, after.lookup wireguardPrivateKeyName = some (P.keyPair n).privateKey ∧
      after.lookup wireguardPublicKeyName = some (P.keyPair n).publicKey

theorem returns_provideKeys {secret : Secret} :
    Returns (world P S.az) (provideKeys gwConfig secret) s fun after s' =>
      s'.api = s.api ∧ after.meta_ = secret.meta_ ∧ Provided P secret.data after.data := by
  unfold provideKeys Provided
  have hl : (labelSecret gwConfig secret).data = secret.data := rfl
  dsimp only
  rw [hl]
  cases hk : secret.data.lookup wireguardPrivateKeyName
  case some k => exact returns_ret ⟨rfl, rfl, hl⟩
  case none =>
    refine (returns_perform (P := fun pair s' => s'.api = s.api ∧ ∃ n, pair = P.keyPair n)
      fun pair hp => ⟨rfl, s.keys, (Except.ok.inj hp).symm⟩).bind fun pair s' ⟨hs, n, hn⟩ => ?_
    refine returns_ret ⟨hs, rfl, n, ?_, ?_⟩
    · rw [lookup_setEntry, if_neg (by decide), lookup_setEntry, if_pos rfl, hn]
    · rw [lookup_setEntry, if_pos rfl, hn]

omit [CaseFold] in
theorem data_revise {clock : Nat} {old new : Secret} : (Store.revise clock old new).data = new.data := by
  have ⟨v, he, _⟩ := Store.revise_eq clock old new
  rw [he]
  rfl

-- The secret that is returned is the one that is stored, unless its deletion has completed.
structure Stored (P : Platform) (key : NamespacedName) (s : State) (secret : Secret) (s' : State) : Prop where
  provided : ∀ old, Store.find (s.api.items .secret) key = some old →
    secret.meta_.deleting = old.meta_.deleting ∧ Provided P old.data secret.data
  created  : Store.find (s.api.items .secret) key = none →
    Provided P [] secret.data
  found    : secret.meta_.deleting = false → Store.find (s'.api.items .secret) key = some secret
  only     : ∀ x, Store.find (s'.api.items .secret) key = some x → x = secret
  key      : secret.meta_.key = key

theorem wp_getSecret (key : NamespacedName) :
    wp (world P S.az) (.faults fun _ => True) (request (.get .secret key)) (fun r s' => s' = s ∧
      ((∃ old, r = .ok old ∧ Store.find (s.api.items .secret) key = some old) ∨
        ∃ e, r = .error e ∧ (e.isNotFound = true → Store.find (s.api.items .secret) key = none))) s := by
  refine wp_read ?_ ⟨rfl, ?_⟩ fun _ => ⟨rfl, .inr ⟨_, rfl, nofun⟩⟩
  all_goals
    simp only [world, State.serve]
    cases h : Store.find (s.api.items .secret) key
  · rfl
  · rfl
  · exact .inr ⟨_, rfl, fun _ => rfl⟩
  · exact .inl ⟨_, rfl, rfl⟩

omit [CaseFold] in
theorem find_remove_self {xs : List Secret} {key : NamespacedName} :
    Store.find (Store.remove xs key) key = none := by
  simp [Store.find, Store.remove]

omit [CaseFold] in
theorem find_append_self {xs : List Secret} {o : Secret} {key : NamespacedName}
    (h : Store.find xs key = none) (hk : Store.key o = key) : Store.find (xs ++ [o]) key = some o := by
  rw [Store.find] at h ⊢
  rw [List.find?_append, h]
  simp [hk]

theorem returns_createSecret {secret : Secret} {s' : State} :
    Returns (world P S.az) (request (.create .secret secret)) s' fun stored t =>
      stored.data = secret.data ∧ stored.meta_.key = secret.meta_.key ∧
      Store.find (t.api.items .secret) secret.meta_.key = some stored := by
  refine returns_perform fun stored h => ?_
  simp only [world, State.serve, State.commit] at h ⊢
  split at h
  case h_1 => cases h
  case h_2 o xs hw =>
    obtain rfl : o = stored := Except.ok.inj h
    obtain ⟨-, hf, rfl, rfl⟩ := Store.create_ok hw
    refine ⟨rfl, rfl, ?_⟩
    rw [items_store_self]
    exact find_append_self hf rfl

theorem returns_updateSecret {secret : Secret} {s' : State} :
    Returns (world P S.az) (request (.update .secret secret)) s' fun stored t =>
      stored.data = secret.data ∧ stored.meta_.key = secret.meta_.key ∧
      ∃ old, Store.find (s'.api.items .secret) secret.meta_.key = some old ∧
        stored.meta_.deleting = old.meta_.deleting ∧
        (stored.meta_.deleting = false → Store.find (t.api.items .secret) secret.meta_.key = some stored) ∧
        ∀ x, Store.find (t.api.items .secret) secret.meta_.key = some x → x = stored := by
  refine returns_perform fun stored h => ?_
  simp only [world, State.serve, State.commit] at h ⊢
  split at h
  case h_1 => cases h
  case h_2 o xs hw =>
    obtain rfl : o = stored := Except.ok.inj h
    obtain ⟨old, hf, -, -, ho, hxs⟩ := Store.update_ok hw
    obtain ⟨v, hm⟩ := Store.meta_revise s'.api.clock old
      (Resource.withStatus old (Resource.withMeta { secret.meta_ with deleting := old.meta_.deleting } secret))
    have hmeta : o.meta_ = { secret.meta_ with deleting := old.meta_.deleting, resourceVersion := v } :=
      ho ▸ hm
    have hk : Store.key o = secret.meta_.key := by
      change o.meta_.key = _
      rw [hmeta]
    have hput : Store.find (Store.put (s'.api.items .secret) o) secret.meta_.key = some o :=
      hk ▸ Store.find_put_self (s := old) (hk ▸ hf)
    refine ⟨ho ▸ data_revise, hk, old, hf, by rw [hmeta], fun hd => ?_, fun x hx => ?_⟩
    · have hd : old.meta_.deleting = false := by rw [hmeta] at hd; exact hd
      rw [items_store_self, (hxs.resolve_left fun h => by cases h.left.symm.trans hd).right]
      exact hput
    · rw [items_store_self] at hx
      rcases hxs with ⟨-, -, rfl⟩ | ⟨-, rfl⟩
      · cases find_remove_self.symm.trans hx
      · exact Option.some.inj (hx.symm.trans hput)

theorem returns_secret : Returns (world P S.az)
    (createOrUpdate .secret { meta_ := named (secretKey S gwConfig), data := [] } (provideKeys gwConfig)) s
    fun secret s' => Stored P (secretKey S gwConfig) s secret s' := by
  refine (returns_attempt (wp_getSecret _)).bind fun r s₁ ⟨hs, hr⟩ => ?_
  subst hs
  rcases hr with ⟨old, rfl, hf⟩ | ⟨e, rfl, hf⟩
  case inr =>
    dsimp only
    split
    case isFalse => exact returns_throw
    case isTrue hn =>
      replace hf := hf hn
      refine returns_provideKeys.bind fun secret s₂ ⟨ha, hm, hp⟩ => ?_
      have hkey : secret.meta_.key = secretKey S gwConfig := congrArg ObjectMeta.key hm
      refine returns_createSecret.mono fun stored t ⟨hd, hk, ht⟩ => ?_
      rw [hkey] at hk ht
      exact ⟨fun _ ho => (nomatch hf.symm.trans ho), fun _ => hd ▸ hp, fun _ => ht,
        fun _ hx => Option.some.inj (hx.symm.trans ht), hk⟩
  case inl =>
    have hkey : old.meta_.key = secretKey S gwConfig := Store.key_of_find hf
    refine returns_provideKeys.bind fun secret s₂ ⟨ha, hm, hp⟩ => ?_
    have hf₂ : Store.find (s₂.api.items .secret) (secretKey S gwConfig) = some old := ha ▸ hf
    split
    case isFalse hsame =>
      obtain rfl : secret = old := not_not.mp hsame
      refine returns_ret ⟨fun _ ho => ?_, fun hn => (nomatch hf.symm.trans hn), fun _ => hf₂,
        fun _ hx => Option.some.inj (hx.symm.trans hf₂), hkey⟩
      obtain rfl := Option.some.inj (hf.symm.trans ho)
      exact ⟨rfl, hp⟩
    case isTrue =>
      refine returns_updateSecret.mono fun stored t ⟨hd, hk, old', ho', hdel, ht, hx⟩ => ?_
      rw [hm, hkey] at hk ht ho' hx
      obtain rfl := Option.some.inj (hf₂.symm.trans ho')
      refine ⟨fun _ ho => ?_, fun hn => (nomatch hf.symm.trans hn), ht, hx, hk⟩
      obtain rfl := Option.some.inj (hf.symm.trans ho)
      exact ⟨hdel, hd ▸ hp⟩

end Provide

section Matched

variable [CaseFold] {P : Platform} {S : Settings} {s : State} {gwConfig r : StaticGatewayConfiguration}
  {publicOf : Daemon.Key → Daemon.Key}

-- What the daemon of a node makes of the private key, and what is published as the public key.

def privateKey (data : List (String × String)) : Option Daemon.Key :=
  (data.lookup wireguardPrivateKeyName).bind Daemon.Key.parse

def publicKey (data : List (String × String)) : Option Daemon.Key :=
  Daemon.Key.parse ((data.lookup wireguardPublicKeyName).getD "")

-- `wgtypes.GeneratePrivateKey` and `Key.PublicKey` yield pairs of keys.
def Pairs (P : Platform) (publicOf : Daemon.Key → Daemon.Key) : Prop :=
  ∀ n, ∃ k, Daemon.Key.parse (P.keyPair n).privateKey = some k ∧
    Daemon.Key.parse (P.keyPair n).publicKey = some (publicOf k)

-- The status that is computed from `s`, and the secret that is stored in `s'` then.
def Matched (publicOf : Daemon.Key → Daemon.Key) (key : NamespacedName) (s s' : State)
    (status : GatewayServerProfile) : Prop :=
  ∀ secret, Store.find (s'.api.items .secret) key = some secret → secret.meta_.deleting = false →
    ∀ k, privateKey secret.data = some k →
      Daemon.Key.parse status.publicKey = some (publicOf k) ∧
      status.privateKeySecretRef = some ⟨key.namespace_, key.name⟩ ∧
      ∀ old, Store.find (s.api.items .secret) key = some old → (privateKey old.data).isSome = true →
        secret.data.lookup wireguardPrivateKeyName = old.data.lookup wireguardPrivateKeyName

-- The public key of a secret belongs to its private key, if it has one already.
def Paired (publicOf : Daemon.Key → Daemon.Key) (key : NamespacedName) (s : State) : Prop :=
  ∀ secret, Store.find (s.api.items .secret) key = some secret → secret.meta_.deleting = false →
    ∀ k, privateKey secret.data = some k → publicKey secret.data = some (publicOf k)

omit [CaseFold] in
theorem lookup_of_privateKey {data : List (String × String)} {k : Daemon.Key} (h : privateKey data = some k) :
    ∃ text, data.lookup wireguardPrivateKeyName = some text ∧ Daemon.Key.parse text = some k :=
  Option.bind_eq_some_iff.mp h

-- A secret without a private key gets a pair.
theorem publicKey_of_generated (hP : Pairs P publicOf) {data : List (String × String)} {n : Nat} {k : Daemon.Key}
    (hk : data.lookup wireguardPrivateKeyName = some (P.keyPair n).privateKey)
    (hp : data.lookup wireguardPublicKeyName = some (P.keyPair n).publicKey) (h : privateKey data = some k) :
    publicKey data = some (publicOf k) := by
  obtain ⟨text, ht, htk⟩ := lookup_of_privateKey h
  obtain rfl := Option.some.inj (hk.symm.trans ht)
  obtain ⟨k', hk', hpub⟩ := hP n
  obtain rfl := Option.some.inj (hk'.symm.trans htk)
  rw [publicKey, hp]
  exact hpub

theorem Provided.publicKey (hP : Pairs P publicOf) {before after : List (String × String)} {k : Daemon.Key}
    (h : Provided P before after) (hk : privateKey after = some k)
    (hb : privateKey before = some k → GwController.publicKey before = some (publicOf k)) :
    GwController.publicKey after = some (publicOf k) := by
  unfold Provided at h
  split at h
  case h_1 => subst h; exact hb hk
  case h_2 =>
    obtain ⟨n, hn, hp⟩ := h
    exact publicKey_of_generated hP hn hp hk

omit [CaseFold] in
theorem status_withKeys (gwConfig : StaticGatewayConfiguration) {secret : Secret}
    (h : secret.meta_.deleting = false) :
    Daemon.Key.parse (withKeys gwConfig secret).status.gatewayServerProfile.publicKey = publicKey secret.data ∧
    (withKeys gwConfig secret).status.gatewayServerProfile.privateKeySecretRef =
      some ⟨secret.meta_.key.namespace_, secret.meta_.key.name⟩ := by
  simp [withKeys, h, publicKey]

theorem Stored.matched {secret : Secret} {s' : State} (hP : Pairs P publicOf)
    (h : Stored P (secretKey S gwConfig) s secret s') :
    Matched publicOf (secretKey S gwConfig) s s' (withKeys gwConfig secret).status.gatewayServerProfile ↔
      Paired publicOf (secretKey S gwConfig) s := by
  constructor
  case mp =>
    intro hm old ho hd k hk
    obtain ⟨hdel, hp⟩ := h.provided old ho
    have ⟨text, ht, _⟩ := lookup_of_privateKey hk
    have hdata : secret.data = old.data := by simpa [Provided, ht] using hp
    have hd' := hdel.trans hd
    have ⟨hpub, _⟩ := hm secret (h.found hd') hd' k (hdata ▸ hk)
    rw [(status_withKeys gwConfig hd').left, hdata] at hpub
    exact hpub
  case mpr =>
    intro hpair secret' hs hd k hk
    obtain rfl := h.only secret' hs
    have ⟨hpub, href⟩ := status_withKeys gwConfig hd
    rw [hpub, href, h.key]
    cases hf : Store.find (s.api.items .secret) (secretKey S gwConfig)
    case none => exact ⟨(h.created hf).publicKey hP hk nofun, rfl, nofun⟩
    case some old =>
      obtain ⟨hdel, hp⟩ := h.provided old hf
      refine ⟨hp.publicKey hP hk fun hk' => hpair old hf (hdel ▸ hd) k hk', rfl, ?_⟩
      rintro _ ⟨⟩ hold
      obtain ⟨k₀, hk₀⟩ := Option.isSome_iff_exists.mp hold
      have ⟨text, ht, _⟩ := lookup_of_privateKey hk₀
      have hdata : secret'.data = old.data := by simpa [Provided, ht] using hp
      rw [hdata]

theorem keys_matched_iff (hP : Pairs P publicOf) {φ : Oracle Sig} {n : Nat}
    {o : Outcome Sig State StaticGatewayConfiguration}
    (ho : run (world P S.az) φ n (reconcileWireguardKey S gwConfig) s = o) (hr : o.result = .ok r) :
    Matched publicOf (secretKey S gwConfig) s o.state r.status.gatewayServerProfile ↔
      Paired publicOf (secretKey S gwConfig) s := by
  have h : Returns (world P S.az) (reconcileWireguardKey S gwConfig) s fun r s' =>
      ∃ secret, r = withKeys gwConfig secret ∧ Stored P (secretKey S gwConfig) s secret s' :=
    returns_secret.bind fun secret s' hs => returns_ret ⟨secret, rfl, hs⟩
  obtain ⟨secret, rfl, hs⟩ := h.outcome ho hr
  exact hs.matched hP

end Matched

end GwController

namespace Sample

def keyPlatform : Platform :=
  { Platform.simple with
    keyPair    := fun _ => ⟨Daemon.Key.zero.text, Daemon.Key.zero.text⟩
    keyPair_ne := fun _ => by decide +kernel }

def keyOwner : StaticGatewayConfiguration where
  meta_ := { key := ⟨"default", "a"⟩, uid := "1" }
  spec  := { gatewayNodepoolName := "gw" }

-- The secret of the gateway with the given content.
def withSecret (data : List (String × String)) : State where
  api := {
    items := fun
      | .secret => [{ meta_ := { key := GwController.secretKey settings keyOwner, uid := "2" }, data := data }]
      | _       => [] }

def keyed (s : State) : Outcome Sig State StaticGatewayConfiguration :=
  run (world keyPlatform settings.az) .calm 0 (GwController.reconcileWireguardKey settings keyOwner) s

end Sample

namespace GwController

open Sample

theorem parse_zero : Daemon.Key.parse Daemon.Key.zero.text = some .zero := by
  decide +kernel

theorem pairs_zero : Pairs keyPlatform fun _ => .zero :=
  fun _ => ⟨.zero, parse_zero, parse_zero⟩

theorem keys_matched_sample :
    Matched (fun _ => .zero) (secretKey settings keyOwner) (withSecret []) (keyed (withSecret [])).state
      ((keyed (withSecret [])).result.toOption.getD keyOwner).status.gatewayServerProfile := by
  have ⟨r, hr⟩ := ok_of_isOk (r := (keyed (withSecret [])).result) (by decide +kernel)
  rw [hr]
  refine (keys_matched_iff pairs_zero (by rw [keyed]) hr).mpr ?_
  intro secret hs _ k hk
  obtain rfl := Option.some.inj hs
  nomatch hk

-- Somebody has removed the public key from the secret: it is not restored, and the one that is published is
-- empty.
theorem keys_mismatched :
    let s := withSecret [(wireguardPrivateKeyName, Daemon.Key.zero.text)]
    ∃ r, (keyed s).result = .ok r ∧ r.status.gatewayServerProfile.publicKey = "" ∧
      ¬Matched (fun _ => .zero) (secretKey settings keyOwner) s (keyed s).state
        r.status.gatewayServerProfile := by
  intro s
  have ⟨r, hr⟩ := ok_of_isOk (r := (keyed s).result) (by decide +kernel)
  have hp : r.status.gatewayServerProfile.publicKey = "" := by
    have h : (keyed s).result.toOption.map (·.status.gatewayServerProfile.publicKey) = some "" := by
      decide +kernel
    rw [hr] at h
    exact Option.some.inj h
  refine ⟨r, hr, hp, fun hm => ?_⟩
  have hf : (Store.find ((keyed s).state.api.items .secret) (secretKey settings keyOwner)).map
      (fun x => (x.meta_.deleting, privateKey x.data)) = some (false, some .zero) := by
    decide +kernel
  obtain ⟨secret, hs, he⟩ := Option.map_eq_some_iff.mp hf
  have ⟨hd, hk⟩ := Prod.mk.inj he
  have h := (hm secret hs hd .zero hk).left
  rw [hp] at h
  exact absurd h (by decide +kernel)

end GwController

end Manager
