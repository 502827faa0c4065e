import Mathlib.Data.List.Basic
import EgressGateway.Cni.Conf

open Text

namespace Cni

namespace Object

variable (o : Object) {v : Json}

@[simp]
theorem set_self (key : String) : o.set key v key = some v :=
  Function.update_self ..

@[simp]
theorem set_set (key : String) {w : Json} : (o.set key w).set key v = o.set key v :=
  Function.update_idem ..

theorem set_of_ne {key k : String} (h : k ≠ key) : o.set key v k = o k :=
  Function.update_of_ne h ..

theorem delete_of_ne {key k : String} (h : k ≠ key) : o.delete key k = o k :=
  Function.update_of_ne h ..

theorem delete_eq_self {key : String} (h : o key = none) : o.delete key = o := by
  rw [delete, ← h]
  exact Function.update_eq_self ..

end Object

namespace ConfManager

section List

variable [CaseFold] {mgr : ConfManager} {file : String}

-- An entry of the plugin's own type.
def isOwn : Json → Bool
  | .obj p => (p "type").any isOwnType
  | _      => false

-- What the loop asks of an entry that it passes.
def isTyped : Json → Bool
  | .obj p => (p "type").isSome
  | _      => false

-- An entry that the loop refuses stands before the first entry of the plugin's own type.
def Refused (plugins : List Json) : Prop :=
  ∃ p ∈ plugins.takeWhile (!isOwn ·), isTyped p = false

theorem isOwn_plugin : isOwn mgr.plugin = true :=
  equalFold_refl kubeEgressCNIName

theorem isTyped_of_isOwn {p : Json} (h : isOwn p = true) : isTyped p = true := by
  cases p
  case obj p => exact Option.isSome_of_any h
  all_goals nomatch h

theorem removePlugin_own {p : Json} {plugins : List Json} (h : isOwn p = true) :
    removePlugin file (p :: plugins) = .ok plugins := by
  cases p
  case obj p =>
    obtain ⟨t, ht⟩ := Option.isSome_iff_exists.mp (isTyped_of_isOwn h)
    have h : isOwnType t = true := by simpa [isOwn, ht] using h
    simp [removePlugin, ht, h]
  all_goals nomatch h

theorem removePlugin_other {p : Json} {plugins : List Json} (h : isOwn p = false)
    (ht : isTyped p = true) :
    removePlugin file (p :: plugins) = (p :: ·) <$> removePlugin file plugins := by
  cases p
  case obj p =>
    obtain ⟨t, ht⟩ := Option.isSome_iff_exists.mp ht
    have h : isOwnType t = false := by simpa [isOwn, ht] using h
    simp [removePlugin, ht, h]
  all_goals nomatch ht

theorem removePlugin_untyped {p : Json} {plugins : List Json} (h : isTyped p = false) :
    ∃ e, removePlugin file (p :: plugins) = .error e ∧ e.code = .other := by
  cases p
  case obj p =>
    have h : p "type" = none := Option.isSome_eq_false_iff.mp h |> Option.isNone_iff_eq_none.mp
    exact ⟨_, by simp [removePlugin, h]; rfl, rfl⟩
  all_goals exact ⟨_, rfl, rfl⟩

theorem not_refused_nil : ¬Refused [] := by
  simp [Refused]

theorem refused_own {p : Json} {plugins : List Json} (h : isOwn p = true) :
    ¬Refused (p :: plugins) := by
  simp [Refused, h]

theorem refused_other {p : Json} {plugins : List Json} (h : isOwn p = false) :
    Refused (p :: plugins) ↔ isTyped p = false ∨ Refused plugins := by
  simp [Refused, h]

-- The loop either refuses an entry or drops the first one of the plugin's own type.
theorem removePlugin_spec (file : String) (plugins : List Json) :
    Refused plugins ∧ (∃ e, removePlugin file plugins = .error e ∧ e.code = .other) ∨
    ¬Refused plugins ∧ removePlugin file plugins = .ok (plugins.eraseP isOwn) := by
  induction plugins
  case nil => exact .inr ⟨not_refused_nil, rfl⟩
  case cons p plugins ih =>
    cases h : isOwn p
    case true =>
      exact .inr ⟨refused_own h, by rw [removePlugin_own h, List.eraseP_cons_of_pos h]⟩
    case false =>
      rw [refused_other h]
      cases ht : isTyped p
      case false => exact .inl ⟨.inl rfl, removePlugin_untyped ht⟩
      case true =>
        rw [removePlugin_other h ht, List.eraseP_cons_of_neg (by simp [h])]
        rcases ih with ⟨hr, e, he, hc⟩ | ⟨hr, he⟩
        · exact .inl ⟨.inr hr, e, by rw [he]; rfl, hc⟩
        · exact .inr ⟨by simp [hr], by rw [he]; rfl⟩

theorem eraseP_eq_filter_iff {plugins : List Json} :
    plugins.eraseP isOwn = plugins.filter (!isOwn ·) ↔ plugins.countP isOwn ≤ 1 := by
  induction plugins
  case nil => simp
  case cons p plugins ih =>
    cases h : isOwn p
    case false => simp [h, ih]
    case true =>
      rw [List.eraseP_cons_of_pos h, List.filter_cons_of_neg (by simp [h]), eq_comm,
        List.filter_eq_self]
      simp [h, List.countP_eq_zero]

variable {o : Object} {plugins : List Json}

-- The function after its file has been read and its plugins have been found.
theorem managePluginFromConfList_eq (h : o "plugins" = some (.arr plugins)) (hn : plugins ≠ []) :
    mgr.managePluginFromConfList file (.object o) =
      (removePlugin file plugins >>= mgr.insertPlugin).map (fun ps => o.set "plugins" (.arr ps)) := by
  have hn : plugins.length ≠ 0 := List.length_eq_zero_iff.not.mpr hn
  simp only [managePluginFromConfList, readConf, bind, Except.bind, h, if_neg hn]
  cases removePlugin file plugins
  case error => rfl
  case ok ps => cases h : mgr.insertPlugin ps <;> simp [Except.map, h]

theorem managePluginFromConfList_nil (mgr : ConfManager) (file : String)
    (h : o "plugins" = some (.arr [])) :
    ∃ e, mgr.managePluginFromConfList file (.object o) = .error e ∧ e.code = .other :=
  ⟨_, by simp only [managePluginFromConfList, readConf, bind, Except.bind, h]; rfl, rfl⟩

theorem managePluginFromConfList_refused (mgr : ConfManager) (file : String)
    (h : o "plugins" = some (.arr plugins)) (hr : Refused plugins) :
    ∃ e, mgr.managePluginFromConfList file (.object o) = .error e ∧ e.code = .other := by
  have hn : plugins ≠ [] := by
    rintro rfl
    exact not_refused_nil hr
  obtain ⟨-, e, he, hc⟩ := (removePlugin_spec file plugins).resolve_right (·.1 hr)
  exact ⟨e, by rw [managePluginFromConfList_eq h hn, he]; rfl, hc⟩

theorem managePluginFromConfList_erased (h : o "plugins" = some (.arr plugins))
    (hn : plugins ≠ []) (hr : ¬Refused plugins) :
    mgr.managePluginFromConfList file (.object o) =
      (mgr.insertPlugin (plugins.eraseP isOwn)).map (fun ps => o.set "plugins" (.arr ps)) := by
  obtain ⟨-, he⟩ := (removePlugin_spec file plugins).resolve_left (hr ·.1)
  rw [managePluginFromConfList_eq h hn, he]
  rfl

theorem managePluginFromConfList_panic (h : o "plugins" = some (.arr plugins)) (hn : plugins ≠ [])
    (hr : ¬Refused plugins) (he : plugins.eraseP isOwn = []) :
    mgr.managePluginFromConfList file (.object o) = .error sliceOutOfRange := by
  rw [managePluginFromConfList_erased h hn hr, he]
  rfl

theorem managePluginFromConfList_ok (h : o "plugins" = some (.arr plugins)) (hr : ¬Refused plugins)
    {q : Json} {rest : List Json} (he : plugins.eraseP isOwn = q :: rest) :
    mgr.managePluginFromConfList file (.object o) =
      .ok (o.set "plugins" (.arr (q :: mgr.plugin :: rest))) := by
  have hn : plugins ≠ [] := by
    rintro rfl
    nomatch he
  rw [managePluginFromConfList_erased h hn hr, he]
  rfl

-- The second time the own entry is at index 1, and only the entry before it is looked at.
theorem managePluginFromConfList_again {q : Json} {rest : List Json} (hq : isOwn q = false) :
    mgr.managePluginFromConfList file (.object (o.set "plugins" (.arr (q :: mgr.plugin :: rest)))) =
      .ok (o.set "plugins" (.arr (q :: mgr.plugin :: rest))) ↔ isTyped q = true := by
  have hp : isOwn mgr.plugin = true := isOwn_plugin
  have hr : Refused (q :: mgr.plugin :: rest) ↔ isTyped q = false := by
    rw [refused_other hq, or_iff_left (refused_own hp)]
  cases ht : isTyped q
  case false =>
    have ⟨e, he, _⟩ :=
      managePluginFromConfList_refused mgr file (o.set_self "plugins") (hr.mpr ht)
    simp [he]
  case true =>
    have he : (q :: mgr.plugin :: rest).eraseP isOwn = q :: rest := by
      rw [List.eraseP_cons_of_neg (by simp [hq]), List.eraseP_cons_of_pos hp]
    rw [managePluginFromConfList_ok (o.set_self "plugins") (by simp [hr, ht]) he,
      Object.set_set]
    simp

-- The list that the node should end up with.
structure Inserted (mgr : ConfManager) (o : Object) (plugins : List Json) (r : Object) : Prop where
  fields  : ∀ key, key ≠ "plugins" → r key = o key
  plugins : ∃ p rest, plugins.filter (!isOwn ·) = p :: rest ∧
              r "plugins" = some (.arr (p :: mgr.plugin :: rest))

-- The call returns an error or the list above, which a second call leaves alone; it does not panic.
def InsertsOnce (mgr : ConfManager) (file : String) (o : Object) (plugins : List Json) : Prop :=
  match mgr.managePluginFromConfList file (.object o) with
  | .error e => e.code ≠ .panic
  | .ok r    => Inserted mgr o plugins r ∧ mgr.managePluginFromConfList file (.object r) = .ok r

structure Orderly (plugins : List Json) : Prop where
  once  : plugins.countP isOwn ≤ 1
  other : ∃ p ∈ plugins, isOwn p = false
  -- The entry behind an own entry at the head comes to stand before it, and is looked at only then.
  typed : ∀ p q rest, plugins = p :: q :: rest → isOwn p = true → isTyped q = true

theorem inserted_iff {q : Json} {rest : List Json} (he : plugins.eraseP isOwn = q :: rest) :
    Inserted mgr o plugins (o.set "plugins" (.arr (q :: mgr.plugin :: rest))) ↔
      plugins.countP isOwn ≤ 1 := by
  rw [← eraseP_eq_filter_iff, he]
  constructor
  · rintro ⟨-, p, rest', hf, hp⟩
    rw [Object.set_self] at hp
    grind
  · intro hf
    exact ⟨fun _ hk => o.set_of_ne hk, q, rest, hf.symm, o.set_self _⟩

theorem typed_iff {q : Json} {rest : List Json} (hr : ¬Refused plugins)
    (he : plugins.eraseP isOwn = q :: rest) :
    isTyped q = true ↔ ∀ p q rest, plugins = p :: q :: rest → isOwn p = true → isTyped q = true := by
  cases plugins
  case nil => nomatch he
  case cons p plugins =>
    cases hp : isOwn p
    case true =>
      rw [List.eraseP_cons_of_pos hp] at he
      subst he
      grind
    case false =>
      rw [List.eraseP_cons_of_neg (by simp [hp])] at he
      rw [refused_other hp] at hr
      grind

theorem conflist_inserts_iff (mgr : ConfManager) (file : String)
    (h : o "plugins" = some (.arr plugins)) :
    InsertsOnce mgr file o plugins ↔ (plugins = [] ∨ Refused plugins) ∨ Orderly plugins := by
  by_cases hn : plugins = []
  case pos =>
    subst hn
    have ⟨e, he, hc⟩ := managePluginFromConfList_nil mgr file h
    simp [InsertsOnce, he, hc]
  by_cases hr : Refused plugins
  case pos =>
    have ⟨e, he, hc⟩ := managePluginFromConfList_refused mgr file h hr
    simp [InsertsOnce, he, hc, hr]
  rw [or_iff_right (by simp [hn, hr])]
  cases he : plugins.eraseP isOwn
  case nil =>
    have hp : ¬Orderly plugins := fun ⟨_, ⟨p, hp, ho⟩, _⟩ => by
      have hm : p ∈ plugins.eraseP isOwn := (List.mem_eraseP_of_neg (by simp [ho])).mpr hp
      simp [he] at hm
    simp [InsertsOnce, managePluginFromConfList_panic h hn hr he, sliceOutOfRange, hp]
  case cons q rest =>
    simp only [InsertsOnce, managePluginFromConfList_ok h hr he, inserted_iff he]
    constructor
    · rintro ⟨hc, ha⟩
      have hq : q ∈ plugins.filter (!isOwn ·) := by simp [← eraseP_eq_filter_iff.mpr hc, he]
      have ⟨hm, ho⟩ := List.mem_filter.mp hq
      have ho : isOwn q = false := by simpa using ho
      exact ⟨hc, ⟨q, hm, ho⟩, (typed_iff hr he).mp <| (managePluginFromConfList_again ho).mp ha⟩
    · rintro ⟨hc, -, ht⟩
      have hq : q ∈ plugins.filter (!isOwn ·) := by simp [← eraseP_eq_filter_iff.mpr hc, he]
      have ho : isOwn q = false := by simpa using (List.mem_filter.mp hq).2
      exact ⟨hc, (managePluginFromConfList_again ho).mpr <| (typed_iff hr he).mpr ht⟩

end List

def entry (cniType : String) : Json :=
  .obj (Object.empty.set "type" (.str cniType))

def chain (cniTypes : List String) : Object :=
  Object.empty.set "plugins" (.arr (cniTypes.map entry))

-- The only plugin is the own one: a slice is out of range. A second own entry: it stays.
theorem conflist_not_inserted :
    (⟨[], 50051⟩ : ConfManager).managePluginFromConfList "10.conflist"
      (.object (chain ["kube-egress-cni"])) = .error sliceOutOfRange ∧
    ¬InsertsOnce ⟨[], 50051⟩ "10.conflist" (chain ["kube-egress-cni"])
      [entry "kube-egress-cni"] ∧
    (⟨[], 50051⟩ : ConfManager).managePluginFromConfList "10.conflist"
      (.object (chain ["bridge", "kube-egress-cni", "kube-egress-cni"])) =
        .ok ((chain ["bridge", "kube-egress-cni", "kube-egress-cni"]).set "plugins"
          (.arr [entry "bridge", plugin ⟨[], 50051⟩, entry "kube-egress-cni"])) ∧
    ¬InsertsOnce ⟨[], 50051⟩ "10.conflist" (chain ["bridge", "kube-egress-cni", "kube-egress-cni"])
      [entry "bridge", entry "kube-egress-cni", entry "kube-egress-cni"] := by
  refine ⟨rfl, fun h => h rfl, rfl, ?_⟩
  rintro ⟨⟨-, p, rest, hf, hp⟩, -⟩
  have hf : [entry "bridge"] = p :: rest := hf
  have hp : some (Json.arr [entry "bridge", plugin ⟨[], 50051⟩, entry "kube-egress-cni"]) =
    some (.arr (p :: plugin ⟨[], 50051⟩ :: rest)) := hp
  simp [← (List.cons.inj hf).2] at hp

theorem conflist_inserts_sample :
    InsertsOnce ⟨[], 50051⟩ "10.conflist" (chain ["bridge", "portmap", "kube-egress-cni"])
      [entry "bridge", entry "portmap", entry "kube-egress-cni"] :=
  (conflist_inserts_iff _ _ rfl).mpr <| .inr ⟨by decide, ⟨_, .head _, rfl⟩, by
    rintro p q rest ⟨⟩ h
    nomatch h⟩

section Conf

variable {mgr : ConfManager} {file : String} {conf : Object}

-- The plugin of a configuration: the object without what moves to the list.
def body (conf : Object) : Object :=
  (conf.delete "name").delete "cniVersion"

-- The list of one plugin that says the same as a configuration.
def asList (conf : Object) : Object := fun key =>
  if key = "plugins" then some (.arr [.obj (body conf)])
  else if key = "name" ∨ key = "cniVersion" then conf key
  else none

theorem body_of_ne {key : String} (hn : key ≠ "name") (hv : key ≠ "cniVersion") :
    body conf key = conf key := by
  rw [body, Object.delete_of_ne _ hv, Object.delete_of_ne _ hn]

-- Both fields of the list come from the configuration, which loses them.
theorem setVersion_eq {name : Json} (hn : conf "name" = some name)
    (hv : ∀ v, conf "cniVersion" = some v → ∃ s, v = .str s) :
    setVersion (conf.delete "name") (Object.empty.set "name" name) =
      .ok (body conf, (asList conf).delete "plugins") := by
  have hd : conf.delete "name" "cniVersion" = conf "cniVersion" := conf.delete_of_ne (by decide)
  rw [setVersion, hd]
  cases hc : conf "cniVersion"
  case none =>
    refine congrArg Except.ok (Prod.ext ?_ (funext fun key => ?_))
    · exact (Object.delete_eq_self _ (hd.trans hc)).symm
    · simp only [Object.set, Object.empty, Object.delete, Function.update_apply, asList]
      grind
  case some v =>
    obtain ⟨s, rfl⟩ := hv v hc
    refine congrArg Except.ok (Prod.ext rfl (funext fun key => ?_))
    simp only [Object.set, Object.empty, Object.delete, Function.update_apply, asList]
    grind

theorem managePluginFromConf_eq {name : Json} (hn : conf "name" = some name)
    (hv : ∀ v, conf "cniVersion" = some v → ∃ s, v = .str s) :
    mgr.managePluginFromConf file (.object conf) =
      .ok ((asList conf).set "plugins" (.arr [.obj (body conf), mgr.plugin])) := by
  simp only [managePluginFromConf, readConf, bind, Except.bind, hn, setVersion_eq hn hv]
  exact congrArg Except.ok (Function.update_idem ..)

theorem conf_agrees [CaseFold] (mgr : ConfManager) (file file' : String) {name : Json}
    {cniType : String}
    (hn : conf "name" = some name) (hv : ∀ v, conf "cniVersion" = some v → ∃ s, v = .str s)
    (ht : conf "type" = some (.str cniType)) (ho : equalFold cniType kubeEgressCNIName = false) :
    ∃ r, mgr.managePluginFromConf file (.object conf) = .ok r ∧
      mgr.managePluginFromConfList file' (.object (asList conf)) = .ok r ∧
      r "name" = some name ∧ r "cniVersion" = conf "cniVersion" ∧
      r "plugins" = some (.arr [.obj (body conf), mgr.plugin]) ∧
      ∀ key, key ≠ "name" → key ≠ "cniVersion" → body conf key = conf key := by
  have ht : body conf "type" = some (.str cniType) := by
    rw [body_of_ne (by decide) (by decide), ht]
  have hp : isOwn (.obj (body conf)) = false := by simpa [isOwn, ht, isOwnType] using ho
  have hr : ¬Refused [.obj (body conf)] := by
    rw [refused_other hp, or_iff_left not_refused_nil]
    simp [isTyped, ht]
  refine ⟨_, managePluginFromConf_eq hn hv, managePluginFromConfList_ok rfl hr ?_, ?_, ?_, ?_, ?_⟩
  · simp [hp]
  · rw [Object.set_of_ne _ (by decide), ← hn]
    rfl
  · rw [Object.set_of_ne _ (by decide)]
    rfl
  · exact Object.set_self ..
  · exact fun key hn hv => body_of_ne hn hv

end Conf

def bridgeConf : Object :=
  Object.empty
    |>.set "name" (.str "testnet")
    |>.set "cniVersion" (.str "0.3.1")
    |>.set "type" (.str "bridge")
    |>.set "ipam" (entry "host-local")

theorem conf_agrees_sample :
    ∃ r, (⟨["10.1.0.0/16"], 5051⟩ : ConfManager).managePluginFromConf "10.conf"
        (.object bridgeConf) = .ok r ∧
      (⟨["10.1.0.0/16"], 5051⟩ : ConfManager).managePluginFromConfList "10.conflist"
        (.object (asList bridgeConf)) = .ok r ∧
      r "name" = some (.str "testnet") ∧ r "cniVersion" = some (.str "0.3.1") ∧
      r "plugins" = some (.arr [.obj (body bridgeConf), plugin ⟨["10.1.0.0/16"], 5051⟩]) ∧
      ∀ key, key ≠ "name" → key ≠ "cniVersion" → body bridgeConf key = bridgeConf key :=
  conf_agrees _ _ _ rfl (fun _ h => ⟨"0.3.1", Option.some.inj h.symm⟩) rfl (by decide)

end ConfManager
end Cni
