import Mathlib.Data.List.Basic
import Mathlib.Logic.Function.Basic

-- The `nat` table of iptables: how it is edited, and what it does to the first packet of a
-- connection.

namespace Iptables

inductive Match
  | comment      (text : String)
  | inInterface  (name : String)
  | outInterface (name : String)
  | source       (cidr : String)
  | connmark     (mark : Int)
  deriving DecidableEq

inductive Target
  | accept
  | jump    (chain : String)
  | setMark (mark : Int)
  | snat    (source : String)
  deriving DecidableEq

structure Rule where
  matches_ : List Match
  target   : Target
  deriving DecidableEq

structure Chain where
  name  : String
  rules : List Rule
  deriving DecidableEq

abbrev Table := List Chain

def prerouting  := "PREROUTING"
def postrouting := "POSTROUTING"

namespace Table

def empty : Table := [⟨prerouting, []⟩, ⟨"INPUT", []⟩, ⟨"OUTPUT", []⟩, ⟨postrouting, []⟩]

def find : Table → String → Option (List Rule)
  | [],      _ => none
  | ch :: t, c => if ch.name = c then some ch.rules else find t c

def set : Table → String → List Rule → Table
  | [],      c, rs => [⟨c, rs⟩]
  | ch :: t, c, rs => if ch.name = c then ⟨c, rs⟩ :: t else ch :: set t c rs

def drop (t : Table) (c : String) : Table :=
  t.filter (·.name ≠ c)

def references (t : Table) (c : String) : Bool :=
  t.any fun ch => ((t.find ch.name).getD []).any (·.target = .jump c)

-- `-N` unless the chain exists.
def ensureChain (t : Table) (c : String) : Table :=
  if (t.find c).isSome then t else t.set c []

-- `-I` unless the rule exists. Both the chain and the chain that the rule jumps to have to exist.
def ensureRule (t : Table) (c : String) (r : Rule) : Option Table :=
  match t.find c with
  | none    => none
  | some rs =>
    if r ∈ rs then some t
    else
      match r.target with
      | .jump d => if (t.find d).isSome then some (t.set c (r :: rs)) else none
      | _       => some (t.set c (r :: rs))

-- `iptables-restore --noflush` with a single chain and its rules, none of which is a jump.
def restoreAll (t : Table) (c : String) (rs : List Rule) : Table :=
  t.set c rs

-- `-D` if the rule exists.
def deleteRule (t : Table) (c : String) (r : Rule) : Table :=
  match t.find c with
  | none    => t
  | some rs => if r ∈ rs then t.set c (rs.erase r) else t

-- `iptables-restore --noflush` that flushes and removes a chain. A chain that is still referred to
-- cannot be removed, and the restore as a whole fails.
def removeChain (t : Table) (c : String) : Option Table :=
  if (t.set c []).references c then none else some (t.drop c)

end Table

-- A packet while it traverses the table.
structure Packet where
  inInterface  : String
  outInterface : String
  address      : String
  mark         : Int := 0
  deriving DecidableEq

def Match.holds (p : Packet) : Match → Bool
  | comment _      => true
  | inInterface n  => p.inInterface = n
  | outInterface n => p.outInterface = n
  | source c       => p.address ++ "/32" = c
  | connmark m     => p.mark = m

def Rule.holds (p : Packet) (r : Rule) : Bool :=
  r.matches_.all (·.holds p)

-- How the traversal of a chain ends: the packet falls through, or a verdict is reached.
inductive Verdict
  | next   (p : Packet)
  | accept (p : Packet)
  | snat   (p : Packet) (source : String)
  deriving DecidableEq

-- Applies the rules in order. `enter` is the traversal of the chain that a rule jumps to.
def walk (enter : String → Packet → Option Verdict) : List Rule → Packet → Option Verdict
  | [],      p => some (.next p)
  | r :: rs, p =>
    if r.holds p then
      match r.target with
      | .accept    => some (.accept p)
      | .snat a    => some (.snat p a)
      | .setMark m => walk enter rs { p with mark := m }
      | .jump c    =>
        match enter c p with
        | some (.next p) => walk enter rs p
        | v              => v
    else walk enter rs p

-- Jumps are nested at most `depth` deep. There are no loops, so the number of chains is enough.
def enter (t : Table) : (depth : Nat) → String → Packet → Option Verdict
  | 0,         _, _ => none
  | depth + 1, c, p => (t.find c).bind fun rs => walk (enter t depth) rs p

-- The first packet of a connection on its way through the host.
def forward (t : Table) (p : Packet) : Option Verdict :=
  match enter t t.length prerouting p with
  | some (.next p) | some (.accept p) => enter t t.length postrouting p
  | v => v

-- The address that the packet is rewritten to, if any.
def sourceNAT (t : Table) (p : Packet) : Option String :=
  match forward t p with
  | some (.snat _ a) => some a
  | _                => none

namespace Table

variable {t t' : Table} {c d : String} {r : Rule} {rs : List Rule}

theorem find_set : (t.set c rs).find d = if d = c then some rs else t.find d := by
  induction t
  case nil => simp [set, find, eq_comm]
  case cons ch t hi =>
    simp only [set]
    split
    case isTrue h => simp only [find, h, eq_comm]; split <;> rfl
    case isFalse h =>
      simp only [find, hi]
      split
      case isTrue hd => rw [if_neg fun he => h (hd.trans he)]
      case isFalse => rfl

theorem find_drop : (t.drop c).find d = if d = c then none else t.find d := by
  induction t
  case nil => simp [drop, find]
  case cons ch t hi =>
    unfold drop at hi ⊢
    by_cases hc : ch.name = c
    case pos =>
      rw [List.filter_cons_of_neg (by simpa using hc), hi]
      by_cases hd : d = c
      · rw [if_pos hd, if_pos hd]
      · rw [if_neg hd, if_neg hd, find, if_neg fun he => hd (he.symm.trans hc)]
    case neg =>
      rw [List.filter_cons_of_pos (by simpa using hc), find, hi, find]
      by_cases hd : d = c
      · rw [if_pos hd, if_neg fun he => hc (he.trans hd), if_pos hd]
      · rw [if_neg hd, if_neg hd]

theorem find_ensureChain :
    (t.ensureChain c).find d = if d = c then some ((t.find c).getD []) else t.find d := by
  unfold ensureChain
  cases hf : t.find c
  case none => simp [find_set]
  case some =>
    simp only [Option.isSome_some, if_true, Option.getD_some]
    split
    case isTrue h => rw [h, hf]
    case isFalse  => rfl

-- The rules of the source chain after `ensureRule`.
def withRule (r : Rule) (rs : List Rule) : List Rule :=
  if r ∈ rs then rs else r :: rs

theorem find_ensureRule (h : t.ensureRule c r = some t') :
    ∃ rs, t.find c = some rs ∧ ∀ d, t'.find d = if d = c then some (withRule r rs) else t.find d := by
  unfold ensureRule at h
  cases hf : t.find c
  case none => simp [hf] at h
  case some rs =>
    refine ⟨rs, rfl, fun d => ?_⟩
    simp only [hf] at h
    by_cases hr : r ∈ rs
    case pos =>
      rw [if_pos hr] at h
      rw [withRule, if_pos hr, ← Option.some.inj h]
      split
      case isTrue hd => rw [hd, hf]
      case isFalse   => rfl
    case neg =>
      rw [if_neg hr] at h
      have he : t' = t.set c (r :: rs) := by
        split at h
        · split at h
          · exact (Option.some.inj h).symm
          · nomatch h
        · exact (Option.some.inj h).symm
      rw [he, find_set, withRule, if_neg hr]

theorem find_restoreAll : (t.restoreAll c rs).find d = if d = c then some rs else t.find d :=
  find_set

theorem find_deleteRule :
    (t.deleteRule c r).find d = if d = c then (t.find c).map (·.erase r) else t.find d := by
  unfold deleteRule
  cases hf : t.find c
  case none =>
    dsimp only
    split
    case isTrue h => rw [h, hf]; rfl
    case isFalse  => rfl
  case some rs =>
    by_cases hr : r ∈ rs
    case pos => simp [hr, find_set]
    case neg =>
      simp only [if_neg hr, Option.map_some, List.erase_of_not_mem hr]
      split
      case isTrue h => rw [h, hf]
      case isFalse  => rfl

theorem exists_mem_of_find (h : t.find c = some rs) : ∃ ch ∈ t, ch.name = c := by
  induction t
  case nil => nomatch h
  case cons ch t hi =>
    rw [find] at h
    split at h
    case isTrue hc => exact ⟨ch, List.mem_cons_self, hc⟩
    case isFalse =>
      have ⟨ch', hm, hn⟩ := hi h
      exact ⟨ch', List.mem_cons_of_mem _ hm, hn⟩

theorem find_isSome_iff : (t.find c).isSome = true ↔ c ∈ t.map (·.name) := by
  induction t
  case nil => simp [find]
  case cons ch t hi =>
    rw [find, List.map_cons, List.mem_cons]
    split
    case isTrue hc  => simp [hc]
    case isFalse hc => rw [hi, or_iff_right fun he => hc he.symm]

theorem references_iff :
    t.references c = true ↔ ∃ d rs, t.find d = some rs ∧ ∃ r ∈ rs, r.target = .jump c := by
  simp only [references, List.any_eq_true, decide_eq_true_eq]
  constructor
  case mp =>
    rintro ⟨ch, _, r, hr, ht⟩
    cases hf : t.find ch.name
    case none    => simp [hf] at hr
    case some rs => exact ⟨ch.name, rs, hf, r, by simpa [hf] using hr, ht⟩
  case mpr =>
    rintro ⟨d, rs, hf, r, hr, ht⟩
    have ⟨ch, hm, hn⟩ := exists_mem_of_find hf
    exact ⟨ch, hm, r, by simpa [hn, hf] using hr, ht⟩

theorem find_removeChain (h : t.removeChain c = some t') :
    t'.find d = if d = c then none else t.find d := by
  unfold removeChain at h
  split at h
  · nomatch h
  · rw [← Option.some.inj h, find_drop]

variable {u : Table} {js : List Rule}

abbrev names (t : Table) : List String := t.map (·.name)

theorem set_of_find (h : t.find c = some rs) : t.set c rs = t := by
  induction t
  case nil => nomatch h
  case cons ch t hi =>
    rw [find] at h
    rw [set]
    split
    case isTrue hc  =>
      rw [if_pos hc] at h
      rw [← hc, ← Option.some.inj h]
    case isFalse hc =>
      rw [if_neg hc] at h
      rw [hi h]

theorem find_append : (t ++ u).find c = (t.find c).or (u.find c) := by
  induction t
  case nil => rfl
  case cons ch t hi =>
    simp only [List.cons_append, find]
    split
    case isTrue  => rfl
    case isFalse => exact hi

theorem set_append_left (h : c ∈ t.names) : set (t ++ u) c rs = set t c rs ++ u := by
  induction t
  case nil => nomatch h
  case cons ch t hi =>
    simp only [List.cons_append, set]
    split
    case isTrue    => rfl
    case isFalse hc =>
      rw [hi ((List.mem_cons.mp h).resolve_left fun he => hc he.symm), List.cons_append]

theorem set_append_right (h : c ∉ t.names) : set (t ++ u) c rs = t ++ set u c rs := by
  induction t
  case nil => rfl
  case cons ch t hi =>
    have ⟨hc, ht⟩ := List.ne_and_not_mem_of_not_mem_cons h
    rw [List.cons_append, set, if_neg fun he => hc he.symm, hi ht, List.cons_append]

theorem find_eq_none (h : c ∉ t.names) : t.find c = none := by
  have hn := mt find_isSome_iff.mp h
  simpa using hn

theorem mem_of_find (h : t.find c = some rs) : ⟨c, rs⟩ ∈ t := by
  induction t
  case nil => nomatch h
  case cons ch t hi =>
    rw [find] at h
    split at h
    case isTrue hc  => rw [← hc, ← Option.some.inj h]; exact List.mem_cons_self
    case isFalse hc => exact List.mem_cons_of_mem _ (hi h)

theorem drop_append : drop (t ++ u) c = drop t c ++ drop u c :=
  List.filter_append ..

theorem drop_of_notMem (h : c ∉ t.names) : t.drop c = t := by
  refine List.filter_eq_self.mpr fun ch hm => ?_
  have hn : ch.name ≠ c := fun he => h (List.mem_map.mpr ⟨ch, hm, he⟩)
  simpa using hn

-- The table with further rules in front of those of its chains.
def inserting (g : String → List Rule) (t : Table) : Table :=
  t.map fun ch => ⟨ch.name, g ch.name ++ ch.rules⟩

variable {g : String → List Rule}

theorem names_inserting : (t.inserting g).names = t.names := by
  simp [inserting, names]

theorem inserting_nil (h : ∀ c, g c = []) : t.inserting g = t := by
  simp [inserting, h]

theorem find_inserting : (t.inserting g).find c = (t.find c).map (g c ++ ·) := by
  induction t
  case nil => rfl
  case cons ch t hi =>
    simp only [inserting, List.map_cons, find] at hi ⊢
    split
    case isTrue h  => rw [h]; rfl
    case isFalse h => exact hi

theorem inserting_update_of_notMem (h : c ∉ t.names) : inserting (Function.update g c js) t = inserting g t := by
  refine List.map_congr_left fun ch hm => ?_
  rw [Function.update_of_ne fun he => h (List.mem_map.mpr ⟨ch, hm, he⟩)]

theorem set_inserting (hd : t.names.Nodup) (h : t.find c = some rs) :
    (t.inserting g).set c (js ++ rs) = t.inserting (Function.update g c js) := by
  induction t
  case nil => nomatch h
  case cons ch t hi =>
    have ⟨hn, hd⟩ := List.nodup_cons.mp hd
    rw [find] at h
    by_cases hc : ch.name = c
    case pos =>
      rw [if_pos hc] at h
      have ht : inserting (Function.update g c js) t = inserting g t :=
        inserting_update_of_notMem fun hm => hn (by simpa [hc] using hm)
      have hhead : Function.update g c js ch.name = js := by rw [hc, Function.update_self]
      simp only [inserting, List.map_cons, set, if_pos hc, hhead, Option.some.inj h] at ht ⊢
      rw [ht, hc]
    case neg =>
      rw [if_neg hc] at h
      have ht := hi hd h
      simp only [inserting, List.map_cons, set, if_neg hc, Function.update_of_ne hc] at ht ⊢
      rw [ht]

end Table

end Iptables
