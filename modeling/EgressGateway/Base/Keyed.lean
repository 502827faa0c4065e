import Mathlib.Data.List.Forall2
import Mathlib.Data.List.Nodup
import Mathlib.Data.List.Perm.Basic

-- Lists that are searched and edited by a key of their elements.

namespace Keyed

variable {α κ : Type} [DecidableEq κ] {key : α → κ} {k : κ} {xs : List α}

-- Adds a key at the end unless it is there already.
def enroll (k : κ) (ks : List κ) : List κ :=
  if k ∈ ks then ks else ks ++ [k]

theorem mem_enroll {k j : κ} {ks : List κ} : j ∈ enroll k ks ↔ j = k ∨ j ∈ ks := by
  unfold enroll
  split
  case isTrue h =>
    refine ⟨.inr, ?_⟩
    rintro (rfl | hj)
    · exact h
    · exact hj
  case isFalse => simp [or_comm]

theorem nodup_enroll {ks : List κ} (h : ks.Nodup) : (enroll k ks).Nodup := by
  unfold enroll
  split
  case isTrue => exact h
  case isFalse hk =>
    refine List.nodup_append.mpr ⟨h, List.nodup_singleton k, ?_⟩
    intro a ha b hb he
    rw [List.mem_singleton.mp hb] at he
    exact hk (he ▸ ha)

theorem enroll_of_mem {ks : List κ} (h : k ∈ ks) : enroll k ks = ks :=
  if_pos h

theorem enroll_of_not_mem {ks : List κ} (h : k ∉ ks) : enroll k ks = ks ++ [k] :=
  if_neg h

theorem perm_enroll {ks js : List κ} (h : ks.Perm js) : (enroll k ks).Perm (enroll k js) := by
  by_cases hk : k ∈ ks
  case pos => rwa [enroll_of_mem hk, enroll_of_mem (h.mem_iff.mp hk)]
  case neg =>
    rw [enroll_of_not_mem hk, enroll_of_not_mem (mt h.mem_iff.mpr hk)]
    exact h.append_right _

-- Under unique keys, removing the first match removes every match.
theorem eraseP_eq_filter (h : (xs.map key).Nodup) :
    xs.eraseP (key · = k) = xs.filter (key · ≠ k) := by
  induction xs
  case nil => rfl
  case cons x xs hi =>
    rw [List.map_cons, List.nodup_cons] at h
    by_cases hx : key x = k
    case pos =>
      have hrest : ∀ y ∈ xs, key y ≠ k := fun y hy he =>
        h.left (List.mem_map.mpr ⟨y, hy, he.trans hx.symm⟩)
      rw [List.eraseP_cons_of_pos (by simpa using hx), List.filter_cons_of_neg (by simpa using hx)]
      exact (List.filter_eq_self.mpr fun y hy => by simpa using hrest y hy).symm
    case neg =>
      rw [List.eraseP_cons_of_neg (by simpa using hx), List.filter_cons_of_pos (by simpa using hx),
        hi h.right]

omit [DecidableEq κ] in
-- The same for a predicate that at most one element satisfies.
theorem eraseP_eq_filter_not {p : α → Bool} (h : xs.Pairwise fun x y => ¬(p x = true ∧ p y = true)) :
    xs.eraseP p = xs.filter (!p ·) := by
  induction xs
  case nil => rfl
  case cons x xs hi =>
    rw [List.pairwise_cons] at h
    cases hx : p x
    case true =>
      rw [List.eraseP_cons_of_pos hx, List.filter_cons_of_neg (by simp [hx])]
      exact (List.filter_eq_self.mpr fun y hy => by simpa [hx] using h.left y hy).symm
    case false =>
      rw [List.eraseP_cons_of_neg (by simp [hx]), List.filter_cons_of_pos (by simp [hx]), hi h.right]

omit [DecidableEq κ] in
theorem filter_eraseP {p q : α → Bool} (h : ∀ x ∈ xs, q x = true → p x = false) :
    (xs.eraseP p).filter q = xs.filter q := by
  induction xs
  case nil => rfl
  case cons x xs hi =>
    have hi := hi fun y hy => h y (List.mem_cons_of_mem _ hy)
    cases hp : p x
    case true =>
      have hq : q x = false := by
        by_contra hq
        exact Bool.false_ne_true ((h x List.mem_cons_self (by simpa using hq)).symm.trans hp)
      rw [List.eraseP_cons_of_pos hp, List.filter_cons_of_neg (by simp [hq])]
    case false =>
      rw [List.eraseP_cons_of_neg (by simp [hp]), List.filter_cons, List.filter_cons, hi]

omit [DecidableEq κ] in
theorem eraseP_congr {p q : α → Bool} (h : ∀ x ∈ xs, p x = q x) : xs.eraseP p = xs.eraseP q := by
  induction xs
  case nil => rfl
  case cons x xs hi =>
    have hx := h x List.mem_cons_self
    rw [List.eraseP_cons, List.eraseP_cons, hx, hi fun y hy => h y (List.mem_cons_of_mem _ hy)]

theorem map_eraseP (xs : List α) : (xs.eraseP (key · = k)).map key = (xs.map key).erase k := by
  induction xs
  case nil => rfl
  case cons x xs hi =>
    by_cases hx : key x = k
    case pos => simp [hx]
    case neg => simp [List.erase_cons_tail, hx, hi]

-- Replacing an element by one with the same key.
theorem perm_replace {x : α} (h : key x ∈ xs.map key) :
    ((xs.eraseP (key · = key x) ++ [x]).map key).Perm (xs.map key) := by
  rw [List.map_append, map_eraseP, List.map_singleton]
  exact List.perm_append_comm.trans (List.perm_cons_erase h).symm

theorem any_iff : xs.any (key · = k) = true ↔ k ∈ xs.map key := by
  simp

theorem find?_isSome_iff : (xs.find? (key · = k)).isSome ↔ k ∈ xs.map key := by
  simp

theorem find?_none_iff : xs.find? (key · = k) = none ↔ k ∉ xs.map key := by
  simp

theorem find?_some_of_mem {x : α} (h : (xs.map key).Nodup) (hx : x ∈ xs) :
    xs.find? (key · = key x) = some x := by
  cases hf : xs.find? (key · = key x)
  case none => exact absurd (List.mem_map_of_mem hx) (find?_none_iff.mp hf)
  case some y =>
    have hy := List.mem_of_find?_eq_some hf
    have hk : key y = key x := by simpa using List.find?_some hf
    rw [List.inj_on_of_nodup_map h hy hx hk]

omit [DecidableEq κ] in
-- At most one element can satisfy what only holds for one key.
theorem pairwise_of_nodup {p : α → Bool} (h : (xs.map key).Nodup) (hp : ∀ x, p x = true → key x = k) :
    xs.Pairwise fun x y => ¬(p x = true ∧ p y = true) :=
  (List.pairwise_map.mp h).imp fun hne hxy => hne ((hp _ hxy.left).trans (hp _ hxy.right).symm)

section Replace

variable {p : α → Bool} {x : α}

omit [DecidableEq κ] in
theorem filter_not_replace (hx : p x = true) : (xs.eraseP p ++ [x]).filter (!p ·) = xs.filter (!p ·) := by
  rw [List.filter_append, filter_eraseP fun y _ hy => by simpa using hy]
  simp [hx]

omit [DecidableEq κ] in
theorem find?_replace (h : xs.Pairwise fun x y => ¬(p x = true ∧ p y = true)) (hx : p x = true) :
    (xs.eraseP p ++ [x]).find? p = some x := by
  have hn : (xs.filter (!p ·)).find? p = none := List.find?_eq_none.mpr fun y hy => by
    simpa using (List.mem_filter.mp hy).right
  rw [eraseP_eq_filter_not h, List.find?_append, hn]
  simp [hx]

omit [DecidableEq κ] in
theorem filter_replace (h : xs.Pairwise fun x y => ¬(p x = true ∧ p y = true)) (hx : p x = true) :
    (xs.eraseP p ++ [x]).filter p = [x] := by
  rw [eraseP_eq_filter_not h, List.filter_append, List.filter_filter]
  simp [hx]

omit [DecidableEq κ] in
theorem filter_of_find? (h : xs.Pairwise fun x y => ¬(p x = true ∧ p y = true)) (hf : xs.find? p = some x) :
    xs.filter p = [x] := by
  induction xs
  case nil => nomatch hf
  case cons y xs hi =>
    rw [List.pairwise_cons] at h
    cases hy : p y
    case false =>
      rw [List.find?_cons_of_neg (by simp [hy])] at hf
      rw [List.filter_cons_of_neg (by simp [hy]), hi h.right hf]
    case true =>
      obtain rfl : y = x := by simpa [hy] using hf
      have hrest : xs.filter p = [] := List.filter_eq_nil_iff.mpr fun z hz hp => h.left z hz ⟨hy, hp⟩
      rw [List.filter_cons_of_pos hy, hrest]

theorem filter_of_mem (h : (xs.map key).Nodup) (hx : x ∈ xs) (hk : key x = k) :
    xs.filter (key · = k) = [x] :=
  filter_of_find? (pairwise_of_nodup h fun _ => of_decide_eq_true) (hk ▸ find?_some_of_mem h hx)

omit [DecidableEq κ] in
theorem eq_of_cons_eq_append {a : α} (h : a :: xs = xs ++ [x]) : a = x := by
  induction xs generalizing a
  case nil => simpa using h
  case cons b xs hi =>
    obtain ⟨rfl, h⟩ := List.cons.inj h
    exact hi h

omit [DecidableEq κ] in
-- Replacing an element only changes nothing if the new one is the same.
theorem eq_of_eq_replace {y : α} (hf : xs.find? p = some x)
    (h : xs = xs.eraseP p ++ [y]) : x = y := by
  have ⟨hx, as, bs, hxs, has⟩ := List.find?_eq_some_iff_append.mp hf
  have herase : xs.eraseP p = as ++ bs := by
    rw [hxs, List.eraseP_append_right _ fun a ha => by simpa using has a ha, List.eraseP_cons_of_pos hx]
  rw [herase, hxs, List.append_assoc] at h
  exact eq_of_cons_eq_append (List.append_cancel_left h)

end Replace

-- Replaces the first element with the key of `x` by `x`, or adds `x` at the end.
def upsert (key : α → κ) (x : α) : List α → List α
  | []      => [x]
  | y :: ys => if key y = key x then x :: ys else y :: upsert key x ys

section Upsert

variable {x y : α} {es : List α}

theorem map_upsert (x : α) (xs : List α) : (upsert key x xs).map key = enroll (key x) (xs.map key) := by
  induction xs
  case nil => rfl
  case cons y ys hi =>
    unfold upsert
    by_cases hy : key y = key x
    case pos => rw [if_pos hy, List.map_cons, List.map_cons, hy, enroll_of_mem List.mem_cons_self]
    case neg =>
      rw [if_neg hy, List.map_cons, List.map_cons, hi]
      by_cases hx : key x ∈ ys.map key
      case pos => rw [enroll_of_mem hx, enroll_of_mem (List.mem_cons_of_mem _ hx)]
      case neg =>
        rw [enroll_of_not_mem hx, enroll_of_not_mem, List.cons_append]
        rw [List.mem_cons]
        rintro (he | he)
        · exact hy he.symm
        · exact hx he

theorem upsert_self (x : α) (xs : List α) : upsert key x (upsert key x xs) = upsert key x xs := by
  induction xs
  case nil => simp [upsert]
  case cons y ys hi =>
    unfold upsert
    by_cases hy : key y = key x
    case pos => simp [hy, upsert]
    case neg => simp [hy, upsert, hi]

theorem mem_upsert (h : (xs.map key).Nodup) : y ∈ upsert key x xs ↔ y = x ∨ y ∈ xs ∧ key y ≠ key x := by
  induction xs
  case nil => simp [upsert]
  case cons z zs hi =>
    rw [List.map_cons, List.nodup_cons] at h
    unfold upsert
    by_cases hz : key z = key x
    case pos =>
      have hne : ∀ w ∈ zs, key w ≠ key x := fun w hw he =>
        h.left (hz.trans he.symm ▸ List.mem_map_of_mem hw)
      rw [if_pos hz, List.mem_cons, List.mem_cons]
      refine or_congr_right ⟨fun hy => ⟨.inr hy, hne y hy⟩, ?_⟩
      rintro ⟨rfl | hy, hyx⟩
      · exact absurd hz hyx
      · exact hy
    case neg =>
      rw [if_neg hz, List.mem_cons, List.mem_cons, hi h.right]
      constructor
      case mp =>
        rintro (rfl | rfl | ⟨hy, hne⟩)
        · exact .inr ⟨.inl rfl, hz⟩
        · exact .inl rfl
        · exact .inr ⟨.inr hy, hne⟩
      case mpr =>
        rintro (rfl | ⟨rfl | hy, hne⟩)
        · exact .inr (.inl rfl)
        · exact .inl rfl
        · exact .inr (.inr ⟨hy, hne⟩)

-- Enters each of the elements `es`.
def upserts (key : α → κ) (es xs : List α) : List α :=
  es.foldl (fun xs x => upsert key x xs) xs

theorem upserts_append {e : α} : upserts key (es ++ [e]) xs = upsert key e (upserts key es xs) :=
  List.foldl_append

theorem foldl_enroll {ks js : List κ} (h : js.Nodup) :
    js.foldl (fun ks j => enroll j ks) ks = ks ++ js.filter (· ∉ ks) := by
  induction js generalizing ks
  case nil => simp
  case cons j js hi =>
    rw [List.nodup_cons] at h
    rw [List.foldl_cons, hi h.right]
    by_cases hj : j ∈ ks
    case pos => rw [enroll_of_mem hj, List.filter_cons_of_neg (by simpa using hj)]
    case neg =>
      rw [enroll_of_not_mem hj, List.filter_cons_of_pos (by simpa using hj), List.append_assoc,
        List.singleton_append]
      congr 2
      refine List.filter_congr fun i hi => ?_
      have hne : i ≠ j := fun he => h.left (he ▸ hi)
      simp [hne]

theorem map_upserts (h : (es.map key).Nodup) :
    (upserts key es xs).map key = xs.map key ++ (es.map key).filter (· ∉ xs.map key) := by
  rw [← foldl_enroll h, upserts]
  clear h
  induction es generalizing xs
  case nil => rfl
  case cons e es hi => rw [List.foldl_cons, hi, List.map_cons, List.foldl_cons, map_upsert]

theorem nodup_upsert (h : (xs.map key).Nodup) : ((upsert key x xs).map key).Nodup := by
  rw [map_upsert]
  exact nodup_enroll h

theorem nodup_upserts (h : (xs.map key).Nodup) : ((upserts key es xs).map key).Nodup := by
  unfold upserts
  induction es generalizing xs
  case nil => exact h
  case cons e es hi => exact hi (nodup_upsert h)

theorem mem_upserts (h : (xs.map key).Nodup) (he : (es.map key).Nodup) :
    y ∈ upserts key es xs ↔ y ∈ es ∨ y ∈ xs ∧ key y ∉ es.map key := by
  unfold upserts
  induction es generalizing xs
  case nil => simp
  case cons e es hi =>
    rw [List.map_cons, List.nodup_cons] at he
    rw [List.foldl_cons, hi (nodup_upsert h) he.right, mem_upsert h, List.mem_cons, List.map_cons,
      List.mem_cons]
    constructor
    case mp =>
      rintro (hy | ⟨rfl | ⟨hy, hne⟩, hn⟩)
      · exact .inl (.inr hy)
      · exact .inl (.inl rfl)
      · exact .inr ⟨hy, fun hm => hm.elim hne hn⟩
    case mpr =>
      rintro ((rfl | hy) | ⟨hy, hn⟩)
      · exact .inr ⟨.inl rfl, he.left⟩
      · exact .inl hy
      · rw [not_or] at hn
        exact .inr ⟨.inr ⟨hy, hn.left⟩, hn.right⟩

-- What has been entered is all there is under these keys.
theorem perm_upserts (h : (xs.map key).Nodup) (he : (es.map key).Nodup) :
    ((upserts key es xs).filter (key · ∈ es.map key)).Perm es := by
  refine (List.perm_ext_iff_of_nodup ?_ he.of_map).mpr fun y => ?_
  · exact (nodup_upserts h).of_map.filter _
  · rw [List.mem_filter, mem_upserts h he, decide_eq_true_iff]
    constructor
    case mp =>
      rintro ⟨hy | hy, hk⟩
      · exact hy
      · exact absurd hk hy.right
    case mpr => exact fun hy => ⟨.inl hy, List.mem_map_of_mem hy⟩

end Upsert

-- Lists that are related element by element.
section Pointwise

variable {β : Type} {R : α → β → Prop} {ys : List β}

omit [DecidableEq κ] in
theorem forall₂_imp_of_mem {R' : α → β → Prop}
    (h : List.Forall₂ R xs ys) (hi : ∀ x ∈ xs, ∀ y, R x y → R' x y) : List.Forall₂ R' xs ys := by
  induction h
  case nil => exact .nil
  case cons x y xs ys hxy _ ih =>
    exact .cons (hi x List.mem_cons_self y hxy) (ih fun z hz => hi z (List.mem_cons_of_mem _ hz))

omit [DecidableEq κ] in
theorem forall₂_left (h : List.Forall₂ R xs ys)
    {x : α} (hx : x ∈ xs) : ∃ y ∈ ys, R x y := by
  induction h
  case nil => nomatch hx
  case cons x' y xs ys hxy _ ih =>
    rcases List.mem_cons.mp hx with rfl | hx
    · exact ⟨y, List.mem_cons_self, hxy⟩
    · have ⟨y', hy, hr⟩ := ih hx
      exact ⟨y', List.mem_cons_of_mem _ hy, hr⟩

omit [DecidableEq κ] in
theorem forall₂_right (h : List.Forall₂ R xs ys)
    {y : β} (hy : y ∈ ys) : ∃ x ∈ xs, R x y :=
  forall₂_left h.flip hy

omit [DecidableEq κ] in
theorem find?_forall₂ {f : α → Bool} {g : β → Bool} (h : List.Forall₂ R xs ys)
    (hfg : ∀ x y, R x y → g y = f x) : Option.Rel R (xs.find? f) (ys.find? g) := by
  induction h
  case nil => exact .none
  case cons x y xs ys hxy _ hi =>
    rw [List.find?_cons, List.find?_cons, hfg x y hxy]
    cases f x
    case true  => exact .some hxy
    case false => exact hi

omit [DecidableEq κ] in
theorem countP_forall₂ {f : α → Bool} {g : β → Bool} (h : List.Forall₂ R xs ys)
    (hfg : ∀ x y, R x y → g y = f x) : ys.countP g = xs.countP f := by
  induction h
  case nil => rfl
  case cons x y xs ys hxy _ hi => rw [List.countP_cons, List.countP_cons, hfg x y hxy, hi]

end Pointwise

end Keyed
