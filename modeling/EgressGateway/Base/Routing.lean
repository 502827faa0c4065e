import Mathlib.Data.List.Basic

-- Tables of routes that are searched for the longest prefix which covers an address.

-- At most one prefix of each length covers an address.
structure Prefixes (A P : Type) where
  covers : P → A → Bool
  length : P → Nat
  unique : ∀ {a p q}, covers p a = true → covers q a = true → length p = length q → p = q

namespace Prefixes

variable {A P R : Type} (D : Prefixes A P) (dst : R → P)

def isBest (rs : List R) (a : A) (r : R) : Bool :=
  D.covers (dst r) a && rs.all fun r' => !D.covers (dst r') a || D.length (dst r') ≤ D.length (dst r)

-- Among all routes that cover the address, the first one that no other one is longer than.
def lookup (rs : List R) (a : A) : Option R :=
  rs.find? (D.isBest dst rs a)

section Lookup

variable {D dst} {rs : List R} {r : R} {a : A}

-- A route that covers the address and is not shorter than any other one.
structure Best (D : Prefixes A P) (dst : R → P) (rs : List R) (a : A) (r : R) : Prop where
  covers : D.covers (dst r) a = true
  longest : ∀ r' ∈ rs, D.covers (dst r') a = true → D.length (dst r') ≤ D.length (dst r)

theorem best_iff : D.isBest dst rs a r = true ↔ Best D dst rs a r := by
  simp only [isBest, Bool.and_eq_true, List.all_eq_true, Bool.or_eq_true, Bool.not_eq_true', decide_eq_true_eq]
  constructor
  case mp =>
    rintro ⟨hc, hl⟩
    exact ⟨hc, fun r' hr' hc' => (hl r' hr').resolve_left fun h => nomatch h.symm.trans hc'⟩
  case mpr =>
    rintro ⟨hc, hl⟩
    refine ⟨hc, fun r' hr' => ?_⟩
    cases hc' : D.covers (dst r') a
    case false => exact .inl rfl
    case true  => exact .inr (hl r' hr' hc')

theorem best_of_lookup (h : D.lookup dst rs a = some r) : r ∈ rs ∧ Best D dst rs a r :=
  ⟨List.mem_of_find?_eq_some h, best_iff.mp (List.find?_some (p := D.isBest dst rs a) h)⟩

-- The longest of finitely many routes exists.
theorem exists_best (h : ∃ r ∈ rs, D.covers (dst r) a = true) : ∃ r ∈ rs, Best D dst rs a r := by
  induction rs
  case nil => simp at h
  case cons x rs hi =>
    by_cases hr : ∃ r ∈ rs, D.covers (dst r) a = true
    case neg =>
      have ⟨r, hm, hc⟩ := h
      have hx : r = x := (List.mem_cons.mp hm).resolve_right fun hm => hr ⟨r, hm, hc⟩
      refine ⟨x, List.mem_cons_self, hx ▸ hc, fun r' hr' hc' => ?_⟩
      have hx' : r' = x := (List.mem_cons.mp hr').resolve_right fun hm => hr ⟨r', hm, hc'⟩
      exact hx' ▸ Nat.le_refl _
    case pos =>
      have ⟨r, hm, hb⟩ := hi hr
      by_cases hx : D.covers (dst x) a = true ∧ D.length (dst r) < D.length (dst x)
      case pos =>
        refine ⟨x, List.mem_cons_self, hx.left, fun r' hr' hc' => ?_⟩
        rcases List.mem_cons.mp hr' with rfl | hr'
        · exact Nat.le_refl _
        · exact Nat.le_of_lt (Nat.lt_of_le_of_lt (hb.longest r' hr' hc') hx.right)
      case neg =>
        refine ⟨r, List.mem_cons_of_mem _ hm, hb.covers, fun r' hr' hc' => ?_⟩
        rcases List.mem_cons.mp hr' with rfl | hr'
        · exact Nat.le_of_not_lt fun hlt => hx ⟨hc', hlt⟩
        · exact hb.longest r' hr' hc'

theorem lookup_isSome (h : ∃ r ∈ rs, D.covers (dst r) a = true) : ∃ r, D.lookup dst rs a = some r := by
  have ⟨r, hr, hb⟩ := exists_best h
  exact Option.isSome_iff_exists.mp (List.find?_isSome.mpr ⟨r, hr, best_iff.mpr hb⟩)

end Lookup

variable [DecidableEq P]

def replace (rs : List R) (r : R) : List R :=
  rs.filter (fun r' => dst r' ≠ dst r) ++ [r]

def replaceAll (rs : List R) (xs : List R) : List R :=
  xs.foldl (replace dst) rs

variable {D dst} {rs xs : List R} {r : R} {a : A}

-- What is left of the old routes, followed by the new ones that have not been replaced in turn.
theorem replaceAll_eq (dst : R → P) (rs xs : List R) : ∃ ys, replaceAll dst rs xs = rs.filter (fun r => dst r ∉ xs.map dst) ++ ys ∧
    (∀ y ∈ ys, y ∈ xs) ∧ ∀ x ∈ xs, dst x ∈ ys.map dst := by
  induction xs generalizing rs
  case nil => exact ⟨[], by simp [replaceAll], by simp, by simp⟩
  case cons x xs hi =>
    have ⟨ys, he, hys, hxs⟩ := hi (replace dst rs x)
    refine ⟨[x].filter (fun r => dst r ∉ xs.map dst) ++ ys, ?_, fun y hy => ?_, fun x' hx' => ?_⟩
    · rw [show replaceAll dst rs (x :: xs) = replaceAll dst (replace dst rs x) xs from rfl, he, replace,
        List.filter_append, List.filter_filter, List.append_assoc]
      congr 1
      refine List.filter_congr fun r _ => ?_
      by_cases hr : dst r = dst x <;> simp [hr]
    · rcases List.mem_append.mp hy with hy | hy
      · have := List.mem_singleton.mp (List.mem_filter.mp hy).left
        exact this ▸ List.mem_cons_self
      · exact List.mem_cons_of_mem _ (hys y hy)
    · rw [List.map_append, List.mem_append]
      by_cases hm : dst x' ∈ xs.map dst
      · have ⟨x'', hx'', hd⟩ := List.mem_map.mp hm
        exact .inr (hd ▸ hxs x'' hx'')
      · have hx := (List.mem_cons.mp hx').resolve_right fun h => hm (List.mem_map_of_mem h)
        subst hx
        refine .inl (List.mem_map.mpr ⟨x', List.mem_filter.mpr ⟨List.mem_singleton_self _, ?_⟩, rfl⟩)
        exact decide_eq_true hm

theorem mem_replaceAll (h : r ∈ replaceAll dst rs xs) : r ∈ xs ∨ r ∈ rs ∧ dst r ∉ xs.map dst := by
  have ⟨ys, he, hys, _⟩ := replaceAll_eq dst rs xs
  rcases List.mem_append.mp (he ▸ h) with h | h
  · exact .inr ⟨(List.mem_filter.mp h).left, of_decide_eq_true (List.mem_filter.mp h).right⟩
  · exact .inl (hys r h)

-- Every destination stays reachable.
theorem exists_replaceAll (dst : R → P) (rs xs : List R) {x : R} (h : x ∈ rs ∨ x ∈ xs) : ∃ y ∈ replaceAll dst rs xs, dst y = dst x := by
  have ⟨ys, he, _, hxs⟩ := replaceAll_eq dst rs xs
  by_cases hm : dst x ∈ xs.map dst
  case pos =>
    have ⟨x', hx', hd'⟩ := List.mem_map.mp hm
    have ⟨y, hy, hd⟩ := List.mem_map.mp (hxs x' hx')
    exact ⟨y, he ▸ List.mem_append_right _ hy, hd.trans hd'⟩
  case neg =>
    have hr := h.resolve_right fun hx => hm (List.mem_map_of_mem hx)
    exact ⟨x, he ▸ List.mem_append_left _ (List.mem_filter.mpr ⟨hr, decide_eq_true hm⟩), rfl⟩

-- A new route is found if no old one is longer.
theorem lookup_replaceAll_new {x : R} (hx : x ∈ xs) (hc : D.covers (dst x) a = true)
    (h : ∀ r ∈ rs, D.covers (dst r) a = true → D.length (dst r) ≤ D.length (dst x)) :
    ∃ y ∈ xs, D.lookup dst (replaceAll dst rs xs) a = some y := by
  have ⟨y, hm, hd⟩ := exists_replaceAll dst rs xs (.inr hx)
  have ⟨r, hr⟩ := lookup_isSome (D := D) ⟨y, hm, hd ▸ hc⟩
  have ⟨hr', hb⟩ := best_of_lookup hr
  rcases mem_replaceAll hr' with hn | ⟨ho, hn⟩
  · exact ⟨r, hn, hr⟩
  · have hle := hb.longest y hm (hd ▸ hc)
    rw [hd] at hle
    have heq := D.unique hb.covers hc (Nat.le_antisymm (h r ho hb.covers) hle)
    exact absurd (heq ▸ List.mem_map_of_mem hx) hn

-- An old route is found as before if it is longer than every new one.
theorem lookup_replaceAll_old (h : ∀ x ∈ xs, D.covers (dst x) a = true →
      ∃ r ∈ rs, D.covers (dst r) a = true ∧ D.length (dst x) < D.length (dst r)) :
    D.lookup dst (replaceAll dst rs xs) a = D.lookup dst rs a := by
  have ⟨ys, he, hys, _⟩ := replaceAll_eq dst rs xs
  have hnew {r : R} (hr : r ∈ rs) (hn : dst r ∉ xs.map dst) : r ∈ replaceAll dst rs xs :=
    he ▸ List.mem_append_left _ (List.mem_filter.mpr ⟨hr, decide_eq_true hn⟩)
  have hkept {r : R} (hb : Best D dst rs a r) : dst r ∉ xs.map dst := by
    intro hm
    have ⟨x, hx, hd⟩ := List.mem_map.mp hm
    have ⟨r', hr', hc', hlt⟩ := h x hx (hd ▸ hb.covers)
    exact Nat.not_le_of_lt hlt (hd ▸ hb.longest r' hr' hc')
  -- every new route that covers the address is shorter than some best old one
  have hbelow {x : R} (hx : x ∈ xs) (hc : D.covers (dst x) a = true) :
      ∃ r ∈ rs, Best D dst rs a r ∧ D.length (dst x) < D.length (dst r) := by
    have ⟨r, hr, hcr, hlt⟩ := h x hx hc
    have ⟨m, hm, hb⟩ := exists_best ⟨r, hr, hcr⟩
    exact ⟨m, hm, hb, Nat.lt_of_lt_of_le hlt (hb.longest r hr hcr)⟩
  have hbest {r : R} (hr : r ∈ rs) :
      dst r ∉ xs.map dst ∧ Best D dst (replaceAll dst rs xs) a r ↔ Best D dst rs a r := by
    constructor
    case mp =>
      rintro ⟨_, hb⟩
      refine ⟨hb.covers, fun r' hr' hc' => ?_⟩
      have ⟨m, hm, hbm⟩ := exists_best ⟨r', hr', hc'⟩
      exact Nat.le_trans (hbm.longest r' hr' hc') (hb.longest m (hnew hm (hkept hbm)) hbm.covers)
    case mpr =>
      intro hb
      refine ⟨hkept hb, hb.covers, fun r' hr' hc' => ?_⟩
      rcases mem_replaceAll hr' with hx | ⟨ho, _⟩
      · have ⟨m, hm, hbm, hlt⟩ := hbelow hx hc'
        exact Nat.le_trans (Nat.le_of_lt hlt) (hb.longest m hm hbm.covers)
      · exact hb.longest r' ho hc'
  have hnone : ys.find? (D.isBest dst (replaceAll dst rs xs) a) = none := by
    refine List.find?_eq_none.mpr fun y hy hb => ?_
    have hb := best_iff.mp hb
    have ⟨m, hm, hbm, hlt⟩ := hbelow (hys y hy) hb.covers
    exact Nat.not_le_of_lt hlt (hb.longest m (hnew hm (hkept hbm)) hbm.covers)
  calc D.lookup dst (replaceAll dst rs xs) a
    _ = (rs.filter (fun r => dst r ∉ xs.map dst)).find? (D.isBest dst (replaceAll dst rs xs) a) := by
      rw [lookup]
      nth_rewrite 2 [he]
      rw [List.find?_append, hnone, Option.or_none]
    _ = D.lookup dst rs a := by
      rw [lookup, ← List.head?_filter, ← List.head?_filter, List.filter_filter]
      refine congrArg List.head? (List.filter_congr fun r hr => Bool.eq_iff_iff.mpr ?_)
      rw [Bool.and_eq_true, best_iff, best_iff, decide_eq_true_iff, and_comm]
      exact hbest hr

end Prefixes
