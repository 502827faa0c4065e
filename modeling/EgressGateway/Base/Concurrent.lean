import EgressGateway.Base.Program
import Mathlib.Logic.Function.Basic
import Mathlib.Logic.Relation

-- Several processes that run programs on one world. Single calls are atomic, and between two calls of one
-- process the others and the environment may do anything that they have agreed on.

-- The invariant of the world, and what the process `i` has to put up with between two of its calls.
structure Pact (ι σ : Type) where
  inv   : σ → Prop
  rely  : ι → σ → σ → Prop
  refl  : ∀ {i s}, rely i s s
  trans : ∀ {i s t u}, rely i s t → rely i t u → rely i s u

namespace Pact

variable {ι σ : Type} (T : Pact ι σ)

-- The steps that the process `i` is free to take.
def Allows (i : ι) (s s' : σ) : Prop :=
  T.inv s' ∧ ∀ j ≠ i, T.rely j s s'

variable {T} in
theorem allows_refl {i : ι} {s : σ} (h : T.inv s) : T.Allows i s s :=
  ⟨h, fun _ _ => T.refl⟩

end Pact

namespace Program

variable {I : Signature} {ι σ α β : Type} (W : World I σ) (T : Pact ι σ) (i : ι)

-- Every step of the process `i` is allowed while it runs `p`, and if `p` returns, then with `Q`.
def Abides : Program I α → σ → (α → σ → Prop) → Prop
  | ret a,    s, Q => Q a s
  | throw _,  _, _ => True
  | call c k, s, Q =>
    ∀ s', T.rely i s s' → T.inv s' → ∀ f,
      T.Allows i s' (W.answer f c s').2 ∧ Abides (k (W.answer f c s').1) (W.answer f c s').2 Q

variable {W T i} {p : Program I α} {s s' : σ} {Q Q' : α → σ → Prop}

theorem abides_ret {a : α} (h : Q a s) : Abides W T i (ret a) s Q := h

theorem abides_throw {e : I.Error} : Abides W T i (throw e) s Q := trivial

theorem Abides.mono (h : Abides W T i p s Q) (hq : ∀ a s, Q a s → Q' a s) : Abides W T i p s Q' := by
  induction p generalizing s
  case ret         => exact hq _ _ h
  case throw       => trivial
  case call c k hi => exact fun s' hr hs f => ⟨(h s' hr hs f).left, hi _ (h s' hr hs f).right⟩

theorem Abides.bind {f : α → Program I β} {R : β → σ → Prop} (h : Abides W T i p s Q)
    (hf : ∀ a s, Q a s → Abides W T i (f a) s R) : Abides W T i (p.bind f) s R := by
  induction p generalizing s
  case ret         => exact hf _ _ h
  case throw       => trivial
  case call c k hi => exact fun s' hr hs f => ⟨(h s' hr hs f).left, hi _ (h s' hr hs f).right⟩

-- The error of `p` may come with any state.
theorem Abides.attempt {R : Except I.Error α → σ → Prop} (h : Abides W T i p s Q)
    (ok : ∀ a s, Q a s → R (.ok a) s) (error : ∀ e s, R (.error e) s) : Abides W T i p.attempt s R := by
  induction p generalizing s
  case ret         => exact ok _ _ h
  case throw       => exact error _ _
  case call c k hi => exact fun s' hr hs f => ⟨(h s' hr hs f).left, hi _ (h s' hr hs f).right⟩

theorem Abides.attempt_ok (h : Abides W T i p s Q) :
    Abides W T i p.attempt s fun r s => ∀ a, r = .ok a → Q a s := by
  refine h.attempt (fun a s hq a' ha => ?_) fun e s a ha => ?_
  · exact Except.ok.inj ha ▸ hq
  · nomatch ha

theorem abides_attempt_perform {c : I.Call} {R : Except I.Error (I.Reply c) → σ → Prop}
    (h : ∀ s', T.rely i s s' → T.inv s' → ∀ f,
      T.Allows i s' (W.answer f c s').2 ∧ R (W.answer f c s').1 (W.answer f c s').2) :
    Abides W T i (perform c).attempt s R := by
  intro s' hr hs f
  refine ⟨(h s' hr hs f).left, ?_⟩
  have hR := (h s' hr hs f).right
  revert hR
  cases (W.answer f c s').1 <;> exact id

theorem abides_perform {c : I.Call} {Q : I.Reply c → σ → Prop}
    (h : ∀ s', T.rely i s s' → T.inv s' → T.Allows i s' (W.exec c s').2 ∧
      ∀ a, (W.exec c s').1 = .ok a → Q a (W.exec c s').2) :
    Abides W T i (perform c) s Q := by
  intro s' hr hs f
  have ⟨ha, hq⟩ := h s' hr hs
  cases f
  case none =>
    refine ⟨ha, ?_⟩
    rw [W.answer_none]
    cases he : (W.exec c s').1
    case ok a  => exact hq a he
    case error => trivial
  case lost    => exact ⟨Pact.allows_refl hs, trivial⟩
  case applied => exact ⟨ha, trivial⟩

theorem abides_ofExcept {r : Except I.Error β} {f : β → Program I α}
    (h : ∀ b, r = .ok b → Abides W T i (f b) s Q) : Abides W T i ((ofExcept r).bind f) s Q := by
  cases r
  case ok b  => exact h b rfl
  case error => trivial

theorem abides_when {b : Bool} {p : Program I Unit} {Q : Unit → σ → Prop}
    (hp : b = true → Abides W T i p s Q) (h : b = false → Q () s) : Abides W T i (when b p) s Q := by
  cases b
  case true  => exact hp rfl
  case false => exact h rfl

-- Calls that are always allowed.
theorem abides_of_uses {ok : I.Call → Prop} (hp : p.Uses ok)
    (step : ∀ c s, ok c → T.inv s → T.Allows i s (W.exec c s).2) : Abides W T i p s fun _ _ => True := by
  induction p generalizing s
  case ret | throw => trivial
  case call c k hi =>
    refine fun s' _ hs f => ⟨?_, hi _ (hp.right _)⟩
    cases f
    case none | applied => exact step c s' hp.left hs
    case lost           => exact Pact.allows_refl hs

-- Something that neither the others nor the calls of `p` change.
theorem Abides.frame {ok : I.Call → Prop} {J : σ → Prop} (h : Abides W T i p s Q) (hp : p.Uses ok)
    (stable : ∀ s s', T.rely i s s' → J s → J s') (step : ∀ c s, ok c → J s → J (W.exec c s).2) (hj : J s) :
    Abides W T i p s fun a s => Q a s ∧ J s := by
  induction p generalizing s
  case ret   => exact ⟨h, hj⟩
  case throw => trivial
  case call c k hi =>
    refine fun s' hr hs f => ⟨(h s' hr hs f).left, hi _ (h s' hr hs f).right (hp.right _) ?_⟩
    cases f
    case none | applied => exact step c s' hp.left (stable s s' hr hj)
    case lost           => exact stable s s' hr hj

-- A process that has not reached its end yet does not notice the steps of others.
theorem Abides.stable {p : Program I α} (h : Abides W T i p s fun _ _ => True) (hr : T.rely i s s') :
    Abides W T i p s' fun _ _ => True := by
  cases p
  case ret | throw => trivial
  case call c k    => exact fun t ht => h t (T.trans hr ht)

section Results

variable {γ : Type} {R R' : α → Prop}

-- Whatever the calls are answered with, `p` only returns what satisfies `R`.
def Results (R : α → Prop) : Program I α → Prop
  | ret a    => R a
  | throw _  => True
  | call _ k => ∀ r, Results R (k r)

theorem results_ret {a : α} (h : R a) : Results R (ret a : Program I α) := h

theorem results_throw {e : I.Error} : Results R (throw e : Program I α) := trivial

theorem results_any : Results (fun _ => True) p := by
  induction p
  case ret | throw => trivial
  case call c k hi => exact fun r => hi r

theorem Results.bind {f : α → Program I β} {R' : β → Prop} (h : Results R p) (hf : ∀ a, R a → Results R' (f a)) :
    Results R' (p.bind f) := by
  induction p
  case ret a       => exact hf a h
  case throw       => trivial
  case call c k hi => exact fun r => hi r (h r)

theorem results_skip {f : α → Program I β} {R' : β → Prop} (hf : ∀ a, Results R' (f a)) : Results R' (p.bind f) :=
  results_any.bind fun a _ => hf a

theorem results_ofExcept {r : Except I.Error β} {f : β → Program I α} (h : ∀ b, r = .ok b → Results R (f b)) :
    Results R ((ofExcept r).bind f) := by
  cases r
  case ok b  => exact h b rfl
  case error => trivial

theorem Abides.results (h : Abides W T i p s Q) (hr : Results R p) : Abides W T i p s fun a s => Q a s ∧ R a := by
  induction p generalizing s
  case ret         => exact ⟨h, hr⟩
  case throw       => trivial
  case call c k hi => exact fun s' hs hi' f => ⟨(h s' hs hi' f).left, hi _ (h s' hs hi' f).right (hr _)⟩

theorem Results.mono (h : Results R p) (hr : ∀ a, R a → R' a) : Results R' p := by
  induction p
  case ret a       => exact hr a h
  case throw       => trivial
  case call c k hi => exact fun r => hi r (h r)

theorem Abides.and {Q' : α → σ → Prop} (h : Abides W T i p s Q) (h' : Abides W T i p s Q') :
    Abides W T i p s fun a s => Q a s ∧ Q' a s := by
  induction p generalizing s
  case ret         => exact ⟨h, h'⟩
  case throw       => trivial
  case call c k hi =>
    exact fun s' hs hi' f => ⟨(h s' hs hi' f).left, hi _ (h s' hs hi' f).right (h' s' hs hi' f).right⟩

theorem Abides.mapError {g : I.Error → I.Error} (h : Abides W T i p s Q) : Abides W T i (p.mapError g) s Q := by
  induction p generalizing s
  case ret         => exact h
  case throw       => trivial
  case call c k hi => exact fun s' hs hi' f => ⟨(h s' hs hi' f).left, hi _ (h s' hs hi' f).right⟩

theorem abides_forFold {xs : List β} {acc : γ} {f : γ → β → Program I γ} {J : γ → σ → Prop} (h : J acc s)
    (step : ∀ acc, ∀ x ∈ xs, ∀ s, J acc s → Abides W T i (f acc x) s J) : Abides W T i (forFold xs acc f) s J := by
  induction xs generalizing acc s
  case nil => exact h
  case cons x xs hi =>
    refine (step acc x List.mem_cons_self s h).bind fun acc' s' h' => ?_
    exact hi h' fun acc y hy => step acc y (List.mem_cons_of_mem _ hy)

end Results

end Program

-- What each process may be asked to do while it is idle, and what the environment may do at any time.
structure Processes (I : Signature) (ι σ : Type) where
  world   : World I σ
  jobs    : ι → Program I Unit → Prop
  outside : σ → σ → Prop

namespace Processes

open Program

variable {I : Signature} {ι σ : Type} [DecidableEq ι]

structure Config (I : Signature) (ι σ : Type) where
  state   : σ
  running : ι → Option (Program I Unit) := fun _ => none

-- A process stops at its end, or at any other point if it crashes.
inductive Step (Y : Processes I ι σ) : Config I ι σ → Config I ι σ → Prop
  | start {s r i p} (idle : r i = none) (job : Y.jobs i p) :
    Step Y ⟨s, r⟩ ⟨s, Function.update r i (some p)⟩
  | call {s r i c k} (f : Fault) (h : r i = some (.call c k)) :
    Step Y ⟨s, r⟩ ⟨(Y.world.answer f c s).2, Function.update r i (some (k (Y.world.answer f c s).1))⟩
  | stop {s r} (i : ι) : Step Y ⟨s, r⟩ ⟨s, Function.update r i none⟩
  | outside {s s' r} (h : Y.outside s s') : Step Y ⟨s, r⟩ ⟨s', r⟩

abbrev Reaches (Y : Processes I ι σ) : Config I ι σ → Config I ι σ → Prop :=
  Relation.ReflTransGen Y.Step

variable {Y : Processes I ι σ} {T : Pact ι σ} {c c' : Config I ι σ}

-- All processes keep to the pact as long as they run.
structure Kept (Y : Processes I ι σ) (T : Pact ι σ) (c : Config I ι σ) : Prop where
  inv     : T.inv c.state
  running : ∀ i p, c.running i = some p → Abides Y.world T i p c.state fun _ _ => True

omit [DecidableEq ι] in
theorem Kept.init {s : σ} (h : T.inv s) : Kept Y T ⟨s, fun _ => none⟩ where
  inv     := h
  running := nofun

-- One process takes a step and continues with `q`.
theorem Kept.update {s s' : σ} {r : ι → Option (Program I Unit)} {i : ι} {q : Option (Program I Unit)}
    (h : Kept Y T ⟨s, r⟩) (ha : T.Allows i s s')
    (hq : ∀ p, q = some p → Abides Y.world T i p s' fun _ _ => True) :
    Kept Y T ⟨s', Function.update r i q⟩ := by
  refine ⟨ha.left, fun j p (hj : Function.update r i q j = some p) => ?_⟩
  by_cases hji : j = i
  · subst hji
    rw [Function.update_self] at hj
    exact hq p hj
  · rw [Function.update_of_ne hji] at hj
    exact (h.running j p hj).stable (ha.right j hji)

theorem Kept.step (jobs : ∀ i p s, Y.jobs i p → T.inv s → Abides Y.world T i p s fun _ _ => True)
    (outside : ∀ s s', Y.outside s s' → T.inv s → T.inv s' ∧ ∀ i, T.rely i s s')
    (h : Kept Y T c) (hs : Y.Step c c') : Kept Y T c' := by
  cases hs
  case start s r i p idle job =>
    exact h.update (Pact.allows_refl h.inv) fun q hq => Option.some.inj hq ▸ jobs i p s job h.inv
  case call s r i c k f hi =>
    have ⟨ha, hk⟩ := h.running i _ hi s T.refl h.inv f
    exact h.update ha fun q hq => Option.some.inj hq ▸ hk
  case stop s r i => exact h.update (Pact.allows_refl h.inv) nofun
  case outside s s' r ho =>
    have ⟨hi, hr⟩ := outside s s' ho h.inv
    exact ⟨hi, fun j q hj => (h.running j q hj).stable (hr j)⟩

theorem Kept.reaches (jobs : ∀ i p s, Y.jobs i p → T.inv s → Abides Y.world T i p s fun _ _ => True)
    (outside : ∀ s s', Y.outside s s' → T.inv s → T.inv s' ∧ ∀ i, T.rely i s s')
    (h : Kept Y T c) (hr : Y.Reaches c c') : Kept Y T c' := by
  induction hr
  case refl         => exact h
  case tail _ hs hi => exact hi.step jobs outside hs

-- One process may run to its end while all others are idle.
theorem reaches_run {s : σ} {i : ι} {p : Program I Unit} (φ : Oracle I) (n : Nat) (job : Y.jobs i p) :
    Y.Reaches ⟨s, fun _ => none⟩ ⟨(run Y.world φ n p s).state, fun _ => none⟩ := by
  have hend : ∀ {t : σ} {r : ι → Option (Program I Unit)}, (∀ j ≠ i, r j = none) →
      Y.Step ⟨t, r⟩ ⟨t, fun _ => none⟩ := fun {t r} hr => by
    have he : (fun _ => none) = Function.update r i none := by
      funext j
      by_cases hj : j = i
      · rw [hj, Function.update_self]
      · rw [Function.update_of_ne hj, hr j hj]
    exact he ▸ .stop i
  have hrun : ∀ {q : Program I Unit} {r : ι → Option (Program I Unit)} {t : σ} (n : Nat), r i = some q →
      (∀ j ≠ i, r j = none) → Y.Reaches ⟨t, r⟩ ⟨(run Y.world φ n q t).state, fun _ => none⟩ := by
    intro q
    induction q
    case ret | throw => exact fun n _ hr => .single (hend hr)
    case call c k hi =>
      intro r t n hq hr
      refine .head (.call (φ n c) hq) ?_
      refine hi _ (n + 1) (Function.update_self ..) fun j hj => ?_
      rw [Function.update_of_ne hj, hr j hj]
  refine .head (.start rfl job) (hrun n (Function.update_self ..) fun j hj => ?_)
  rw [Function.update_of_ne hj]

end Processes

namespace Program

variable {I : Signature} {σ α : Type}

-- The program `p` may end with `r` if the world is in one of the states `J` whenever it issues a call.
inductive Ends (W : World I σ) (J : σ → Prop) : Program I α → Except I.Error α → Prop
  | ret (a : α) : Ends W J (ret a) (.ok a)
  | throw (e : I.Error) : Ends W J (throw e) (.error e)
  | call {c k r s} (f : Fault) (hj : J s) (h : Ends W J (k (W.answer f c s).1) r) : Ends W J (call c k) r

variable {β : Type} {W : World I σ} {J : σ → Prop} {p : Program I α}

theorem Ends.bind_ok {f : α → Program I β} {b : β} (h : Ends W J (p.bind f) (.ok b)) :
    ∃ a, Ends W J p (.ok a) ∧ Ends W J (f a) (.ok b) := by
  induction p
  case ret a   => exact ⟨a, .ret a, h⟩
  case throw e => nomatch h
  case call c k hi =>
    cases h
    case call s fault hj h =>
      have ⟨a, ha, hf⟩ := hi _ h
      exact ⟨a, .call fault hj ha, hf⟩

theorem Ends.mapError_ok {f : I.Error → I.Error} {a : α} (h : Ends W J (p.mapError f) (.ok a)) :
    Ends W J p (.ok a) := by
  induction p
  case ret     => exact h
  case throw e => nomatch h
  case call c k hi =>
    cases h
    case call s fault hj h => exact .call fault hj (hi _ h)

theorem Ends.perform_ok {c : I.Call} {a : I.Reply c} (h : Ends W J (perform c) (.ok a)) :
    ∃ s, J s ∧ (W.exec c s).1 = .ok a := by
  cases h
  case call s f hj h =>
    refine ⟨s, hj, ?_⟩
    cases f
    case none =>
      revert h
      rw [W.answer_none]
      cases (W.exec c s).1
      case ok b    => exact fun h => by cases h; rfl
      case error e => exact fun h => nomatch h
    case lost | applied => nomatch h

-- Nothing interferes with a run.
theorem ends_run {s : σ} (φ : Oracle I) (n : Nat) (h : J s) (step : ∀ c s, J s → J (W.exec c s).2) :
    Ends W J p (run W φ n p s).result := by
  induction p generalizing n s
  case ret | throw => constructor
  case call c k hi =>
    refine .call (φ n c) h (hi _ (n + 1) ?_)
    cases φ n c
    case none | applied => exact step c s h
    case lost           => exact h

end Program
