import Mathlib.Data.List.Basic

-- Programs that interact with the outside world only by issuing calls: to a cloud, an API server or
-- a kernel. Every call is answered by a reply or an error, and the remainder of the program depends
-- on that answer.

structure Signature where
  Call  : Type
  Reply : Call → Type
  Error : Type

inductive Program (I : Signature) (α : Type)
  | ret   (a : α)
  | throw (e : I.Error)
  | call  (c : I.Call) (k : Except I.Error (I.Reply c) → Program I α)

namespace Program

variable {I : Signature} {α β γ : Type}

def bind : Program I α → (α → Program I β) → Program I β
  | ret a,    f => f a
  | throw e,  _ => throw e
  | call c k, f => call c fun r => (k r).bind f

instance : Monad (Program I) where
  pure := ret
  bind := bind

-- Issues a call and propagates its error.
def perform (c : I.Call) : Program I (I.Reply c) :=
  call c fun
    | .ok r    => ret r
    | .error e => throw e

-- Runs `p` and hands its error to the caller instead of propagating it.
def attempt : Program I α → Program I (Except I.Error α)
  | ret a    => ret (.ok a)
  | throw e  => ret (.error e)
  | call c k => call c fun r => (k r).attempt

-- Turns the errors of `p` into other ones.
def mapError (f : I.Error → I.Error) : Program I α → Program I α
  | ret a    => ret a
  | throw e  => throw (f e)
  | call c k => call c fun r => (k r).mapError f

def ofExcept : Except I.Error α → Program I α
  | .ok a    => ret a
  | .error e => throw e

-- An `if` without an `else`.
def when (b : Bool) (p : Program I Unit) : Program I Unit :=
  if b then p else ret ()

-- A `for` loop over `xs`, the body of which returns early by throwing.
def forEach : List β → (β → Program I Unit) → Program I Unit
  | [],      _ => ret ()
  | x :: xs, f => (f x).bind fun _ => forEach xs f

-- A `for` loop that carries a local variable.
def forFold : List β → γ → (γ → β → Program I γ) → Program I γ
  | [],      acc, _ => ret acc
  | x :: xs, acc, f => (f acc x).bind fun acc => forFold xs acc f

-- The same program over and over again.
def times (p : Program I α) : Nat → Program I (List α)
  | 0     => ret []
  | n + 1 => p.bind fun a => (times p n).bind fun as => ret (a :: as)

@[simp]
theorem pure_eq (a : α) : (pure a : Program I α) = ret a := rfl

@[simp]
theorem bind_eq (p : Program I α) (f : α → Program I β) : p >>= f = p.bind f := rfl

@[simp]
theorem ret_bind (a : α) (f : α → Program I β) : (ret a).bind f = f a := rfl

@[simp]
theorem throw_bind (e : I.Error) (f : α → Program I β) : (throw e).bind f = throw e := rfl

theorem bind_assoc (p : Program I α) (f : α → Program I β) (g : β → Program I γ) :
    (p.bind f).bind g = p.bind fun a => (f a).bind g := by
  induction p
  case ret | throw => rfl
  case call c k hi => simp [bind, hi]

theorem bind_ret (p : Program I α) : p.bind ret = p := by
  induction p
  case ret | throw => rfl
  case call c k hi => simp [bind, hi]

end Program

-- What may happen to a single call: it is served, it fails without any effect, or it takes effect
-- and only its answer is lost.
inductive Fault
  | none
  | lost
  | applied
  deriving DecidableEq

-- The outside world: how an undisturbed call is served, and the error of a disturbed one.
structure World (I : Signature) (σ : Type) where
  exec   : (c : I.Call) → σ → Except I.Error (I.Reply c) × σ
  outage : I.Error

namespace World

variable {I : Signature} {σ : Type} (W : World I σ)

def answer : Fault → (c : I.Call) → σ → Except I.Error (I.Reply c) × σ
  | .none,    c, s => W.exec c s
  | .lost,    _, s => (.error W.outage, s)
  | .applied, c, s => (.error W.outage, (W.exec c s).2)

@[simp]
theorem answer_none (c : I.Call) (s : σ) : W.answer .none c s = W.exec c s := rfl

@[simp]
theorem answer_lost (c : I.Call) (s : σ) : W.answer .lost c s = (.error W.outage, s) := rfl

@[simp]
theorem answer_applied (c : I.Call) (s : σ) :
    W.answer .applied c s = (.error W.outage, (W.exec c s).2) := rfl

end World

-- The answer to a call may have got lost.
def Disturbed (A : Fault → Prop) : Prop :=
  ∃ f ≠ Fault.none, A f

theorem not_disturbed_calm : ¬Disturbed (· = Fault.none) :=
  fun ⟨_, hn, hf⟩ => hn hf

-- One entry of the log of a run: the call, the state in which it was issued and what happened to it.
structure Issued (I : Signature) (σ : Type) where
  call   : I.Call
  before : σ
  fault  : Fault

structure Outcome (I : Signature) (σ α : Type) where
  result : Except I.Error α
  state  : σ
  log    : List (Issued I σ)

-- An oracle decides the fate of each call, given how many calls were issued before it.
abbrev Oracle (I : Signature) := Nat → I.Call → Fault

namespace Oracle

def calm {I : Signature} : Oracle I := fun _ _ => .none

end Oracle

namespace Program

variable {I : Signature} {σ α β γ : Type} (W : World I σ)

def run (φ : Oracle I) : Nat → Program I α → σ → Outcome I σ α
  | _, ret a,    s => ⟨.ok a, s, []⟩
  | _, throw e,  s => ⟨.error e, s, []⟩
  | n, call c k, s =>
    let o := run φ (n + 1) (k (W.answer (φ n c) c s).1) (W.answer (φ n c) c s).2
    { o with log := ⟨c, s, φ n c⟩ :: o.log }

-- The second part of a run begins where the first one ends.
def Outcome.andThen (φ : Oracle I) (n : Nat) (o : Outcome I σ α) (f : α → Program I β) : Outcome I σ β :=
  match o.result with
  | .error e => { o with result := .error e }
  | .ok a    =>
    let o' := run W φ (n + o.log.length) (f a) o.state
    { o' with log := o.log ++ o'.log }

variable {W} in
theorem Outcome.andThen_ok {φ : Oracle I} {n : Nat} {o : Outcome I σ α} {f : α → Program I β} {a : α}
    (h : o.result = .ok a) : Outcome.andThen W φ n o f =
      { run W φ (n + o.log.length) (f a) o.state with
        log := o.log ++ (run W φ (n + o.log.length) (f a) o.state).log } := by
  simp only [Outcome.andThen, h]

variable {W} in
theorem Outcome.andThen_error {φ : Oracle I} {n : Nat} {o : Outcome I σ α} {f : α → Program I β}
    {e : I.Error} (h : o.result = .error e) :
    Outcome.andThen W φ n o f = { o with result := .error e } := by
  simp only [Outcome.andThen, h]

theorem run_bind (φ : Oracle I) (n : Nat) (p : Program I α) (f : α → Program I β) (s : σ) :
    run W φ n (p.bind f) s = Outcome.andThen W φ n (run W φ n p s) f := by
  induction p generalizing n s
  case ret | throw => rfl
  case call c k hi =>
    simp only [bind, run, hi, Outcome.andThen, List.length_cons]
    split
    · rfl
    · simp only [Nat.add_assoc, Nat.add_comm 1, List.cons_append]

theorem run_attempt (φ : Oracle I) (n : Nat) (p : Program I α) (s : σ) :
    run W φ n p.attempt s = { run W φ n p s with result := .ok (run W φ n p s).result } := by
  induction p generalizing n s
  case ret | throw => rfl
  case call c k hi => simp only [attempt, run, hi]

-- The rules of the game between a program and its environment: the faults that the environment may
-- inject, and what the program owes whenever it issues a call.
structure Contract (I : Signature) (σ : Type) where
  allow : I.Call → σ → Fault → Prop
  owe   : I.Call → σ → Prop

-- No obligations, and any of the faults `A` at any call.
abbrev Contract.faults (A : Fault → Prop) : Contract I σ where
  allow _ _ f := A f
  owe _ _     := True

-- The fate of every call is known in advance.
abbrev Contract.fixed (fate : I.Call → Fault) : Contract I σ where
  allow c _ f := f = fate c
  owe _ _     := True

-- The weakest precondition of `p`: whatever the environment does within the contract, `p` meets its
-- obligations and ends in `Q`.
def wp (C : Contract I σ) : Program I α → (Except I.Error α → σ → Prop) → σ → Prop
  | ret a,    Q, s => Q (.ok a) s
  | throw e,  Q, s => Q (.error e) s
  | call c k, Q, s =>
    C.owe c s ∧ ∀ f, C.allow c s f → wp C (k (W.answer f c s).1) Q (W.answer f c s).2

variable {W} {C : Contract I σ} {Q Q' : Except I.Error α → σ → Prop} {s : σ}

@[simp]
theorem wp_ret {a : α} : wp W C (ret a) Q s ↔ Q (.ok a) s := Iff.rfl

@[simp]
theorem wp_throw {e : I.Error} : wp W C (throw e) Q s ↔ Q (.error e) s := Iff.rfl

theorem wp_call {c : I.Call} {k : Except I.Error (I.Reply c) → Program I α} :
    wp W C (call c k) Q s ↔
    C.owe c s ∧ ∀ f, C.allow c s f → wp W C (k (W.answer f c s).1) Q (W.answer f c s).2 := Iff.rfl

theorem wp_mono {p : Program I α} (h : wp W C p Q s) (hq : ∀ r s, Q r s → Q' r s) :
    wp W C p Q' s := by
  induction p generalizing s
  case ret | throw => exact hq _ _ h
  case call c k hi => exact ⟨h.left, fun f hf => hi _ (h.right f hf)⟩

-- The continuation of a computation under a postcondition: errors skip it.
def andThen (C : Contract I σ) (f : α → Program I β) (Q : Except I.Error β → σ → Prop) :
    Except I.Error α → σ → Prop
  | .ok a,    s => wp W C (f a) Q s
  | .error e, s => Q (.error e) s

theorem wp_bind {p : Program I α} {f : α → Program I β} {Q : Except I.Error β → σ → Prop} :
    wp W C (p.bind f) Q s ↔ wp W C p (andThen (W := W) C f Q) s := by
  induction p generalizing s
  case ret | throw => rfl
  case call c k hi => simp [bind, wp, hi]

theorem wp_attempt {p : Program I α} {Q : Except I.Error (Except I.Error α) → σ → Prop} :
    wp W C p.attempt Q s ↔ wp W C p (fun r s => Q (.ok r) s) s := by
  induction p generalizing s
  case ret | throw => rfl
  case call c k hi => simp [attempt, wp, hi]

theorem wp_mapError {p : Program I α} {f : I.Error → I.Error} :
    wp W C (p.mapError f) Q s ↔ wp W C p (fun r s => Q (r.mapError f) s) s := by
  induction p generalizing s
  case ret | throw => rfl
  case call c k hi => simp [mapError, wp, hi]

@[simp]
theorem wp_ofExcept {r : Except I.Error α} : wp W C (ofExcept r) Q s ↔ Q r s := by
  cases r <;> rfl

theorem wp_perform {c : I.Call} {Q : Except I.Error (I.Reply c) → σ → Prop} :
    wp W C (perform c) Q s ↔
    C.owe c s ∧ ∀ f, C.allow c s f → Q (W.answer f c s).1 (W.answer f c s).2 := by
  simp only [perform, wp_call]
  refine and_congr_right fun _ => forall_congr' fun f => imp_congr_right fun _ => ?_
  cases (W.answer f c s).1 <;> rfl

-- Sequential composition: the first part establishes `P`, from which the second one continues.
theorem wp_seq {p : Program I α} {f : α → Program I β} {P : Except I.Error α → σ → Prop}
    {Q : Except I.Error β → σ → Prop} (h : wp W C p P s)
    (ok : ∀ a s, P (.ok a) s → wp W C (f a) Q s)
    (error : ∀ e s, P (.error e) s → Q (.error e) s) : wp W C (p.bind f) Q s := by
  refine wp_bind.mpr <| wp_mono h fun r s hs => ?_
  cases r
  case ok a    => exact ok a s hs
  case error e => exact error e s hs

variable {A : Fault → Prop}

theorem wp_perform_faults {c : I.Call} {Q : Except I.Error (I.Reply c) → σ → Prop}
    (served : Q (W.exec c s).1 (W.exec c s).2)
    (lost : Disturbed A → Q (.error W.outage) s)
    (applied : Disturbed A → Q (.error W.outage) (W.exec c s).2) :
    wp W (.faults A) (perform c) Q s := by
  refine wp_perform.mpr ⟨trivial, fun f hf => ?_⟩
  cases f
  case none    => exact served
  case lost    => exact lost ⟨_, by decide, hf⟩
  case applied => exact applied ⟨_, by decide, hf⟩

-- A call that only reads leaves the state as it was, whether or not its answer arrives.
theorem wp_read {c : I.Call} {Q : Except I.Error (I.Reply c) → σ → Prop}
    (read : (W.exec c s).2 = s) (served : Q (W.exec c s).1 s)
    (lost : Disturbed A → Q (.error W.outage) s) : wp W (.faults A) (perform c) Q s :=
  wp_perform_faults (read.symm ▸ served) lost (read.symm ▸ lost)

-- A loop maintains its invariant if each iteration does, whether it completes or breaks off.
theorem wp_forEach {xs : List β} {f : β → Program I Unit} {Inv : σ → Prop} (h : Inv s)
    (step : ∀ x ∈ xs, ∀ s, Inv s → wp W C (f x) (fun _ s => Inv s) s) :
    wp W C (forEach xs f) (fun _ s => Inv s) s := by
  induction xs generalizing s
  case nil => exact h
  case cons x xs hi =>
    refine wp_bind.mpr <| wp_mono (step x List.mem_cons_self s h) fun r s hs => ?_
    cases r
    case error => exact hs
    case ok    => exact hi hs fun y hy => step y (List.mem_cons_of_mem _ hy)

-- The same for an invariant that depends on the iterations so far, as long as none of them fails.
theorem wp_forEach_done {xs : List β} {f : β → Program I Unit} {J : List β → σ → Prop}
    {E : I.Error → σ → Prop} (done : List β) (h : J done s)
    (step : ∀ done, ∀ x ∈ xs, ∀ s, J done s →
      wp W C (f x) (fun r s => (r = .ok () → J (done ++ [x]) s) ∧ ∀ e, r = .error e → E e s) s) :
    wp W C (forEach xs f) (fun r s => (r = .ok () → J (done ++ xs) s) ∧ ∀ e, r = .error e → E e s) s := by
  induction xs generalizing done s
  case nil => exact ⟨fun _ => by simpa using h, nofun⟩
  case cons x xs hi =>
    refine wp_seq (step done x List.mem_cons_self s h) (fun _ s hs => ?_) fun e s hs => ⟨nofun, ?_⟩
    case refine_1 =>
      have h' := hi (done ++ [x]) (hs.left rfl) fun done y hy => step done y (List.mem_cons_of_mem _ hy)
      rwa [List.append_assoc] at h'
    case refine_2 =>
      intro e' he
      exact hs.right e' he

-- A program that leaves the state as it is does the same every time.
theorem wp_times {p : Program I α} {a : α} {E : Prop}
    (h : wp W C p (fun r s' => s' = s ∧ (r = .ok a ∨ (∃ e, r = .error e) ∧ E)) s) (n : Nat) :
    wp W C (p.times n) (fun r s' => s' = s ∧ (r = .ok (List.replicate n a) ∨ (∃ e, r = .error e) ∧ E)) s := by
  induction n
  case zero => exact ⟨rfl, .inl rfl⟩
  case succ n hi =>
    apply wp_seq h
    case error => exact fun e s' ⟨hs, he⟩ => ⟨hs, .inr ⟨⟨e, rfl⟩, (he.resolve_left nofun).right⟩⟩
    rintro b s' ⟨rfl, hb⟩
    obtain rfl : b = a := hb.elim Except.ok.inj fun ⟨⟨_, he⟩, _⟩ => absurd he nofun
    apply wp_seq hi
    case error => exact fun e s' ⟨hs, he⟩ => ⟨hs, .inr ⟨⟨e, rfl⟩, (he.resolve_left nofun).right⟩⟩
    rintro bs s' ⟨rfl, hbs⟩
    obtain rfl : bs = List.replicate n b := hbs.elim Except.ok.inj fun ⟨⟨_, he⟩, _⟩ => absurd he nofun
    exact ⟨rfl, .inl rfl⟩

-- A program that meets its contract does so in every run whose faults the contract allows.
theorem run_of_wp {p : Program I α} (h : wp W C p Q s) (φ : Oracle I) (n : Nat)
    (ha : ∀ e ∈ (run W φ n p s).log, C.allow e.call e.before e.fault) :
    Q (run W φ n p s).result (run W φ n p s).state ∧
    ∀ e ∈ (run W φ n p s).log, C.owe e.call e.before := by
  induction p generalizing s n
  case ret | throw => exact ⟨h, by simp [run]⟩
  case call c k hi =>
    simp only [run, List.mem_cons, forall_eq_or_imp] at ha ⊢
    have ⟨hq, ho⟩ := hi _ (h.right _ ha.left) (n + 1) ha.right
    exact ⟨hq, h.left, ho⟩

-- The log records the fates that were known in advance.
theorem fault_fixed (fate : I.Call → Fault) (p : Program I α) (n : Nat) (s : σ) :
    ∀ e ∈ (run W (fun _ => fate) n p s).log, e.fault = fate e.call := by
  induction p generalizing n s
  case ret | throw => exact nofun
  case call c k hi =>
    rintro e he
    rcases List.mem_cons.mp he with rfl | he
    · rfl
    · exact hi _ _ _ e he

theorem fault_calm (p : Program I α) (n : Nat) (s : σ) : ∀ e ∈ (run W .calm n p s).log, e.fault = .none :=
  fault_fixed (fun _ => .none) p n s

-- The same for runs with any faults whatsoever.
theorem outcome_of_wp {p : Program I α} {φ : Oracle I} {n : Nat} {o : Outcome I σ α}
    (h : wp W (.faults fun _ => True) p Q s) (ho : run W φ n p s = o) : Q o.result o.state :=
  ho ▸ (run_of_wp h φ n fun _ _ => trivial).left

section Fixed

variable {fate : I.Call → Fault}

theorem wp_perform_fixed {c : I.Call} {Q : Except I.Error (I.Reply c) → σ → Prop} :
    wp W (.fixed fate) (perform c) Q s ↔ Q (W.answer (fate c) c s).1 (W.answer (fate c) c s).2 := by
  simp [wp_perform]

-- With known fates there is only one run.
theorem wp_fixed_iff {p : Program I α} (n : Nat) :
    wp W (.fixed fate) p Q s ↔
    Q (run W (fun _ => fate) n p s).result (run W (fun _ => fate) n p s).state := by
  induction p generalizing s n
  case ret | throw => rfl
  case call c k hi =>
    rw [wp_call, run]
    simp only [true_and, forall_eq]
    exact hi _ (n + 1)

end Fixed

-- Without any faults, `p` returns `a` and leaves `s'` behind.
def Yields (W : World I σ) (p : Program I α) (s : σ) (a : α) (s' : σ) : Prop :=
  wp W (.fixed fun _ => .none) p (fun r t => r = .ok a ∧ t = s') s

section Yields

variable {p : Program I α} {s' s'' : σ} {a : α}

theorem yields_ret : Yields W (ret a) s a s := ⟨rfl, rfl⟩

theorem yields_perform {c : I.Call} {r : I.Reply c} (h : W.exec c s = (.ok r, s')) :
    Yields W (perform c) s r s' := by
  refine wp_perform_fixed.mpr ?_
  rw [World.answer_none, h]
  exact ⟨rfl, rfl⟩

theorem Yields.bind {f : α → Program I β} {b : β} (h : Yields W p s a s') (hf : Yields W (f a) s' b s'') :
    Yields W (p.bind f) s b s'' := by
  refine wp_seq h ?_ (fun _ _ he => nomatch he.left)
  rintro _ _ ⟨ha, rfl⟩
  exact Except.ok.inj ha ▸ hf

theorem Yields.attempt (h : Yields W p s a s') : Yields W p.attempt s (.ok a) s' :=
  wp_attempt.mpr (wp_mono h fun _ _ ⟨hr, hs⟩ => ⟨congrArg _ hr, hs⟩)

theorem Yields.mapError {f : I.Error → I.Error} (h : Yields W p s a s') : Yields W (p.mapError f) s a s' :=
  wp_mapError.mpr (wp_mono h fun _ _ ⟨hr, hs⟩ => ⟨by rw [hr]; rfl, hs⟩)

theorem yields_iff_run (n : Nat) :
    Yields W p s a s' ↔ (run W .calm n p s).result = .ok a ∧ (run W .calm n p s).state = s' :=
  wp_fixed_iff n

-- The invariant of a loop determines the state.
theorem yields_forEach {f : β → Program I Unit} {J : List β → σ → Prop} (xs done : List β) (h : J done s)
    (step : ∀ done, ∀ x ∈ xs, ∀ s, J done s → ∃ s', Yields W (f x) s () s' ∧ J (done ++ [x]) s') :
    ∃ s', Yields W (forEach xs f) s () s' ∧ J (done ++ xs) s' := by
  induction xs generalizing done s
  case nil => exact ⟨s, yields_ret, by simpa using h⟩
  case cons x xs hi =>
    have ⟨s₁, hx, h₁⟩ := step done x List.mem_cons_self s h
    have ⟨s₂, hxs, h₂⟩ := hi (done ++ [x]) h₁ fun done y hy => step done y (List.mem_cons_of_mem _ hy)
    exact ⟨s₂, hx.bind hxs, by simpa using h₂⟩

end Yields

theorem wp_and {p : Program I α} (h : wp W C p Q s) (h' : wp W C p Q' s) :
    wp W C p (fun r s => Q r s ∧ Q' r s) s := by
  induction p generalizing s
  case ret | throw => exact ⟨h, h'⟩
  case call c k hi => exact ⟨h.left, fun f hf => hi _ (h.right f hf) (h'.right f hf)⟩

-- The frame rule: a program that only issues calls of one kind does not do what no call of that kind
-- does.

def Uses (ok : I.Call → Prop) : Program I α → Prop
  | ret _    => True
  | throw _  => True
  | call c k => ok c ∧ ∀ r, (k r).Uses ok

section Uses

variable {ok : I.Call → Prop} {p : Program I α}

theorem uses_ret (a : α) : (ret a : Program I α).Uses ok := trivial

theorem uses_throw (e : I.Error) : (throw e : Program I α).Uses ok := trivial

theorem uses_bind {f : α → Program I β} (hp : p.Uses ok) (hf : ∀ a, (f a).Uses ok) :
    (p.bind f).Uses ok := by
  induction p
  case ret a     => exact hf a
  case throw     => trivial
  case call c k hi => exact ⟨hp.left, fun r => hi r (hp.right r)⟩

theorem uses_attempt (hp : p.Uses ok) : p.attempt.Uses ok := by
  induction p
  case ret | throw => trivial
  case call c k hi => exact ⟨hp.left, fun r => hi r (hp.right r)⟩

theorem uses_mapError {f : I.Error → I.Error} (hp : p.Uses ok) : (p.mapError f).Uses ok := by
  induction p
  case ret | throw => trivial
  case call c k hi => exact ⟨hp.left, fun r => hi r (hp.right r)⟩

theorem uses_when {b : Bool} {p : Program I Unit} (hp : p.Uses ok) : (when b p).Uses ok := by
  cases b
  case true  => exact hp
  case false => trivial

theorem uses_perform {c : I.Call} (h : ok c) : (perform c).Uses ok := by
  refine ⟨h, fun r => ?_⟩
  cases r <;> trivial

theorem uses_ofExcept {r : Except I.Error α} {f : α → Program I β}
    (h : ∀ a, r = .ok a → (f a).Uses ok) : ((ofExcept r).bind f).Uses ok := by
  cases r
  case ok a  => exact h a rfl
  case error => trivial

theorem uses_forEach {xs : List β} {f : β → Program I Unit} (h : ∀ x ∈ xs, (f x).Uses ok) :
    (forEach xs f).Uses ok := by
  induction xs
  case nil => trivial
  case cons x xs hi =>
    exact uses_bind (h x List.mem_cons_self) fun _ => hi fun y hy => h y (List.mem_cons_of_mem _ hy)

theorem uses_forFold {xs : List β} {acc : γ} {f : γ → β → Program I γ}
    (h : ∀ acc, ∀ x ∈ xs, (f acc x).Uses ok) : (forFold xs acc f).Uses ok := by
  induction xs generalizing acc
  case nil => trivial
  case cons x xs hi =>
    refine uses_bind (h acc x List.mem_cons_self) fun acc => hi ?_
    exact fun acc y hy => h acc y (List.mem_cons_of_mem _ hy)

theorem Uses.mono {ok' : I.Call → Prop} (hp : p.Uses ok) (h : ∀ c, ok c → ok' c) : p.Uses ok' := by
  induction p
  case ret | throw => trivial
  case call c k hi => exact ⟨h c hp.left, fun r => hi r (hp.right r)⟩

-- `R` relates the states before and after calls of that kind.
theorem wp_of_uses {R : σ → σ → Prop} (refl : ∀ s, R s s) (trans : ∀ {s t u}, R s t → R t u → R s u)
    (step : ∀ c s, ok c → R s (W.exec c s).2) (h : p.Uses ok) (owe : ∀ c s, ok c → C.owe c s) :
    wp W C p (fun _ s' => R s s') s := by
  induction p generalizing s
  case ret | throw => exact refl s
  case call c k hi =>
    refine ⟨owe c s h.left, fun f _ => ?_⟩
    have ha : R s (W.answer f c s).2 := by
      cases f
      case none | applied => exact step c s h.left
      case lost           => exact refl s
    exact wp_mono (hi _ (h.right _)) fun _ _ ht => trans ha ht

-- Calls of that kind may owe more than nothing.
theorem wp_owing {owe : I.Call → σ → Prop} (h : wp W (.faults A) p Q s) (hu : p.Uses fun c => ∀ s, owe c s) :
    wp W ⟨fun _ _ f => A f, owe⟩ p Q s := by
  induction p generalizing s
  case ret | throw => exact h
  case call c k hi => exact ⟨hu.left s, fun f hf => hi _ (h.right f hf) (hu.right _)⟩

-- The same for invariants.
theorem wp_invariant {J : σ → Prop} (step : ∀ c s, ok c → J s → J (W.exec c s).2)
    (h : p.Uses ok) (owe : ∀ c s, ok c → C.owe c s) (hi : J s) : wp W C p (fun _ s' => J s') s :=
  wp_mono (wp_of_uses (R := fun s s' => J s → J s') (fun _ => id) (fun h h' => h' ∘ h) step h owe)
    fun _ _ hs => hs hi

end Uses

-- Partial correctness under any faults: if `p` returns at all, then what it returns and the state that
-- it leaves behind meet `P`.
def Returns (W : World I σ) (p : Program I α) (s : σ) (P : α → σ → Prop) : Prop :=
  wp W (.faults fun _ => True) p (fun r s' => ∀ a, r = .ok a → P a s') s

section Returns

variable {W : World I σ} {p : Program I α} {P P' : α → σ → Prop} {s : σ}

theorem returns_ret {a : α} (h : P a s) : Returns W (ret a) s P :=
  fun _ he => Except.ok.inj he ▸ h

theorem returns_throw {e : I.Error} : Returns W (throw e) s P :=
  nofun

theorem Returns.mono (h : Returns W p s P) (hp : ∀ a s, P a s → P' a s) : Returns W p s P' :=
  wp_mono h fun _ _ hr a ha => hp _ _ (hr a ha)

theorem Returns.bind {f : α → Program I β} {Q : β → σ → Prop} (h : Returns W p s P)
    (hf : ∀ a s, P a s → Returns W (f a) s Q) : Returns W (p.bind f) s Q :=
  wp_seq h (fun a s hs => hf a s (hs a rfl)) fun _ _ _ => nofun

theorem returns_any : Returns W p s fun _ _ => True := by
  induction p generalizing s
  case ret         => exact returns_ret trivial
  case throw       => exact returns_throw
  case call c k hi => exact ⟨trivial, fun _ _ => hi _⟩

-- The first part does not matter.
theorem returns_skip {f : α → Program I β} {Q : β → σ → Prop} (hf : ∀ a s, Returns W (f a) s Q) :
    Returns W (p.bind f) s Q :=
  returns_any.bind fun a s _ => hf a s

theorem returns_perform {c : I.Call} {P : I.Reply c → σ → Prop}
    (h : ∀ a, (W.exec c s).1 = .ok a → P a (W.exec c s).2) : Returns W (perform c) s P :=
  wp_perform_faults h (fun _ => nofun) fun _ => nofun

theorem returns_ofExcept {r : Except I.Error β} {f : β → Program I α}
    (h : ∀ b, r = .ok b → Returns W (f b) s P) : Returns W ((ofExcept r).bind f) s P := by
  cases r
  case ok b  => exact h b rfl
  case error => exact returns_throw

theorem returns_when {b : Bool} {p : Program I Unit} {P : Unit → σ → Prop}
    (hp : b = true → Returns W p s P) (h : b = false → P () s) : Returns W (when b p) s P := by
  cases b
  case true  => exact hp rfl
  case false => exact returns_ret (h rfl)

theorem returns_attempt {P : Except I.Error α → σ → Prop} (h : wp W (.faults fun _ => True) p P s) :
    Returns W p.attempt s P :=
  wp_attempt.mpr <| wp_mono h fun _ _ hr _ he => Except.ok.inj he ▸ hr

theorem Returns.mapError {f : I.Error → I.Error} (h : Returns W p s P) : Returns W (p.mapError f) s P := by
  refine wp_mapError.mpr <| wp_mono h fun r s hs a ha => ?_
  cases r
  case ok    => exact hs a ha
  case error => nomatch ha

-- A loop, the invariant of which may speak of its variable and of the elements that it has dealt with.
theorem returns_forFold {xs : List β} {acc : γ} {f : γ → β → Program I γ} {J : γ → List β → σ → Prop}
    (done : List β) (h : J acc done s)
    (step : ∀ acc done, ∀ x ∈ xs, ∀ s, J acc done s →
      Returns W (f acc x) s fun acc s' => J acc (done ++ [x]) s') :
    Returns W (forFold xs acc f) s fun acc s' => J acc (done ++ xs) s' := by
  induction xs generalizing acc done s
  case nil => exact returns_ret (by simpa using h)
  case cons x xs hi =>
    refine (step acc done x List.mem_cons_self s h).bind fun acc s' hs => ?_
    rw [List.append_cons]
    exact hi (done ++ [x]) hs fun acc done y hy => step acc done y (List.mem_cons_of_mem _ hy)

theorem returns_forEach {xs : List β} {f : β → Program I Unit} {J : List β → σ → Prop} (done : List β)
    (h : J done s)
    (step : ∀ done, ∀ x ∈ xs, ∀ s, J done s → Returns W (f x) s fun _ s' => J (done ++ [x]) s') :
    Returns W (forEach xs f) s fun _ s' => J (done ++ xs) s' := by
  induction xs generalizing done s
  case nil => exact returns_ret (by simpa using h)
  case cons x xs hi =>
    refine (step done x List.mem_cons_self s h).bind fun _ s' hs => ?_
    rw [List.append_cons]
    exact hi (done ++ [x]) hs fun done y hy => step done y (List.mem_cons_of_mem _ hy)

-- What a program returns, together with what the calls of one kind keep.
theorem Returns.frame {ok : I.Call → Prop} {R : σ → σ → Prop} (h : Returns W p s P) (hu : p.Uses ok)
    (refl : ∀ s, R s s) (trans : ∀ {s t u}, R s t → R t u → R s u)
    (step : ∀ c s, ok c → R s (W.exec c s).2) : Returns W p s fun a s' => P a s' ∧ R s s' :=
  wp_mono (wp_and h (wp_of_uses refl trans step hu fun _ _ _ => trivial)) fun _ _ hr a ha =>
    ⟨hr.left a ha, hr.right⟩

theorem Returns.outcome {φ : Oracle I} {n : Nat} {o : Outcome I σ α} {a : α} (h : Returns W p s P)
    (ho : run W φ n p s = o) (ha : o.result = .ok a) : P a o.state :=
  outcome_of_wp h ho a ha

end Returns

-- What a program owes with every call that it issues, whatever happens to the calls.
def Owes (W : World I σ) (owe : I.Call → σ → Prop) (p : Program I α) (s : σ) : Prop :=
  wp W ⟨fun _ _ _ => True, owe⟩ p (fun _ _ => True) s

section Owes

variable {W : World I σ} {owe : I.Call → σ → Prop} {p : Program I α} {P : α → σ → Prop} {s : σ}

theorem owes_ret {a : α} : Owes W owe (ret a) s := trivial

theorem owes_of_uses (h : p.Uses fun c => ∀ s, owe c s) : Owes W owe p s :=
  wp_of_uses (R := fun _ _ => True) (fun _ => trivial) (fun _ _ => trivial) (fun _ _ _ => trivial) h
    fun _ s hc => hc s

theorem Owes.bind {f : α → Program I β} (h : Owes W owe p s) (hr : Returns W p s P)
    (hf : ∀ a s, P a s → Owes W owe (f a) s) : Owes W owe (p.bind f) s := by
  induction p generalizing s
  case ret a       => exact hf a s (hr a rfl)
  case throw       => trivial
  case call c k hi => exact ⟨h.left, fun f hf' => hi _ (h.right f hf') (hr.right f trivial)⟩

theorem Owes.first {f : α → Program I β} (h : Owes W owe (p.bind f) s) : Owes W owe p s :=
  wp_mono (wp_bind.mp h) fun _ _ _ => trivial

theorem Owes.rest {f : α → Program I β} {a : α} {s' : σ} (h : Owes W owe (p.bind f) s) (hy : Yields W p s a s') :
    Owes W owe (f a) s' := by
  induction p generalizing s
  case ret =>
    obtain ⟨ha, rfl⟩ := hy
    exact Except.ok.inj ha ▸ h
  case throw       => cases hy.left
  case call c k hi => exact hi _ (h.right .none trivial) (hy.right .none rfl)

theorem Owes.attempt (h : Owes W owe p s) : Owes W owe p.attempt s :=
  wp_attempt.mpr h

theorem Owes.log (h : Owes W owe p s) (φ : Oracle I) (n : Nat) :
    ∀ e ∈ (run W φ n p s).log, owe e.call e.before :=
  (run_of_wp h φ n fun _ _ => trivial).right

end Owes

end Program
