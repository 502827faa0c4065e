import EgressGateway.Base.Program

-- The runs of a program with their logs, in any world and whatever happens to the calls.

namespace Program

variable {I : Signature} {σ α β γ : Type} {W : World I σ}

-- A run of a program from `s` to `t`.
inductive Runs (W : World I σ) :
    Program I α → σ → List (Issued I σ) → Except I.Error α → σ → Prop
  | ret   (a : α) (s : σ)       : Runs W (ret a) s [] (.ok a) s
  | throw (e : I.Error) (s : σ) : Runs W (throw e) s [] (.error e) s
  | call  {c k s log r t} (f : Fault) :
    Runs W (k (W.answer f c s).1) (W.answer f c s).2 log r t →
    Runs W (call c k) s (⟨c, s, f⟩ :: log) r t

theorem runs_run (φ : Oracle I) (n : Nat) (p : Program I α) (s : σ) :
    Runs W p s (run W φ n p s).log (run W φ n p s).result (run W φ n p s).state := by
  induction p generalizing n s
  case ret a      => exact .ret a s
  case throw e    => exact .throw e s
  case call c _ hi => exact .call (φ n c) (hi _ (n + 1) _)

variable {p : Program I α} {s t : σ} {log : List (Issued I σ)} {a : α}

theorem runs_ret {r : Except I.Error α} (h : Runs W (ret a) s log r t) : log = [] ∧ r = .ok a ∧ t = s := by
  cases h
  exact ⟨rfl, rfl, rfl⟩

theorem runs_throw {e : I.Error} {r : Except I.Error α} (h : Runs W (throw e : Program I α) s log r t) :
    log = [] ∧ r = .error e ∧ t = s := by
  cases h
  exact ⟨rfl, rfl, rfl⟩

theorem runs_perform {c : I.Call} {r : Except I.Error (I.Reply c)} (h : Runs W (perform c) s log r t) :
    ∃ f, log = [⟨c, s, f⟩] ∧ r = (W.answer f c s).1 ∧ t = (W.answer f c s).2 := by
  cases h
  case call f h =>
    refine ⟨f, ?_⟩
    cases hr : (W.answer f c s).1
    case ok a =>
      rw [hr] at h
      have ⟨hl, hr, ht⟩ := runs_ret h
      exact ⟨by rw [hl], hr, ht⟩
    case error e =>
      rw [hr] at h
      have ⟨hl, hr, ht⟩ := runs_throw h
      exact ⟨by rw [hl], hr, ht⟩

theorem runs_bind {f : α → Program I β} {b : β} (h : Runs W (p.bind f) s log (.ok b) t) :
    ∃ l l' a u, log = l ++ l' ∧ Runs W p s l (.ok a) u ∧ Runs W (f a) u l' (.ok b) t := by
  induction p generalizing s log
  case ret a => exact ⟨[], log, a, s, rfl, .ret a s, h⟩
  case throw => nomatch h
  case call c k hi =>
    cases h
    case call log f h =>
      have ⟨l, l', a, u, hl, hp, hf⟩ := hi _ h
      exact ⟨⟨c, s, f⟩ :: l, l', a, u, by rw [hl]; rfl, .call f hp, hf⟩

theorem runs_attempt {r : Except I.Error (Except I.Error α)} (h : Runs W p.attempt s log r t) :
    ∃ r', r = .ok r' ∧ Runs W p s log r' t := by
  induction p generalizing s log
  case ret a =>
    obtain ⟨rfl, rfl, rfl⟩ := runs_ret h
    exact ⟨_, rfl, .ret a t⟩
  case throw e =>
    obtain ⟨rfl, rfl, rfl⟩ := runs_ret h
    exact ⟨_, rfl, .throw e t⟩
  case call c k hi =>
    cases h
    case call f h =>
      have ⟨r', hr, hp⟩ := hi _ h
      exact ⟨r', hr, .call f hp⟩

theorem runs_mapError {g : I.Error → I.Error} (h : Runs W (p.mapError g) s log (.ok a) t) :
    Runs W p s log (.ok a) t := by
  induction p generalizing s log
  case ret   => exact h
  case throw => nomatch h
  case call c k hi =>
    cases h
    case call f h => exact .call f (hi _ h)

theorem runs_ofExcept {r : Except I.Error α} (h : Runs W (ofExcept r) s log (.ok a) t) :
    log = [] ∧ r = .ok a ∧ t = s := by
  cases r
  case error => nomatch h
  case ok =>
    obtain ⟨rfl, hr, rfl⟩ := runs_ret h
    exact ⟨rfl, hr.symm, rfl⟩

theorem runs_when {b : Bool} {p : Program I Unit} {r : Except I.Error Unit} (h : Runs W (when b p) s log r t) :
    b = true ∧ Runs W p s log r t ∨ b = false ∧ log = [] := by
  cases b
  case true  => exact .inl ⟨rfl, h⟩
  case false => exact .inr ⟨rfl, (runs_ret h).left⟩

-- A loop keeps what each of its rounds keeps. `J` may refer to the elements and the log so far.
theorem runs_forFold {xs : List β} {acc r : γ} {f : γ → β → Program I γ}
    {J : γ → List β → List (Issued I σ) → Prop} {done : List β} {l : List (Issued I σ)}
    (init : J acc done l)
    (step : ∀ {acc done l x s l' acc' t}, J acc done l → Runs W (f acc x) s l' (.ok acc') t →
      J acc' (done ++ [x]) (l ++ l'))
    (h : Runs W (forFold xs acc f) s log (.ok r) t) : J r (done ++ xs) (l ++ log) := by
  induction xs generalizing acc done l s log
  case nil =>
    obtain ⟨rfl, hr, rfl⟩ := runs_ret h
    rw [List.append_nil, List.append_nil, ← Except.ok.inj hr.symm]
    exact init
  case cons x xs hi =>
    have ⟨l₁, l₂, acc', u, hl, hx, hxs⟩ := runs_bind h
    have hj := hi (step init hx) hxs
    rwa [hl, ← List.append_assoc, ← List.singleton_append, ← List.append_assoc]

end Program
