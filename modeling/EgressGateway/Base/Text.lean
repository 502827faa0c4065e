import Mathlib

-- The parts of Go's `strings` and `strconv` packages that the controllers rely on. Everything is
-- stated over the list of runes of a string, so that the definitions evaluate in the kernel.

-- `strings.EqualFold` identifies the runes of one orbit of Unicode's simple case folding. `fold`
-- picks one representative of each orbit; nothing below depends on which one it is. `lower` is the
-- mapping of `unicode.ToLower`.
class CaseFold where
  fold  : Char → Char
  lower : Char → Char

-- On the ASCII range the orbits are the pairs of upper and lower case letters.
instance (priority := low) asciiFold : CaseFold where
  fold  := Char.toLower
  lower := Char.toLower

namespace Text

-- The text of a string up to case.
def FoldKey := List Char

instance : DecidableEq FoldKey :=
  inferInstanceAs (DecidableEq (List Char))

section EqualFold

variable [CaseFold] {s t u : String}

def foldKey (s : String) : FoldKey :=
  s.toList.map CaseFold.fold

def equalFold (s t : String) : Bool :=
  foldKey s == foldKey t

theorem equalFold_iff : equalFold s t = true ↔ foldKey s = foldKey t := by
  simp [equalFold]

theorem equalFold_false_iff : equalFold s t = false ↔ foldKey s ≠ foldKey t := by
  simp [equalFold]

theorem equalFold_eq_decide (s t : String) : equalFold s t = decide (foldKey s = foldKey t) := by
  rw [Bool.eq_iff_iff, equalFold_iff, decide_eq_true_iff]

theorem equalFold_refl (s : String) : equalFold s s = true :=
  equalFold_iff.mpr rfl

theorem equalFold_comm (s t : String) : equalFold s t = equalFold t s := by
  simp [equalFold, Bool.beq_comm]

theorem foldKey_append (s t : String) :
    foldKey (s ++ t) = List.append (foldKey s) (foldKey t) := by
  unfold foldKey
  rw [String.toList_append]
  exact List.map_append

@[simp]
theorem equalFold_append_left (p s t : String) : equalFold (p ++ s) (p ++ t) = equalFold s t := by
  rw [Bool.eq_iff_iff, equalFold_iff, equalFold_iff, foldKey_append, foldKey_append]
  exact List.append_right_inj _

end EqualFold

-- `strings.ToLower`
def toLower [CaseFold] (s : String) : String :=
  String.ofList (s.toList.map CaseFold.lower)

-- `strings.Split` with a separator of one rune.
def splitChars (sep : Char) : List Char → List (List Char)
  | []      => [[]]
  | c :: cs =>
    if c = sep then [] :: splitChars sep cs
    else
      match splitChars sep cs with
      | []      => [[c]]
      | f :: fs => (c :: f) :: fs

def split (sep : Char) (s : String) : List String :=
  (splitChars sep s.toList).map String.ofList

-- `unicode.IsSpace`
def isSpace (c : Char) : Bool :=
  c.toNat ∈ [0x09, 0x0a, 0x0b, 0x0c, 0x0d, 0x20, 0x85, 0xa0, 0x1680, 0x2028, 0x2029, 0x202f, 0x205f,
    0x3000] ∨ (0x2000 ≤ c.toNat ∧ c.toNat ≤ 0x200a)

def trimSpace (s : String) : String :=
  String.ofList ((s.toList.dropWhile isSpace).reverse.dropWhile isSpace).reverse

-- `strings.HasPrefix`
def hasPrefix (s p : String) : Bool :=
  p.toList.isPrefixOf s.toList

-- `strings.TrimPrefix`
def trimPrefix (s p : String) : String :=
  if hasPrefix s p then String.ofList (s.toList.drop p.toList.length) else s

-- `strings.ReplaceAll` with two texts of one rune.
def replaceAll (s : String) (a b : Char) : String :=
  String.ofList (s.toList.map fun c => if c = a then b else c)

section Atoi

def digit? (c : Char) : Option Nat :=
  if c.isDigit then some (c.toNat - '0'.toNat) else none

-- The value of a nonempty sequence of decimal digits.
def digits? (acc : Nat) : List Char → Option Nat
  | []      => some acc
  | c :: cs => (digit? c).bind fun d => digits? (10 * acc + d) cs

def natural? : List Char → Option Nat
  | [] => none
  | cs => digits? 0 cs

-- `strconv.Atoi`, which accepts a sign and leading zeros, and rejects what does not fit an `int`.
def atoi (s : String) : Option Int :=
  match s.toList with
  | '-' :: cs => (natural? cs).bind fun n => if n ≤ 2 ^ 63 then some (-(n : Int)) else none
  | '+' :: cs => (natural? cs).bind fun n => if n < 2 ^ 63 then some (n : Int) else none
  | cs        => (natural? cs).bind fun n => if n < 2 ^ 63 then some (n : Int) else none

theorem digits?_eq {cs : List Char} {acc : Nat} (h : ∀ c ∈ cs, c.isDigit = true) :
    digits? acc cs = some (Nat.ofDigitChars 10 cs acc) := by
  induction cs generalizing acc
  case nil => rfl
  case cons c cs hi =>
    have hc := h c List.mem_cons_self
    rw [digits?, digit?, if_pos hc, Option.bind_some, hi fun d hd => h d (List.mem_cons_of_mem _ hd)]
    rfl

theorem natural?_toDigits (n : Nat) : natural? (Nat.toDigits 10 n) = some n := by
  have hd : ∀ c ∈ Nat.toDigits 10 n, c.isDigit = true :=
    fun c hc => Nat.isDigit_of_mem_toDigits (by decide) (by decide) hc
  have hne : Nat.toDigits 10 n ≠ [] := Nat.toDigits_ne_nil
  unfold natural?
  split
  case h_1 h => exact absurd h hne
  case h_2   => rw [digits?_eq hd, Nat.ofDigitChars_toDigits (by decide) (by decide)]

theorem toDigits_cons_isDigit {n : Nat} {c : Char} {cs : List Char} (h : Nat.toDigits 10 n = c :: cs) :
    c.isDigit = true := by
  refine Nat.isDigit_of_mem_toDigits (b := 10) (n := n) (by decide) (by decide) ?_
  rw [h]
  exact List.mem_cons_self

theorem toString_natural (n : Nat) : (toString (n : Int)).toList = Nat.toDigits 10 n := by
  change (String.ofList (Nat.toDigits 10 n)).toList = _
  exact String.toList_ofList

theorem toString_negative (n : Nat) :
    (toString (Int.negSucc n)).toList = '-' :: Nat.toDigits 10 (n + 1) := by
  change ("-" ++ String.ofList (Nat.toDigits 10 (n + 1))).toList = _
  simp

theorem atoi_natural (n : Nat) :
    atoi (toString (n : Int)) = if n < 2 ^ 63 then some (n : Int) else none := by
  unfold atoi
  rw [toString_natural]
  split
  case h_1 heq => exact absurd (toDigits_cons_isDigit heq) (by decide)
  case h_2 heq => exact absurd (toDigits_cons_isDigit heq) (by decide)
  case h_3     => rw [natural?_toDigits, Option.bind_some]

theorem atoi_negative (n : Nat) :
    atoi (toString (Int.negSucc n)) = if n + 1 ≤ 2 ^ 63 then some (Int.negSucc n) else none := by
  unfold atoi
  rw [toString_negative]
  simp only [natural?_toDigits, Option.bind_some]
  rfl

-- `Atoi` is the inverse of the `%d` verb.
theorem atoi_toString {i : Int} (hl : -2 ^ 63 ≤ i) (hu : i < 2 ^ 63) : atoi (toString i) = some i := by
  cases i
  case ofNat n   => exact (atoi_natural n).trans (if_pos (Int.ofNat_lt.mp hu))
  case negSucc n => exact (atoi_negative n).trans (if_pos (by omega))

theorem eq_of_atoi_toString {i j : Int} (h : atoi (toString i) = some j) : j = i := by
  cases i
  case ofNat n =>
    have he := (atoi_natural n).symm.trans h
    split at he
    · exact (Option.some.inj he).symm
    · nomatch he
  case negSucc n =>
    have he := (atoi_negative n).symm.trans h
    split at he
    · exact (Option.some.inj he).symm
    · nomatch he

theorem toDigits_inj {n m : Nat} (h : Nat.toDigits 10 n = Nat.toDigits 10 m) : n = m := by
  have he := natural?_toDigits n
  rw [h, natural?_toDigits] at he
  exact (Option.some.inj he).symm

theorem toString_int_inj {i j : Int} (h : toString i = toString j) : i = j := by
  have hl := congrArg String.toList h
  cases i <;> cases j
  case ofNat.ofNat n m =>
    have he : Nat.toDigits 10 n = Nat.toDigits 10 m :=
      (toString_natural n).symm.trans (hl.trans (toString_natural m))
    exact congrArg Int.ofNat (toDigits_inj he)
  case negSucc.negSucc n m =>
    rw [toString_negative, toString_negative] at hl
    exact congrArg Int.negSucc (Nat.succ.inj (toDigits_inj (List.cons.inj hl).right))
  case ofNat.negSucc n m =>
    have he := (toString_natural n).symm.trans (hl.trans (toString_negative m))
    exact absurd (toDigits_cons_isDigit he) (by decide)
  case negSucc.ofNat n m =>
    have he := (toString_natural m).symm.trans (hl.symm.trans (toString_negative n))
    exact absurd (toDigits_cons_isDigit he) (by decide)

end Atoi

-- Two texts differ at some position that both of them have.
def diverge : List Char → List Char → Bool
  | c :: cs, d :: ds => c ≠ d || diverge cs ds
  | _,       _       => false

theorem append_ne_of_diverge {cs ds : List Char} (h : diverge cs ds = true) (as bs : List Char) :
    cs ++ as ≠ ds ++ bs := by
  induction cs generalizing ds
  case nil => nomatch h
  case cons c cs hi =>
    cases ds
    case nil => nomatch h
    case cons d ds =>
      intro he
      have ⟨hc, he⟩ := List.cons.inj he
      simp only [diverge, Bool.or_eq_true, decide_eq_true_eq] at h
      exact h.elim (absurd hc) fun h => hi h he

theorem ne_of_diverge {p q : String} (h : diverge p.toList q.toList = true) (a b : String) :
    p ++ a ≠ q ++ b := by
  intro he
  have hl := congrArg String.toList he
  rw [String.toList_append, String.toList_append] at hl
  exact append_ne_of_diverge h _ _ hl

theorem ne_literal_of_diverge {p q : String} (h : diverge p.toList q.toList = true) (a : String) :
    p ++ a ≠ q := by
  have := ne_of_diverge h a ""
  rwa [String.append_empty] at this

theorem hasPrefix_append (p s : String) : hasPrefix (p ++ s) p = true := by
  simp [hasPrefix]

theorem trimPrefix_append (p s : String) : trimPrefix (p ++ s) p = s := by
  rw [trimPrefix, if_pos (hasPrefix_append p s)]
  simp

section Suffix

variable {b n m : Nat} {f : Char → Char}

theorem mem_toDigits (hb : 1 < b) {c : Char} (h : c ∈ Nat.toDigits b n) : ∃ i < b, c = i.digitChar := by
  induction n using Nat.strongRecOn
  case ind n hi =>
    rw [Nat.toDigits_eq_if hb] at h
    split at h
    case isTrue hn => exact ⟨n, hn, List.mem_singleton.mp h⟩
    case isFalse hn =>
      rcases List.mem_append.mp h with h | h
      · exact hi (n / b) (Nat.div_lt_self (by omega) hb) h
      · exact ⟨n % b, Nat.mod_lt _ (by omega), List.mem_singleton.mp h⟩

-- The digits of a number determine it, also when they are only known up to case.
theorem map_toDigits_inj (hb : 1 < b)
    (hf : ∀ i < b, ∀ j < b, f i.digitChar = f j.digitChar → i = j)
    (h : (Nat.toDigits b n).map f = (Nat.toDigits b m).map f) : n = m := by
  induction n using Nat.strongRecOn generalizing m
  case ind n hi =>
    rw [Nat.toDigits_eq_if hb, Nat.toDigits_eq_if hb (n := m)] at h
    split at h <;> split at h
    case isTrue.isTrue hn hm => exact hf n hn m hm (by simpa using h)
    case isFalse.isFalse hn hm =>
      rw [List.map_append, List.map_append] at h
      have ⟨hd, hr⟩ := List.append_inj' h rfl
      have hq := hi (n / b) (Nat.div_lt_self (by omega) hb) hd
      have hr := hf _ (Nat.mod_lt n (by omega)) _ (Nat.mod_lt m (by omega)) (by simpa using hr)
      rw [← Nat.div_add_mod n b, ← Nat.div_add_mod m b, hq, hr]
    case isTrue.isFalse | isFalse.isTrue =>
      have := congrArg List.length h
      simp [Nat.toDigits_ne_nil] at this

-- What follows the last separator is determined, whatever stands before it.
theorem append_cons_inj_of_notMem_right {α : Type} {d : α} {l l' x x' : List α} (hx : d ∉ x) (hx' : d ∉ x')
    (h : l ++ d :: x = l' ++ d :: x') : l = l' ∧ x = x' := by
  rcases List.append_eq_append_iff.mp h with ⟨a, rfl, ha⟩ | ⟨a, rfl, ha⟩
  all_goals
    cases a
    case nil => simpa [eq_comm] using ha
    case cons e a =>
      have ha := (List.cons.inj ha).right
      grind

end Suffix

end Text
