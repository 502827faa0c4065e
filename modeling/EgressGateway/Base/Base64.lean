import Mathlib.Data.List.Basic
import Mathlib.Data.Fin.Basic

-- Go's `base64.StdEncoding`. Decoding skips line breaks and ignores the bits of the last character
-- that do not belong to a byte, so there are many texts for the same bytes.

namespace Base64

abbrev Byte := Fin 256
abbrev Sextet := Fin 64

def zero : Byte := 0

def char (i : Sextet) : Char :=
  if i.val < 26 then Char.ofNat (i.val + 65)
  else if i.val < 52 then Char.ofNat (i.val + 71)
  else if i.val < 62 then Char.ofNat (i.val - 4)
  else if i.val = 62 then '+'
  else '/'

def sextet? (c : Char) : Option Sextet :=
  (List.finRange 64).find? (char · = c)

-- The sextets of three bytes.
def first  (x : Byte) : Sextet := ⟨x.val / 4, by omega⟩
def second (x y : Byte) : Sextet := ⟨x.val % 4 * 16 + y.val / 16, by omega⟩
def third  (y z : Byte) : Sextet := ⟨y.val % 16 * 4 + z.val / 64, by omega⟩
def fourth (z : Byte) : Sextet := ⟨z.val % 64, by omega⟩

def encodeChars : List Byte → List Char
  | []               => []
  | [x]              => [char (first x), char (second x 0), '=', '=']
  | [x, y]           => [char (first x), char (second x y), char (third y 0), '=']
  | x :: y :: z :: bs =>
    char (first x) :: char (second x y) :: char (third y z) :: char (fourth z) :: encodeChars bs

-- The bytes of four sextets.
def byte₁ (a b : Sextet) : Byte := ⟨a.val * 4 + b.val / 16, by omega⟩
def byte₂ (b c : Sextet) : Byte := ⟨b.val % 16 * 16 + c.val / 4, by omega⟩
def byte₃ (c d : Sextet) : Byte := ⟨c.val % 4 * 64 + d.val, by omega⟩

-- Padding is only accepted at the end.
def decodeChars : List Char → Option (List Byte)
  | []                     => some []
  | a :: b :: c :: d :: cs =>
    match sextet? a, sextet? b with
    | some a, some b =>
      if c = '=' then
        if d = '=' ∧ cs = [] then some [byte₁ a b] else none
      else
        match sextet? c with
        | none   => none
        | some c =>
          if d = '=' then
            if cs = [] then some [byte₁ a b, byte₂ b c] else none
          else
            match sextet? d with
            | none   => none
            | some d => (decodeChars cs).map fun bs => byte₁ a b :: byte₂ b c :: byte₃ c d :: bs
    | _, _ => none
  | _ => none

def encode (bs : List Byte) : String :=
  String.ofList (encodeChars bs)

def decode (s : String) : Option (List Byte) :=
  decodeChars (s.toList.filter fun c => c ≠ '\r' ∧ c ≠ '\n')

theorem sextet?_char : ∀ i : Sextet, sextet? (char i) = some i := by
  decide +kernel

theorem char_ne : ∀ i : Sextet, char i ≠ '=' ∧ char i ≠ '\r' ∧ char i ≠ '\n' := by
  decide +kernel

theorem byte₁_eq (x y : Byte) : byte₁ (first x) (second x y) = x := by
  ext
  simp only [byte₁, first, second]
  omega

theorem byte₂_eq (x y z : Byte) : byte₂ (second x y) (third y z) = y := by
  ext
  simp only [byte₂, second, third]
  omega

theorem byte₃_eq (y z : Byte) : byte₃ (third y z) (fourth z) = z := by
  ext
  simp only [byte₃, third, fourth]
  omega

theorem decodeChars_encodeChars (bs : List Byte) : decodeChars (encodeChars bs) = some bs := by
  induction bs using encodeChars.induct
  case case1 => rfl
  case case2 x => simp [encodeChars, decodeChars, sextet?_char, byte₁_eq]
  case case3 x y =>
    have hc := (char_ne (third y 0)).left
    simp [encodeChars, decodeChars, sextet?_char, hc, byte₁_eq, byte₂_eq]
  case case4 x y z bs hi =>
    have hc := (char_ne (third y z)).left
    have hd := (char_ne (fourth z)).left
    simp [encodeChars, decodeChars, sextet?_char, hc, hd, hi, byte₁_eq, byte₂_eq, byte₃_eq]

theorem encodeChars_no_breaks (bs : List Byte) : ∀ c ∈ encodeChars bs, c ≠ '\r' ∧ c ≠ '\n' := by
  have hchar : ∀ i : Sextet, char i ≠ '\r' ∧ char i ≠ '\n' := fun i => (char_ne i).right
  induction bs using encodeChars.induct
  case case1 => simp [encodeChars]
  case case2 => simp [encodeChars, hchar]
  case case3 => simp [encodeChars, hchar]
  case case4 x y z bs hi =>
    simp only [encodeChars, List.forall_mem_cons]
    exact ⟨hchar _, hchar _, hchar _, hchar _, hi⟩

-- Decoding inverts encoding, but not the other way around.
theorem decode_encode (bs : List Byte) : decode (encode bs) = some bs := by
  have hf : (encodeChars bs).filter (fun c => c ≠ '\r' ∧ c ≠ '\n') = encodeChars bs :=
    List.filter_eq_self.mpr fun c hc => by simpa using encodeChars_no_breaks bs c hc
  rw [decode, encode, String.toList_ofList, hf, decodeChars_encodeChars]

theorem encode_inj {bs bs' : List Byte} (h : encode bs = encode bs') : bs = bs' := by
  have := congrArg decode h
  rw [decode_encode, decode_encode] at this
  exact Option.some.inj this

example : decode "AB==" = decode "AA==" ∧ decode "A\nA==" = decode "AA==" := by
  decide +kernel

end Base64
