import EgressGateway.Base.Text

-- IP addresses as Go's `net` package treats them. An address is kept in its 16-byte form, in which
-- an IPv4 address is `::ffff:a.b.c.d`, so that equality is what `IP.Equal` decides.

namespace Net

open Text

structure IP where
  value : Nat
  deriving DecidableEq, Inhabited

namespace IP

def ofV4 (n : Nat) : IP :=
  ⟨0xffff * 2 ^ 32 + n⟩

def isV4 (ip : IP) : Bool :=
  ip.value / 2 ^ 32 = 0xffff

end IP

-- `bits` is the length of the mask: 32 for addresses written in the IPv4 notation, 128 otherwise.
structure IPNet where
  ip   : IP
  ones : Nat
  bits : Nat
  deriving DecidableEq, Inhabited

namespace Parse

def octet? (cs : List Char) : Option Nat :=
  match cs with
  | '0' :: _ :: _ => none
  | _             => (natural? cs).filter (· ≤ 255)

def v4? (cs : List Char) : Option Nat :=
  match (splitChars '.' cs).map octet? with
  | [some a, some b, some c, some d] => some (((a * 256 + b) * 256 + c) * 256 + d)
  | _                                => none

def hexDigit? (c : Char) : Option Nat :=
  if c.isDigit then some (c.toNat - '0'.toNat)
  else if 'a' ≤ c ∧ c ≤ 'f' then some (c.toNat - 'a'.toNat + 10)
  else if 'A' ≤ c ∧ c ≤ 'F' then some (c.toNat - 'A'.toNat + 10)
  else none

def hexDigits? (acc : Nat) : List Char → Option Nat
  | []      => some acc
  | c :: cs => (hexDigit? c).bind fun d => hexDigits? (16 * acc + d) cs

def group? (cs : List Char) : Option Nat :=
  if cs.length = 0 ∨ 4 < cs.length then none else hexDigits? 0 cs

-- Groups of 16 bits. The last one may be an embedded IPv4 address, which counts as two.
def groups? (embedded : Bool) : List (List Char) → Option (List Nat)
  | []        => some []
  | [f]       =>
    if embedded ∧ '.' ∈ f then (v4? f).map fun n => [n / 2 ^ 16, n % 2 ^ 16]
    else (group? f).map ([·])
  | f :: fs   => (group? f).bind fun g => (groups? embedded fs).map (g :: ·)

-- The parts before and after the first `::`.
def ellipsis? : List Char → Option (List Char × List Char)
  | ':' :: ':' :: cs => some ([], cs)
  | c :: cs          => (ellipsis? cs).map fun (l, r) => (c :: l, r)
  | []               => none

def side? (embedded : Bool) (cs : List Char) : Option (List Nat) :=
  if cs = [] then some [] else groups? embedded (splitChars ':' cs)

-- An ellipsis stands for at least one group.
def v6? (cs : List Char) : Option Nat :=
  let groups :=
    match ellipsis? cs with
    | none        => side? true cs
    | some (l, r) =>
      (side? false l).bind fun l => (side? true r).bind fun r =>
        if l.length + r.length ≤ 7 then
          some (l ++ List.replicate (8 - (l.length + r.length)) 0 ++ r)
        else none
  (groups.filter (·.length = 8)).map (·.foldl (fun acc g => acc * 2 ^ 16 + g) 0)

-- `netip.ParseAddr` without zones: the first separator decides between the two notations.
def addr? (cs : List Char) : Option (IP × Nat) :=
  match cs.find? (fun c => c = '.' ∨ c = ':') with
  | some '.' => (v4? cs).map fun n => (IP.ofV4 n, 32)
  | some ':' => (v6? cs).map fun n => (⟨n⟩, 128)
  | _        => none

def mask (ip : IP) (ones bits : Nat) : IP :=
  ⟨ip.value / 2 ^ (bits - ones) * 2 ^ (bits - ones)⟩

end Parse

open Parse

-- `net.ParseCIDR`: the address as it is written, and the network it lies in.
def parseCIDR (s : String) : Option (IP × IPNet) :=
  match splitChars '/' s.toList with
  | addr :: m :: rest =>
    match addr? addr, natural? (List.intercalate ['/'] (m :: rest)) with
    | some (ip, bits), some ones =>
      if ones ≤ bits then some (ip, ⟨Parse.mask ip ones bits, ones, bits⟩) else none
    | _, _ => none
  | _ => none

-- `netlink.ParseIPNet` does not mask the address.
def parseIPNet (s : String) : Option IPNet :=
  (parseCIDR s).map fun (ip, net) => { net with ip := ip }

namespace IP

def octets (ip : IP) : List Nat :=
  [ip.value / 2 ^ 24 % 256, ip.value / 2 ^ 16 % 256, ip.value / 2 ^ 8 % 256, ip.value % 256]

def groups (ip : IP) : List Nat :=
  (List.range 8).map fun i => ip.value / 2 ^ (16 * (7 - i)) % 2 ^ 16

def join (sep : String) : List String → String
  | []      => ""
  | [s]     => s
  | s :: ss => s ++ sep ++ join sep ss

def hex (n : Nat) : String :=
  String.ofList (Nat.toDigits 16 n)

-- The first of the longest runs of zero groups: its start and its length.
def longestZeros (gs : List Nat) : Nat × Nat :=
  (List.range gs.length).foldl (fun best i =>
    let n := ((gs.drop i).takeWhile (· = 0)).length
    if best.2 < n then (i, n) else best) (0, 0)

-- `IP.String`
def text (ip : IP) : String :=
  if ip.isV4 then join "." (ip.octets.map toString)
  else
    let (i, n) := longestZeros ip.groups
    if n < 2 then join ":" (ip.groups.map hex)
    else join ":" ((ip.groups.take i).map hex) ++ "::" ++ join ":" ((ip.groups.drop (i + n)).map hex)

end IP

example : (parseCIDR "10.0.0.5/24").map (fun (ip, net) => (ip.text, net.ip.text, net.ones)) =
    some ("10.0.0.5", "10.0.0.0", 24) := by
  decide +kernel

example : (parseCIDR "2001:DB8::1:0:0:1/128").map (fun (ip, _) => ip.text) =
    some "2001:db8::1:0:0:1" := by
  decide +kernel

example : parseCIDR "10.0.0.05/24" = none := by
  decide +kernel

end Net
