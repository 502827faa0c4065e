import EgressGateway.Manager.Theorems.PublicIPs

-- The names of the public IP addresses of a pool of virtual machines.

open Kubernetes Azure Text Program

namespace Manager

-- Case folding keeps the characters of the suffix of a name apart: `-` and the hexadecimal digits.
def FoldsApart [CaseFold] : Prop :=
  (∀ i < 16, CaseFold.fold i.digitChar ≠ CaseFold.fold '-') ∧
  ∀ i < 16, ∀ j < 16, CaseFold.fold i.digitChar = CaseFold.fold j.digitChar → i = j

section Names

variable [CaseFold] {S : Settings} {name₁ name₂ scope₁ scope₂ : String}

theorem foldKey_publicIPName (name : String) (n : Nat) : foldKey (name ++ "-" ++ hex n) =
    List.append (foldKey name) (CaseFold.fold '-' :: (Nat.toDigits 16 n).map CaseFold.fold) := by
  simp [foldKey, hex]
  rfl

theorem notMem_fold_toDigits (hf : FoldsApart) (n : Nat) :
    CaseFold.fold '-' ∉ (Nat.toDigits 16 n).map CaseFold.fold := by
  intro h
  obtain ⟨c, hc, he⟩ := List.mem_map.mp h
  obtain ⟨i, hi, rfl⟩ := mem_toDigits (by decide) hc
  exact hf.left i hi he

-- The separator may occur in the name of the prefix, but not in the number behind it.
theorem equalFold_publicIPName (hf : FoldsApart) {n m : Nat} :
    equalFold (name₁ ++ "-" ++ hex n) (name₂ ++ "-" ++ hex m) = true ↔
      equalFold name₁ name₂ = true ∧ n = m := by
  rw [equalFold_iff, equalFold_iff, foldKey_publicIPName, foldKey_publicIPName]
  constructor
  · intro h
    have ⟨hn, hd⟩ :=
      append_cons_inj_of_notMem_right (notMem_fold_toDigits hf n) (notMem_fold_toDigits hf m) h
    exact ⟨hn, map_toDigits_inj (by decide) hf.right hd⟩
  · rintro ⟨hn, rfl⟩
    rw [hn]

theorem equalFold_id (h : equalFold name₁ name₂ = true) :
    equalFold (scope₁ ++ "/" ++ name₁) (scope₂ ++ "/" ++ name₂) = equalFold scope₁ scope₂ := by
  rw [equalFold_iff] at h
  rw [Bool.eq_iff_iff, equalFold_iff, equalFold_iff]
  simp only [foldKey_append, h]
  exact (List.append_left_inj _).trans (List.append_left_inj _)

-- Addresses with one name belong to one prefix, and to interfaces with one hash.
def NamesApart (S : Settings) (id₁ id₂ : String) : Prop :=
  ∀ nic₁ nic₂ m₁ m₂, buildPublicIPName S id₁ nic₁ = .ok m₁ → buildPublicIPName S id₂ nic₂ = .ok m₂ →
    equalFold m₁ m₂ = true → equalFold id₁ id₂ = true ∧ fnv64a nic₁ = fnv64a nic₂

theorem publicIPNames_apart_iff (hf : FoldsApart)
    (h₁ : S.resourceName (scope₁ ++ "/" ++ name₁) = some name₁)
    (h₂ : S.resourceName (scope₂ ++ "/" ++ name₂) = some name₂) :
    NamesApart S (scope₁ ++ "/" ++ name₁) (scope₂ ++ "/" ++ name₂) ↔
      (equalFold name₁ name₂ = true → equalFold scope₁ scope₂ = true) := by
  simp only [NamesApart, buildPublicIPName, h₁, h₂]
  constructor
  · intro h hn
    have ⟨hi, _⟩ := h "" "" _ _ rfl rfl ((equalFold_publicIPName hf).mpr ⟨hn, rfl⟩)
    rwa [equalFold_id hn] at hi
  · rintro h nic₁ nic₂ _ _ ⟨⟩ ⟨⟩ hm
    have ⟨hn, he⟩ := (equalFold_publicIPName hf).mp hm
    exact ⟨(equalFold_id hn).trans (h hn), BitVec.eq_of_toNat_eq he⟩

end Names

namespace Sample

def lastSegment (id : String) : Option String :=
  (split '/' id).getLast?

def segments : Settings :=
  { settings with resourceName := lastSegment }

def prefixIn (group : String) : String :=
  "/subscriptions/s/resourceGroups/" ++ group ++ "/providers/Microsoft.Network/publicIPPrefixes"

def provided (group : String) : M (Option PublicIPAddress) :=
  ensurePublicIP segments (prefixIn group ++ "/" ++ "egress") gatewayNIC true

def clash : Outcome Sig State (Option PublicIPAddress) :=
  run (world .simple segments.az) .calm 0 (provided "a" >>= fun _ => provided "b") (vmNodes "")

end Sample

theorem foldsApart_ascii : FoldsApart := by
  unfold FoldsApart
  decide

open Sample in
theorem publicIPNames_apart_sample :
    NamesApart segments (prefixIn "a" ++ "/" ++ "egress") (prefixIn "b" ++ "/" ++ "egress-1") :=
  (publicIPNames_apart_iff foldsApart_ascii (by decide +kernel) (by decide +kernel)).mpr
    fun h => absurd h (by decide)

open Sample in
-- Two gateways use prefixes of one name from two resource groups: the second one takes over the address
-- of the first one.
theorem publicIPNames_clash :
    buildPublicIPName segments (prefixIn "a" ++ "/" ++ "egress") "nic" =
      buildPublicIPName segments (prefixIn "b" ++ "/" ++ "egress") "nic" ∧
    ¬NamesApart segments (prefixIn "a" ++ "/" ++ "egress") (prefixIn "b" ++ "/" ++ "egress") ∧
    clash.result.isOk = true ∧
    clash.state.cloud.publicIPs.map (·.properties) =
      [some ⟨some ⟨some (prefixIn "b" ++ "/" ++ "egress")⟩⟩] := by
  refine ⟨by decide +kernel, fun h => ?_, by decide +kernel⟩
  exact absurd (h "nic" "nic" _ _ rfl rfl (by decide +kernel)).left (by decide +kernel)

end Manager
