import EgressGateway.Manager.Platform

open Kubernetes Azure Text Program

namespace Manager

variable [CaseFold] {P : Platform} {az : CloudConfig} {A : Fault → Prop} {s : State} {c : Call}

def Call.reads : Call → Bool
  | .getLB | .listVMSS | .getVMSS .. | .listVMs | .listVMSSInstances .. | .getVMSSInterface ..
  | .getPublicIPPrefix .. | .listNetworkInterfaces .. | .getSubnet | .get .. | .list ..
  | .getNode .. => true
  | _ => false

theorem serve_reads (h : c.reads) : (State.serve P az c s).2 = s := by
  cases c
  case getLB | getVMSS | listVMSSInstances | getPublicIPPrefix | getSubnet | get | getNode =>
    simp only [State.serve]
    split <;> rfl
  case getVMSSInterface =>
    simp only [State.serve]
    split
    · rfl
    · split <;> rfl
  case listVMSS | listVMs | listNetworkInterfaces | list => rfl
  all_goals nomatch h

-- A read ends a run early only if its answer is lost or there is nothing to be read.
def Read {α : Type} (A : Fault → Prop) (expected : Option α) : Except Err α → Prop
  | .ok a    => expected = some a
  | .error _ => Disturbed A ∨ expected = none

theorem wp_request_read {expected : Option (Reply c)} (h : c.reads)
    (he : Read A expected (State.serve P az c s).1) :
    wp (world P az) (.faults A) (request c) (fun res s' => s' = s ∧ Read A expected res) s :=
  wp_read (serve_reads h) ⟨rfl, he⟩ fun hd => ⟨rfl, .inl hd⟩

-- A read is followed by whatever depends on what was read.
theorem wp_bind_read {α β : Type} {p : M α} {f : α → M β} {expected : Option α}
    {Q : Except Err β → State → Prop}
    (h : wp (world P az) (.faults A) p (fun res s' => s' = s ∧ Read A expected res) s)
    (ok : ∀ a, expected = some a → wp (world P az) (.faults A) (f a) Q s)
    (error : ∀ e, Disturbed A ∨ expected = none → Q (.error e) s) :
    wp (world P az) (.faults A) (p.bind f) Q s := by
  apply wp_seq h
  case ok =>
    rintro a s ⟨rfl, ha⟩
    exact ok a ha
  case error =>
    rintro e s ⟨rfl, he⟩
    exact error e he

theorem wp_listVMSS :
    wp (world P az) (.faults A) (request .listVMSS) (fun res s' => s' = s ∧
      Read A (some (s.cloud.listVMSS az.resourceGroup)) res) s :=
  wp_request_read rfl rfl

theorem wp_listVMs :
    wp (world P az) (.faults A) (request .listVMs) (fun res s' => s' = s ∧
      Read A (some (s.cloud.listVMs az.resourceGroup)) res) s :=
  wp_request_read rfl rfl

theorem wp_getVMSS {rg name : String} :
    wp (world P az) (.faults A) (request (.getVMSS rg name)) (fun res s' => s' = s ∧
      Read A (s.cloud.findVMSS (az.orDefault rg) name) res) s := by
  refine wp_request_read rfl ?_
  simp only [State.serve]
  cases h : s.cloud.findVMSS (az.orDefault rg) name
  case none => exact .inr rfl
  case some => rfl

theorem wp_getSubnet :
    wp (world P az) (.faults A) (request .getSubnet) (fun res s' => s' = s ∧
      Read A s.cloud.subnet res) s := by
  refine wp_request_read rfl ?_
  simp only [State.serve]
  cases h : s.cloud.subnet
  case none => exact .inr rfl
  case some => rfl

end Manager
