import EgressGateway.Objects.Kubernetes

-- How the API server treats the objects of one kind: writes are serialised, `update` is guarded by
-- the resource version, and an object with finalizers outlives its deletion until the last one is
-- removed.

namespace Kubernetes

class Resource (α : Type) where
  meta_       : α → ObjectMeta
  withMeta    : ObjectMeta → α → α
  withStatus  : (src : α) → α → α
  clearStatus : α → α
  merge       : (before after : α) → α → α
  mergeStatus : (before after : α) → α → α

export Resource (meta_)

-- A merge patch only carries the fields that differ between `before` and `after`.
def patched {β : Type} [DecidableEq β] (before after stored : β) : β :=
  if before = after then stored else after

def GatewaySpec.merge (before after stored : GatewaySpec) : GatewaySpec where
  gatewayNodepoolName :=
    patched before.gatewayNodepoolName after.gatewayNodepoolName stored.gatewayNodepoolName
  gatewayVmssProfile :=
    patched before.gatewayVmssProfile after.gatewayVmssProfile stored.gatewayVmssProfile
  provisionPublicIps :=
    patched before.provisionPublicIps after.provisionPublicIps stored.provisionPublicIps
  publicIpPrefixId :=
    patched before.publicIpPrefixId after.publicIpPrefixId stored.publicIpPrefixId

def ObjectMeta.mergeOwners (before after stored : ObjectMeta) : ObjectMeta :=
  { stored with
    ownerReferences :=
      patched before.ownerReferences after.ownerReferences stored.ownerReferences }

instance : Resource StaticGatewayConfiguration where
  meta_                         := (·.meta_)
  withMeta m o                  := { o with meta_ := m }
  withStatus src o              := { o with status := src.status }
  clearStatus o                 := { o with status := {} }
  merge before after o          :=
    { o with
      meta_        := before.meta_.mergeOwners after.meta_ o.meta_
      spec         := before.spec.merge after.spec o.spec
      defaultRoute := patched before.defaultRoute after.defaultRoute o.defaultRoute
      excludeCidrs := patched before.excludeCidrs after.excludeCidrs o.excludeCidrs }
  mergeStatus before after o    :=
    let b := before.status; let a := after.status; let s := o.status
    { o with
      status.egressIpPrefix := patched b.egressIpPrefix a.egressIpPrefix s.egressIpPrefix
      status.gatewayServerProfile := {
        ip        := patched b.gatewayServerProfile.ip a.gatewayServerProfile.ip
                       s.gatewayServerProfile.ip
        port      := patched b.gatewayServerProfile.port a.gatewayServerProfile.port
                       s.gatewayServerProfile.port
        publicKey := patched b.gatewayServerProfile.publicKey a.gatewayServerProfile.publicKey
                       s.gatewayServerProfile.publicKey
        privateKeySecretRef :=
          patched b.gatewayServerProfile.privateKeySecretRef
            a.gatewayServerProfile.privateKeySecretRef s.gatewayServerProfile.privateKeySecretRef } }

instance : Resource GatewayLBConfiguration where
  meta_                      := (·.meta_)
  withMeta m o               := { o with meta_ := m }
  withStatus src o           := { o with status := src.status }
  clearStatus o              := { o with status := none }
  merge before after o       :=
    { o with
      meta_ := before.meta_.mergeOwners after.meta_ o.meta_
      spec  := before.spec.merge after.spec o.spec }
  mergeStatus before after o := { o with status := patched before.status after.status o.status }

instance : Resource GatewayVMConfiguration where
  meta_                      := (·.meta_)
  withMeta m o               := { o with meta_ := m }
  withStatus src o           := { o with status := src.status }
  clearStatus o              := { o with status := none }
  merge before after o       :=
    { o with
      meta_ := before.meta_.mergeOwners after.meta_ o.meta_
      spec  := before.spec.merge after.spec o.spec }
  mergeStatus before after o := { o with status := patched before.status after.status o.status }

-- Neither secrets nor pod endpoints have a status, and they are never patched.

instance : Resource Secret where
  meta_             := (·.meta_)
  withMeta m o      := { o with meta_ := m }
  withStatus _ o    := o
  clearStatus o     := o
  merge _ after o   := { o with data := after.data }
  mergeStatus _ _ o := o

instance : Resource PodEndpoint where
  meta_             := (·.meta_)
  withMeta m o      := { o with meta_ := m }
  withStatus _ o    := o
  clearStatus o     := o
  merge _ after o   := { after with meta_ := o.meta_ }
  mergeStatus _ _ o := o

namespace Store

variable {α : Type} [DecidableEq α] [Resource α]

def key (o : α) : NamespacedName :=
  (meta_ o).key

def find (xs : List α) (k : NamespacedName) : Option α :=
  xs.find? (key · = k)

def put (xs : List α) (o : α) : List α :=
  xs.map fun x => if key x = key o then o else x

def remove (xs : List α) (k : NamespacedName) : List α :=
  xs.filter (key · ≠ k)

inductive Refusal
  | notFound
  | conflict
  | alreadyExists
  | invalid
  deriving DecidableEq

-- The outcome of a write: the object as stored, and all objects afterwards.
abbrev Write (α : Type) := Except Refusal (α × List α)

def stamp (m : ObjectMeta) (clock : Nat) : ObjectMeta :=
  { m with resourceVersion := clock + 1 }

-- What is stored if `new` is written in the place of `old`. A write that changes nothing keeps the
-- version.
def revise (clock : Nat) (old new : α) : α :=
  let new := Resource.withMeta
    { meta_ new with resourceVersion := (meta_ old).resourceVersion } new
  if new = old then old else Resource.withMeta (stamp (meta_ new) clock) new

-- The status of a main resource is only changed through its status endpoint. Neither the deletion
-- timestamp nor the UID can be written at all.
def update (clock : Nat) (xs : List α) (o : α) : Write α :=
  match find xs (key o) with
  | none   => .error .notFound
  | some s =>
    if (meta_ s).uid ≠ (meta_ o).uid ∨ (meta_ s).resourceVersion ≠ (meta_ o).resourceVersion then
      .error .conflict
    else if (meta_ s).deleting ∧ ¬(meta_ o).finalizers ⊆ (meta_ s).finalizers then
      .error .invalid
    else
      let new := revise clock s <| Resource.withStatus s <| Resource.withMeta
        { meta_ o with deleting := (meta_ s).deleting } o
      if (meta_ s).deleting ∧ (meta_ o).finalizers = [] then
        .ok (new, remove xs (key o))
      else
        .ok (new, put xs new)

def updateStatus (clock : Nat) (xs : List α) (o : α) : Write α :=
  match find xs (key o) with
  | none   => .error .notFound
  | some s =>
    if (meta_ s).uid ≠ (meta_ o).uid ∨ (meta_ s).resourceVersion ≠ (meta_ o).resourceVersion then
      .error .conflict
    else
      let new := revise clock s (Resource.withStatus o s)
      .ok (new, put xs new)

-- Patches name their target by key only and are not guarded by its version.
def patch (clock : Nat) (xs : List α) (before after : α) : Write α :=
  match find xs (key after) with
  | none   => .error .notFound
  | some s =>
    let new := revise clock s (Resource.merge before after s)
    .ok (new, put xs new)

def patchStatus (clock : Nat) (xs : List α) (before after : α) : Write α :=
  match find xs (key after) with
  | none   => .error .notFound
  | some s =>
    let new := revise clock s (Resource.mergeStatus before after s)
    .ok (new, put xs new)

-- A new object starts without a status, and it must not carry a version yet.
def create (uid : String) (clock : Nat) (xs : List α) (o : α) : Write α :=
  if (meta_ o).resourceVersion ≠ 0 then
    .error .invalid
  else
    match find xs (key o) with
    | some _ => .error .alreadyExists
    | none   =>
      let new := Resource.clearStatus <| Resource.withMeta
        { stamp (meta_ o) clock with uid := uid, deleting := false } o
      .ok (new, xs ++ [new])

def delete (clock : Nat) (xs : List α) (k : NamespacedName) : Except Refusal (List α) :=
  match find xs k with
  | none   => .error .notFound
  | some s =>
    if (meta_ s).finalizers = [] then
      .ok (remove xs k)
    else
      .ok (put xs (revise clock s (Resource.withMeta { meta_ s with deleting := true } s)))

end Store

end Kubernetes
