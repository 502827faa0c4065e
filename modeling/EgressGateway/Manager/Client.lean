import EgressGateway.Manager.Platform

-- The helpers of `controllerutil` that the controllers call, and the metric of a reconcile.

open Kubernetes Program

namespace Manager

variable [CaseFold]

-- `SetControllerReference`: an object has at most one controller, and a reference to an owner of the same
-- name is replaced.
def setControllerReference (owner object : ObjectMeta) : Except Err ObjectMeta :=
  if object.ownerReferences.any fun r => r.controller && r.name ≠ owner.key.name then
    .error (Err.errorf ("Object " ++ object.key.text ++ " is already owned by another controller"))
  else
    let ref := { name := owner.key.name, uid := owner.uid, controller := true }
    let refs := object.ownerReferences
    .ok { object with
      ownerReferences :=
        if refs.any (·.name = owner.key.name) then
          refs.map fun r => if r.name = owner.key.name then ref else r
        else refs ++ [ref] }

-- An object that only has a name yet.
def named (key : NamespacedName) : ObjectMeta where
  key := key
  uid := ""

section

variable (k : Kind)

-- The final write of the load balancer and the virtual machine controller: its error is only logged.
def storeStatus (existing o : Obj k) : M Unit :=
  when (existing ≠ o) do
    let _ ← attempt (request (.updateStatus k o))
    ret ()

def ensureFinalizer (finalizer : String) (o : Obj k) : M (Obj k) :=
  if containsFinalizer (meta_ o) finalizer then
    ret o
  else
    request (.update k (Resource.withMeta (addFinalizer (meta_ o) finalizer) o))

def releaseFinalizer (finalizer : String) (o : Obj k) : M (Obj k) :=
  request (.update k (Resource.withMeta (removeFinalizer (meta_ o) finalizer) o))

-- Only what has changed is patched, and the status is patched on its own.
def patchChanges (before after : Obj k) : M (Obj k) :=
  if Resource.withStatus before after ≠ before then do
    let patched ← request (.patch k before after)
    if Resource.withStatus after before ≠ before then
      request (.patchStatus k before (Resource.withStatus after patched))
    else ret patched
  else if after ≠ before then
    request (.patchStatus k before after)
  else
    ret after

-- Returns the object as `mutate` leaves it, and as it is stored then.
def createOrPatch (o : Obj k) (mutate : Obj k → M (Obj k)) : M (Obj k × Obj k) := do
  match ← attempt (request (.get k (Store.key o))) with
  | .error e   =>
    if e.isNotFound then do
      let o ← mutate o
      let stored ← request (.create k o)
      ret (o, stored)
    else throw e
  | .ok before => do
    let after ← mutate before
    let stored ← patchChanges k before after
    ret (after, stored)

def createOrUpdate (o : Obj k) (mutate : Obj k → M (Obj k)) : M (Obj k) := do
  match ← attempt (request (.get k (Store.key o))) with
  | .error e   =>
    if e.isNotFound then do
      let o ← mutate o
      request (.create k o)
    else throw e
  | .ok before => do
    let after ← mutate before
    if after ≠ before then request (.update k after) else ret after

end

-- What a reconcile leaves in the hands of its caller: the error that it returns, or the object as it was
-- computed before the final write, and the flag with which the deferred call reports its metric.
structure Observed (α : Type) where
  result    : Except Err α
  succeeded : Bool

-- An early return finds the flag unset.
def Observed.of {α : Type} : Except Err (Except Err α) → Observed α
  | .error e => ⟨.error e, false⟩
  | .ok r    => ⟨r, true⟩

def observed {α : Type} (body : M (Except Err α)) : M (Observed α) := do
  let r ← attempt body
  ret (.of r)

end Manager
