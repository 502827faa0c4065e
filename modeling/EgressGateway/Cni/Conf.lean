import Mathlib.Logic.Function.Basic
import EgressGateway.Base.Text
import EgressGateway.Objects.Error

-- `pkg/cni/conf`: how the CNI manager puts its own plugin into the plugin chain of a node.

open Text

namespace Cni

-- What `encoding/json` decodes into an empty interface. An object is a Go map, so that the order of
-- its keys is lost, and a number is a `float64`, given by its bits.
inductive Json
  | null
  | bool (b : Bool)
  | num (bits : UInt64)
  | str (s : String)
  | arr (values : List Json)
  | obj (fields : String → Option Json)

abbrev Object := String → Option Json

namespace Object

def empty : Object :=
  fun _ => none

def set (o : Object) (key : String) (v : Json) : Object :=
  Function.update o key (some v)

-- The builtin `delete`.
def delete (o : Object) (key : String) : Object :=
  Function.update o key none

end Object

-- What reading a file and decoding its content as an object can give.
inductive ConfFile
  | unreadable (e : Err)
  | malformed (e : Err)
  | object (fields : Object)

structure ConfManager where
  exceptionCidrs : List String
  grpcPort       : Int

def kubeEgressCNIName : String := "kube-egress-cni"
def kubeEgressIPAMCNIName : String := "kube-egress-cni-ipam"

def readConf (file : String) : ConfFile → Except Err Object
  | .unreadable e => .error (e.wrap ("failed to read cni config file " ++ file ++ ": "))
  | .malformed e  => .error (e.wrap ("failed to unmarshal cni config from file " ++ file ++ ": "))
  | .object o     => .ok o

def sliceOutOfRange : Err where
  code := .panic
  text := "slice bounds out of range"

namespace ConfManager

variable [CaseFold] (mgr : ConfManager) (file : String)

-- The entry that both functions below insert.
def plugin : Json :=
  .obj (Object.empty
    |>.set "type" (.str kubeEgressCNIName)
    |>.set "ipam" (.obj (Object.empty.set "type" (.str kubeEgressIPAMCNIName)))
    |>.set "excludedCIDRs" (.arr (mgr.exceptionCidrs.map .str))
    |>.set "socketPath" (.str ("localhost:" ++ toString mgr.grpcPort)))

def setVersion (rawConf rawList : Object) : Except Err (Object × Object) :=
  match rawConf "cniVersion" with
  | none          => .ok (rawConf, rawList)
  | some (.str v) => .ok (rawConf.delete "cniVersion", rawList.set "cniVersion" (.str v))
  -- The failed assertion has already overwritten the value that the message prints.
  | some _        => .error (.errorf "cniVersion () is not in string format")

def managePluginFromConf (conf : ConfFile) : Except Err Object := do
  let rawConf ← readConf file conf
  match rawConf "name" with
  | none             => .error (.errorf ("failed to find network name in " ++ file))
  | some networkName =>
    let (rawConf, rawList) ← setVersion (rawConf.delete "name") (Object.empty.set "name" networkName)
    .ok (rawList.set "plugins" (.arr [.obj rawConf, mgr.plugin]))

def isOwnType : Json → Bool
  | .str cniType => equalFold cniType kubeEgressCNIName
  | _            => false

-- The loop that drops the first entry of the plugin's own type and breaks: what follows that entry is
-- not looked at.
def removePlugin : List Json → Except Err (List Json)
  | []                => .ok []
  | .obj p :: plugins =>
    match p "type" with
    | none         => .error (.errorf ("failed to find type in plugin conf in file " ++ file))
    | some cniType =>
      if isOwnType cniType then .ok plugins
      else (.obj p :: ·) <$> removePlugin plugins
  | _ :: _            => .error (.errorf ("failed to parse plugin conf in file " ++ file))

-- The two nested calls of `append`. The inner one copies `plugins[1:]` before the outer one writes
-- into the array behind `plugins`, so nothing is overwritten; but `plugins[1:]` of an empty slice is
-- out of range.
def insertPlugin (plugins : List Json) : Except Err (List Json) :=
  if plugins.length < 1 then .error sliceOutOfRange
  else .ok (plugins.take 1 ++ mgr.plugin :: plugins.drop 1)

def managePluginFromConfList (conf : ConfFile) : Except Err Object := do
  let rawList ← readConf file conf
  match rawList "plugins" with
  | none                => .error (.errorf ("failed to find plugins in cni config file " ++ file))
  | some (.arr plugins) =>
    if plugins.length = 0 then .error (.errorf ("empty plugin list in cni config file " ++ file))
    else do
      let plugins ← removePlugin file plugins
      let plugins ← mgr.insertPlugin plugins
      .ok (rawList.set "plugins" (.arr plugins))
  | some _              => .error (.errorf ("plugins field is not an array in " ++ file))

end ConfManager
end Cni
