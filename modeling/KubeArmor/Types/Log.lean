import KubeArmor.Go.Basic

/-!
# The records of the log pipeline

`Log` is `tp.Log` of `types/types.go`: the record the log builder fills, `PushLog` writes to the
local sink as JSON and copies into the protobuf `PbLog` (`pb.Log` of `kubearmor.proto`) for the
RPC stream. `PbMessage` is `pb.Message`, the item of the agent's message stream.

Go's `int32` fields are 32-bit vectors, read as signed through `BitVec.toInt`. Every field has
the Go zero value as its default, so `{}` is `tp.Log{}`.

Of `tp.Container` only the three names the log builder reads are kept; the container's
identifiers, image, labels and profiles are read by no modelled function.
-/

namespace KubeArmor.Types

open KubeArmor.Go

/-- The names of a registered container, as `*mon.Containers` holds them. -/
structure Container where
  namespaceName : GoString
  containerGroupName : GoString
  containerName : GoString
  deriving DecidableEq, Repr

/-- `tp.Log`. -/
structure Log where
  updatedTime : GoString := []
  hostName : GoString := []
  namespaceName : GoString := []
  podName : GoString := []
  containerID : GoString := []
  containerName : GoString := []
  hostPID : BitVec 32 := 0
  ppid : BitVec 32 := 0
  pid : BitVec 32 := 0
  uid : BitVec 32 := 0
  policyName : GoString := []
  severity : GoString := []
  tags : GoString := []
  message : GoString := []
  type : GoString := []
  source : GoString := []
  operation : GoString := []
  resource : GoString := []
  data : GoString := []
  action : GoString := []
  result : GoString := []
  deriving DecidableEq, Repr

/-- `pb.Log`: the fields of `tp.Log`, and the cluster's name. -/
structure PbLog where
  updatedTime : GoString := []
  clusterName : GoString := []
  hostName : GoString := []
  namespaceName : GoString := []
  podName : GoString := []
  containerID : GoString := []
  containerName : GoString := []
  hostPID : BitVec 32 := 0
  ppid : BitVec 32 := 0
  pid : BitVec 32 := 0
  uid : BitVec 32 := 0
  policyName : GoString := []
  severity : GoString := []
  tags : GoString := []
  message : GoString := []
  type : GoString := []
  source : GoString := []
  operation : GoString := []
  resource : GoString := []
  data : GoString := []
  action : GoString := []
  result : GoString := []
  deriving DecidableEq, Repr

/-- `pb.Message`: one line of the agent's own diagnostics. -/
structure PbMessage where
  updatedTime : GoString := []
  clusterName : GoString := []
  hostName : GoString := []
  hostIP : GoString := []
  level : GoString := []
  message : GoString := []
  deriving DecidableEq, Repr

/-- The fields a `pb.Log` shares with `tp.Log`: the record without the cluster's name. -/
def PbLog.toLog (l : PbLog) : Log where
  updatedTime := l.updatedTime
  hostName := l.hostName
  namespaceName := l.namespaceName
  podName := l.podName
  containerID := l.containerID
  containerName := l.containerName
  hostPID := l.hostPID
  ppid := l.ppid
  pid := l.pid
  uid := l.uid
  policyName := l.policyName
  severity := l.severity
  tags := l.tags
  message := l.message
  type := l.type
  source := l.source
  operation := l.operation
  resource := l.resource
  data := l.data
  action := l.action
  result := l.result

end KubeArmor.Types
