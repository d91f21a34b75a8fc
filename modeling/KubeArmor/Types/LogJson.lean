import KubeArmor.Go.Json
import KubeArmor.Types.Log

/-!
# `tp.Log` as `json.Marshal` writes it and `json.Unmarshal` reads it

The `json` tags of `tp.Log` name each field and mark eight of its strings `omitempty`.
`structEncoder` writes the fields in declaration order, skipping an `omitempty` field whose value
is empty, each as its quoted name, a colon and its value. The decoder stores each member in the
field its key names: the field with exactly that name, or else the first whose name matches the
key with case folded (`foldFunc`). A member with no such field is skipped, `null` leaves a field as
it is, and a value of the wrong kind is an `UnmarshalTypeError`.

A field is addressed by `LogField`, and its value read and written by `Log.get` and `Log.set`, as
`reflect` does by index.
-/

namespace KubeArmor.Types

open KubeArmor.Go

/-- The fields of `tp.Log`, in declaration order. -/
inductive LogField where
  | updatedTime | hostName | namespaceName | podName | containerID | containerName
  | hostPID | ppid | pid | uid | policyName | severity | tags | message
  | type | source | operation | resource | data | action | result
  deriving DecidableEq, Repr

/-- Every field, in declaration order. -/
def LogField.all : List LogField :=
  [.updatedTime, .hostName, .namespaceName, .podName, .containerID, .containerName,
    .hostPID, .ppid, .pid, .uid, .policyName, .severity, .tags, .message,
    .type, .source, .operation, .resource, .data, .action, .result]

/-- The name the field's `json` tag gives it. -/
def LogField.key : LogField → GoString
  | .updatedTime => lit "updatedTime"
  | .hostName => lit "hostName"
  | .namespaceName => lit "namespaceName"
  | .podName => lit "podName"
  | .containerID => lit "containerID"
  | .containerName => lit "containerName"
  | .hostPID => lit "hostPid"
  | .ppid => lit "ppid"
  | .pid => lit "pid"
  | .uid => lit "uid"
  | .policyName => lit "policyName"
  | .severity => lit "severity"
  | .tags => lit "tags"
  | .message => lit "message"
  | .type => lit "type"
  | .source => lit "source"
  | .operation => lit "operation"
  | .resource => lit "resource"
  | .data => lit "data"
  | .action => lit "action"
  | .result => lit "result"

/-- Whether the field's tag says `omitempty`. -/
def LogField.omitEmpty : LogField → Bool
  | .namespaceName | .podName | .containerID | .containerName | .policyName | .severity | .tags
  | .message | .data | .action => true
  | _ => false

/-- Whether the field is an `int32`; the others are strings. -/
def LogField.isInt : LogField → Bool
  | .hostPID | .ppid | .pid | .uid => true
  | _ => false

/-- The value of a field. -/
inductive FieldValue where
  | string (s : GoString)
  | int32 (v : BitVec 32)
  deriving DecidableEq, Repr

/-- The value of field `f` of `l`. -/
def Log.get (l : Log) : LogField → FieldValue
  | .updatedTime => .string l.updatedTime
  | .hostName => .string l.hostName
  | .namespaceName => .string l.namespaceName
  | .podName => .string l.podName
  | .containerID => .string l.containerID
  | .containerName => .string l.containerName
  | .hostPID => .int32 l.hostPID
  | .ppid => .int32 l.ppid
  | .pid => .int32 l.pid
  | .uid => .int32 l.uid
  | .policyName => .string l.policyName
  | .severity => .string l.severity
  | .tags => .string l.tags
  | .message => .string l.message
  | .type => .string l.type
  | .source => .string l.source
  | .operation => .string l.operation
  | .resource => .string l.resource
  | .data => .string l.data
  | .action => .string l.action
  | .result => .string l.result

/-- `l` with field `f` set to `v`; a value of the other kind leaves `l` as it is. -/
def Log.set (l : Log) : LogField → FieldValue → Log
  | .updatedTime, .string s => { l with updatedTime := s }
  | .hostName, .string s => { l with hostName := s }
  | .namespaceName, .string s => { l with namespaceName := s }
  | .podName, .string s => { l with podName := s }
  | .containerID, .string s => { l with containerID := s }
  | .containerName, .string s => { l with containerName := s }
  | .hostPID, .int32 v => { l with hostPID := v }
  | .ppid, .int32 v => { l with ppid := v }
  | .pid, .int32 v => { l with pid := v }
  | .uid, .int32 v => { l with uid := v }
  | .policyName, .string s => { l with policyName := s }
  | .severity, .string s => { l with severity := s }
  | .tags, .string s => { l with tags := s }
  | .message, .string s => { l with message := s }
  | .type, .string s => { l with type := s }
  | .source, .string s => { l with source := s }
  | .operation, .string s => { l with operation := s }
  | .resource, .string s => { l with resource := s }
  | .data, .string s => { l with data := s }
  | .action, .string s => { l with action := s }
  | .result, .string s => { l with result := s }
  | _, _ => l

/-! ## Encoding -/

/-- `isEmptyValue`: the empty string, the zero integer. -/
def FieldValue.isEmpty : FieldValue → Bool
  | .string s => s.isEmpty
  | .int32 v => v == 0

/-- The value as `structEncoder` writes it: a string literal, or the integer in decimal. -/
def FieldValue.encode : FieldValue → List UInt8
  | .string s => quote s
  | .int32 v => itoa v.toInt

/-- The member written for field `f` of `l`, `none` when `omitempty` drops it. -/
def member (l : Log) (f : LogField) : Option (List UInt8) :=
  if f.omitEmpty ∧ (l.get f).isEmpty then none
  else some (34 :: f.key ++ [34, 58] ++ (l.get f).encode)

/-- The loop of `structEncoder.encode`: each member after `next`, which is `{` before the first
and `,` after it; `{}` when no member is written. -/
def encodeMembers (next : UInt8) : List (List UInt8) → List UInt8
  | [] => if next = 123 then [123, 125] else [125]
  | m :: ms => next :: m ++ encodeMembers 44 ms

/-- `json.Marshal(log)`. -/
def marshalLog (l : Log) : List UInt8 := encodeMembers 123 (LogField.all.filterMap (member l))

/-! ## Decoding -/

/-- The field a key names: the one with exactly that name, else the first whose name matches the
key with case folded. -/
def fieldOfKey (key : GoString) : Option LogField :=
  match LogField.all.find? (fun f => f.key == key) with
  | some f => some f
  | none => LogField.all.find? fun f => foldEqual f.key key

/-- `literalStore` of a member's value into field `f` of `l`. -/
def storeValue (l : Log) (f : LogField) : Value → Option Log
  | .null => some l
  | .string s => if f.isInt then none else some (l.set f (.string s))
  | .number n => if f.isInt then (parseInt32 n).map fun v => l.set f (.int32 v) else none
  | .bool _ => none

/-- The members of an object stored into `l` in order, `none` on a type error. -/
def storeMembers : List (GoString × Value) → Log → Option Log
  | [], l => some l
  | (key, v) :: ms, l =>
    match fieldOfKey key with
    | none => storeMembers ms l
    | some f => (storeValue l f v).bind (storeMembers ms)

/-- `json.Unmarshal(data, &log)` into a zero `Log`: the log, or `none` for an error. A top-level
`null` leaves the log zero. -/
def unmarshalLog (data : List UInt8) : Option Log :=
  match skipSpace data with
  | 110 :: 117 :: 108 :: 108 :: s => if skipSpace s = [] then some {} else none
  | _ =>
    match parseObject data with
    | some (ms, s) => if skipSpace s = [] then storeMembers ms {} else none
    | none => none

/-- What a field's value reads back as: a string as `string([]rune(s))`. -/
def FieldValue.toValid : FieldValue → FieldValue
  | .string s => .string (toValidUtf8 s)
  | v => v

/-- The log with each string field as `string([]rune(s))`. -/
def Log.toValidUtf8 (l : Log) : Log :=
  { l with
    updatedTime := Go.toValidUtf8 l.updatedTime, hostName := Go.toValidUtf8 l.hostName
    namespaceName := Go.toValidUtf8 l.namespaceName, podName := Go.toValidUtf8 l.podName
    containerID := Go.toValidUtf8 l.containerID, containerName := Go.toValidUtf8 l.containerName
    policyName := Go.toValidUtf8 l.policyName, severity := Go.toValidUtf8 l.severity
    tags := Go.toValidUtf8 l.tags, message := Go.toValidUtf8 l.message
    type := Go.toValidUtf8 l.type, source := Go.toValidUtf8 l.source
    operation := Go.toValidUtf8 l.operation, resource := Go.toValidUtf8 l.resource
    data := Go.toValidUtf8 l.data, action := Go.toValidUtf8 l.action
    result := Go.toValidUtf8 l.result }

end KubeArmor.Types
