import KubeArmor.Types.Log

/-!
# What the system monitor receives and reads

An event reaches the log builder as a `ContextCombined`: the container it was attributed to, the
fixed-layout syscall context (`ContextSys`), and the syscall's arguments (`ContextArgs`), a
`[]interface{}` whose elements the builder inspects by type assertion. `Arg` keeps the dynamic
types the assertions ask for: `string`, `int32` and `map[string]string`; any other value fails
every assertion.

The declarations of these types, of the syscall constants and of the process tree lie outside the
modelled files. The monitor's own lookups (`GetExecPath`, `getSyscallName`, `getErrorMessage`)
are taken as given functions (`Tables`), and the syscall constants as `Syscalls`, whose switch
cases Go requires to be distinct. A `switch` on a tag runs the first case whose constant equals
the tag: the lookup of the tag in `Syscalls.cases`.

A Go map is iterated in an unspecified order that the runtime randomises from one `range` loop
to the next. `RangeOrder` is that choice, made by the runtime: any permutation of the entries.
-/

namespace KubeArmor.Monitor

open KubeArmor.Go KubeArmor.Types

/-- A `map[string]string` socket address: its entries, keys distinct, in no particular order. -/
structure SockAddr where
  entries : List (GoString × GoString)
  keys_nodup : (entries.map Prod.fst).Nodup

/-- An element of `ContextArgs`, by dynamic type. -/
inductive Arg where
  | str (s : GoString)
  | int32 (v : BitVec 32)
  | sockAddr (m : SockAddr)
  | other

/-- `val.(string)`, defaulting to `""` as the source's `var x string` does. -/
def Arg.asString : Arg → GoString
  | .str s => s
  | _ => []

/-- `strconv.Itoa(int(val.(int32)))`, defaulting to `""`. -/
def Arg.asItoa : Arg → GoString
  | .int32 v => itoa v.toInt
  | _ => []

/-- `val.(map[string]string)`, defaulting to the nil map. -/
def Arg.asSockAddr : Arg → List (GoString × GoString)
  | .sockAddr m => m.entries
  | _ => []

/-- The 16-byte `Comm` array of the syscall context. -/
structure Comm where
  bytes : List UInt8
  length_eq : bytes.length = 16

/-- The syscall context fields the log builder reads. -/
structure ContextSys where
  hostPID : UInt32
  ppid : UInt32
  pid : UInt32
  uid : UInt32
  eventID : Int
  retval : Int
  comm : Comm

/-- `ContextCombined`: one event on `mon.ContextChan`. -/
structure ContextCombined where
  containerID : GoString
  contextSys : ContextSys
  contextArgs : List Arg

/-- The syscall numbers and the errno the monitor compares against. The eight cases of
`UpdateLogs`'s switch are distinct, as Go requires of constant switch cases. -/
structure Syscalls where
  sysOpen : Int
  sysOpenat : Int
  sysClose : Int
  sysSocket : Int
  sysConnect : Int
  sysAccept : Int
  sysBind : Int
  sysListen : Int
  sysExecve : Int
  sysExecveat : Int
  permissionDenied : Int
  cases_nodup :
    [sysOpen, sysOpenat, sysClose, sysSocket, sysConnect, sysAccept, sysBind, sysListen].Nodup

/-- The cases of the switch in `UpdateLogs`, in source order. -/
inductive SyscallCase where
  | sysOpen | sysOpenat | sysClose | sysSocket | sysConnect | sysAccept | sysBind | sysListen
  deriving DecidableEq, Repr

/-- The constant a case of the switch compares the event ID with. -/
def Syscalls.const (sys : Syscalls) : SyscallCase → Int
  | .sysOpen => sys.sysOpen
  | .sysOpenat => sys.sysOpenat
  | .sysClose => sys.sysClose
  | .sysSocket => sys.sysSocket
  | .sysConnect => sys.sysConnect
  | .sysAccept => sys.sysAccept
  | .sysBind => sys.sysBind
  | .sysListen => sys.sysListen

/-- The switch's cases with their constants, in source order. -/
def Syscalls.cases (sys : Syscalls) : List (Int × SyscallCase) :=
  [.sysOpen, .sysOpenat, .sysClose, .sysSocket, .sysConnect, .sysAccept, .sysBind, .sysListen].map
    fun c => (sys.const c, c)

/-- The event IDs the switch of `UpdateLogs` handles. -/
def Syscalls.handled (sys : Syscalls) : List Int :=
  [sys.sysOpen, sys.sysOpenat, sys.sysClose, sys.sysSocket, sys.sysConnect, sys.sysAccept,
    sys.sysBind, sys.sysListen]

/-- The x86-64 numbering, with `-EACCES` for a denied permission. -/
def Syscalls.amd64 : Syscalls where
  sysOpen := 2
  sysOpenat := 257
  sysClose := 3
  sysSocket := 41
  sysConnect := 42
  sysAccept := 43
  sysBind := 49
  sysListen := 50
  sysExecve := 59
  sysExecveat := 322
  permissionDenied := -13
  cases_nodup := by decide

/-- The monitor's lookups outside the modelled files: the process tree's `GetExecPath`, and the
syscall-name and errno tables. -/
structure Tables where
  getExecPath : GoString → UInt32 → GoString
  getSyscallName : Int → GoString
  getErrorMessage : Int → GoString

/-- The fields of `SystemMonitor` the log builder reads: the host name, the container registry
`*mon.Containers` keyed by container ID, the auditd option, and whether `LogFeeder` is set. -/
structure SystemMonitor where
  hostName : GoString
  containers : List (GoString × Container)
  enableAuditd : Bool
  logFeeder : Bool

/-- The order one `range` loop visits a map's entries in, as the runtime chooses it. -/
structure RangeOrder where
  visit : List (GoString × GoString) → List (GoString × GoString)
  perm : ∀ m, (visit m).Perm m

/-- A `range` that visits the entries in the order they are listed. -/
def RangeOrder.inOrder : RangeOrder := ⟨id, fun _ => .refl _⟩

/-- A `range` that visits the entries in the reverse of the listed order. -/
def RangeOrder.reversed : RangeOrder := ⟨List.reverse, List.reverse_perm⟩

/-- What the runtime supplies with one receive from `ContextChan`: the event, the clock's
reading for `GetDateTimeNow`, and the iteration order of the event's map. -/
structure Received where
  msg : ContextCombined
  now : GoString
  order : RangeOrder

end KubeArmor.Monitor
