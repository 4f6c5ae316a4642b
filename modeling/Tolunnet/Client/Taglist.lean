import Tolunnet.Task.Context

/-!
# `Tolunnet.Client.Taglist`: `SocketBaseTagList`

The tags of `SocketBaseTagList` are classified by a pure function (`common/sbtc_dispatch.c`) and
applied to the base by the library (`tn_lvo_socketbasetaglist`). One tag, `SBTC_DTABLESIZE`, replaces
the three tables of the base: the descriptors, their event words and their event masks.

A ULONG or a LONG is a `BitVec 32`, and a pointer is its address. `Caller` is what a call can change:
the base, with the part of it that only the library uses, and the memory of the client. `NextTagItem`
has passed over the control tags already, so a tag list is the list of what it yields. The addresses of
the texts that the library hands out are a parameter.
-/

set_option autoImplicit false

namespace Tolunnet

namespace Sbtc

/-! ## Tags -/

/-- The `TN_SBTC_*` codes. -/
inductive TnSbtc where
  | breakmask | sigiomask | sigurgmask | sigeventmask | errNo | herrno | dtablesize | fdcallback
  | logstat | logtagptr | logfacility | logmask | errnostrptr | herrnostrptr | ioerrnostrptr
  | s2errnostrptr | s2werrnostrptr | errnobyteptr | errnowordptr | errnolongptr | herrnolongptr
  | releasestrptr | numPacketFilterChannels | haveRoutingApi | udpChecksum | ipForwarding
  | ipDefaultTtl | icmpMaskReply | icmpSendRedirects | haveInterfaceApi | icmpProcessEcho
  | icmpProcessTstamp | haveMonitoringApi | canShareLibraryBases | logFileName | haveStatusApi
  | haveDnsApi | logHook | systemStatus | sigAddressChangeMask | ipfApiVersion
  | haveLocalDatabaseApi | haveAddressConversionApi | haveKernelMemoryApi | ipFilterHook
  | haveServerApi | getBytesReceived | getBytesSent | idnDefaultCharacterSet
  | haveRoadshowdataApi | errorHook | haveGethostaddrRApi
  deriving DecidableEq, Repr

/-- The tag a code stands for. -/
def TnSbtc.ofCode? : Nat → Option TnSbtc
  | 1 => some .breakmask | 2 => some .sigiomask | 3 => some .sigurgmask | 4 => some .sigeventmask
  | 6 => some .errNo | 7 => some .herrno | 8 => some .dtablesize | 9 => some .fdcallback
  | 10 => some .logstat | 11 => some .logtagptr | 12 => some .logfacility | 13 => some .logmask
  | 14 => some .errnostrptr | 15 => some .herrnostrptr | 16 => some .ioerrnostrptr
  | 17 => some .s2errnostrptr | 18 => some .s2werrnostrptr | 21 => some .errnobyteptr
  | 22 => some .errnowordptr | 24 => some .errnolongptr | 25 => some .herrnolongptr
  | 29 => some .releasestrptr | 40 => some .numPacketFilterChannels | 41 => some .haveRoutingApi
  | 42 => some .udpChecksum | 43 => some .ipForwarding | 44 => some .ipDefaultTtl
  | 45 => some .icmpMaskReply | 46 => some .icmpSendRedirects | 47 => some .haveInterfaceApi
  | 48 => some .icmpProcessEcho | 49 => some .icmpProcessTstamp | 50 => some .haveMonitoringApi
  | 51 => some .canShareLibraryBases | 52 => some .logFileName | 53 => some .haveStatusApi
  | 54 => some .haveDnsApi | 55 => some .logHook | 56 => some .systemStatus
  | 57 => some .sigAddressChangeMask | 58 => some .ipfApiVersion | 59 => some .haveLocalDatabaseApi
  | 60 => some .haveAddressConversionApi | 61 => some .haveKernelMemoryApi | 62 => some .ipFilterHook
  | 63 => some .haveServerApi | 64 => some .getBytesReceived | 65 => some .getBytesSent
  | 66 => some .idnDefaultCharacterSet | 67 => some .haveRoadshowdataApi | 68 => some .errorHook
  | 69 => some .haveGethostaddrRApi
  | _ => none

/-- `TN_SBTF_SET`. -/
def sbtfSet : BitVec 32 := 0x0001

/-- `TN_SBTF_REF`. -/
def sbtfRef : BitVec 32 := 0x8000

/-- `TN_SBTM_CODE`. -/
def sbtmCode (tag : BitVec 32) : Nat := ((tag >>> 1) &&& 0x3FFF).toNat

/-- What the library must do for a tag: `TnSbtcOp`. -/
inductive TnSbtcOp where
  | none | get | setSigint | setSigio | setSigurg | setSigevent | setErrno | setHerrno | setErrnoPtr
  | setHerrnoPtr | setFdcallback | setDtablesize | setLogstat | setLogtagptr | setLogfacility
  | setLogmask | setUdpchecksum | setIpdefaultttl | getErrnoStr | getHerrnoStr | getIoerrnoStr
  | getS2errnoStr | getS2werrnoStr
  deriving DecidableEq, Repr

/-- `TnSbtcResult`. -/
structure TnSbtcResult where
  handled : Bool := true
  op : TnSbtcOp := .none
  isRef : Bool := false
  value : BitVec 32 := 0
  errnoPtrWidth : Nat := 0

/-- `TnSbtcState`: the values that the classifier reads. -/
structure TnSbtcState where
  sigInt : BitVec 32
  sigIo : BitVec 32
  sigUrg : BitVec 32
  sigEvent : BitVec 32
  errnoVal : BitVec 32
  herrnoVal : BitVec 32
  errnoPtr : BitVec 32
  errnoWidth : BitVec 32
  herrnoPtr : BitVec 32
  dtablesize : BitVec 32
  fdCallback : BitVec 32
  logStat : BitVec 32
  logTagPtr : BitVec 32
  logFacility : BitVec 32
  logMask : BitVec 32
  udpChecksum : BitVec 32
  ipDefaultTtl : BitVec 32
  haveBits : BitVec 32
  releaseStr : BitVec 32

/-- `TN_SBTC_HAVE_*_BIT`. -/
def haveDnsApiBit : BitVec 32 := 0x01
def haveLocalDbApiBit : BitVec 32 := 0x02
def haveAddrConvApiBit : BitVec 32 := 0x04
def haveGethostaddrRBit : BitVec 32 := 0x08
def haveServerApiBit : BitVec 32 := 0x10

/-- `tn_sbtc_dispatch_tag`. -/
def tnSbtcDispatchTag (rawTag data : BitVec 32) (state : TnSbtcState) : TnSbtcResult :=
  let isSet := rawTag &&& sbtfSet != 0
  let isRef := rawTag &&& sbtfRef != 0
  let pass := fun op => ({ op := op, isRef := isRef, value := data } : TnSbtcResult)
  let getPlain := fun value => ({ op := .get, isRef := isRef, value := value } : TnSbtcResult)
  -- a tag that is set and read, one that is only read, a text, and the pointer to an error number
  let both := fun op value => if isSet then pass op else getPlain value
  let query := fun value => if isSet then {} else getPlain value
  let text := fun op => if isSet then {} else pass op
  let pointer := fun op width value =>
    if isSet then ({ op := op, value := data, errnoPtrWidth := width } : TnSbtcResult)
    else getPlain value
  let bit := fun b => if state.haveBits &&& b != 0 then (1 : BitVec 32) else 0
  match TnSbtc.ofCode? (sbtmCode rawTag) with
  | some .breakmask => both .setSigint state.sigInt
  | some .sigiomask => both .setSigio state.sigIo
  | some .sigurgmask => both .setSigurg state.sigUrg
  | some .sigeventmask => both .setSigevent state.sigEvent
  | some .errNo => both .setErrno state.errnoVal
  | some .herrno => both .setHerrno state.herrnoVal
  | some .dtablesize => both .setDtablesize state.dtablesize
  | some .fdcallback => both .setFdcallback state.fdCallback
  | some .logstat => both .setLogstat state.logStat
  | some .logtagptr => both .setLogtagptr state.logTagPtr
  | some .logfacility => both .setLogfacility state.logFacility
  | some .logmask => both .setLogmask state.logMask
  | some .errnostrptr => text .getErrnoStr
  | some .herrnostrptr => text .getHerrnoStr
  | some .ioerrnostrptr => text .getIoerrnoStr
  | some .s2errnostrptr => text .getS2errnoStr
  | some .s2werrnostrptr => text .getS2werrnoStr
  | some .errnobyteptr => pointer .setErrnoPtr 1 state.errnoPtr
  | some .errnowordptr => pointer .setErrnoPtr 2 state.errnoPtr
  | some .errnolongptr => pointer .setErrnoPtr 4 state.errnoPtr
  | some .herrnolongptr => pointer .setHerrnoPtr 0 state.herrnoPtr
  | some .releasestrptr => query state.releaseStr
  | some .numPacketFilterChannels => query 0
  | some .udpChecksum => both .setUdpchecksum state.udpChecksum
  | some .ipForwarding => query 0
  | some .ipDefaultTtl => both .setIpdefaultttl state.ipDefaultTtl
  | some .icmpMaskReply | some .icmpSendRedirects => query 0
  | some .icmpProcessEcho => query 1
  | some .icmpProcessTstamp | some .canShareLibraryBases | some .logFileName | some .logHook =>
    query 0
  | some .systemStatus => query 0x03
  | some .sigAddressChangeMask | some .ipfApiVersion | some .haveKernelMemoryApi
  | some .ipFilterHook | some .getBytesReceived | some .getBytesSent
  | some .idnDefaultCharacterSet | some .haveRoadshowdataApi | some .errorHook => query 0
  | some .haveServerApi => query (bit haveServerApiBit)
  | some .haveDnsApi => query (bit haveDnsApiBit)
  | some .haveLocalDatabaseApi => query (bit haveLocalDbApiBit)
  | some .haveAddressConversionApi => query (bit haveAddrConvApiBit)
  | some .haveGethostaddrRApi => query (bit haveGethostaddrRBit)
  | some .haveRoutingApi | some .haveInterfaceApi | some .haveMonitoringApi
  | some .haveStatusApi => query 0
  | none => { handled := false }

/-! ## The caller -/

/-- The fields of a `TnSocketBase` that only the library uses. -/
structure LibPart where
  sigInt : BitVec 32 := 0x1000
  sigUrg : BitVec 32 := 0
  taskErrno : BitVec 32 := 0
  taskHerrno : BitVec 32 := 0
  errnoPtr : BitVec 32 := 0
  errnoWidth : Nat := 4
  herrnoPtr : BitVec 32 := 0
  fdCallback : BitVec 32 := 0
  logStat : BitVec 32 := 0
  logTagPtr : BitVec 32 := 0
  logFacility : BitVec 32 := 0
  logMask : BitVec 32 := 0xFF
  udpChecksum : BitVec 32 := 1
  ipDefaultTtl : BitVec 32 := 64

/-- A base and the memory of its client. -/
structure Caller where
  base : TnSocketBase := {}
  lib : LibPart := {}
  mem : Mem := fun _ => 0

/-- The addresses of the texts that the library hands out. -/
structure Texts where
  tnStrerror : Int → BitVec 32
  tnHstrerror : Int → BitVec 32
  tnIoerror : Int → BitVec 32
  tnS2error : Int → BitVec 32
  tnS2werror : Int → BitVec 32
  release : BitVec 32

/-- A tag that `NextTagItem` yields. -/
structure TagItem where
  tiTag : BitVec 32
  tiData : BitVec 32
  deriving DecidableEq, Repr

/-- The answers of `AllocVec` to the three calls for new tables. -/
structure Allocs where
  nm : Bool := true
  ne : Bool := true
  nk : Bool := true
  deriving DecidableEq, Repr

/-- `EINVAL`. -/
def einval : BitVec 32 := 22

/-- `ENOMEM`. -/
def enomem : BitVec 32 := 12

/-- `TN_MAX_FDS_PER_TASK`. -/
def maxFdsPerTask : Nat := 128

/-- `TN_DEFAULT_DTABLESIZE`. -/
def defaultDtablesize : Nat := 64

/-- `tn_sbtc_ref_load`. -/
def tnSbtcRefLoad (mem : Mem) (addr : BitVec 32) : BitVec 32 := BitVec.ofNat 32 (be32 mem addr.toNat)

/-- `tn_sbtc_ref_store`. -/
def tnSbtcRefStore (mem : Mem) (addr v : BitVec 32) : Mem := poke mem addr.toNat (bytes32 v.toNat)

/-- `tn_set_errno_val`. -/
def tnSetErrnoVal (c : Caller) (err : BitVec 32) : Caller :=
  { c with
    lib := { c.lib with taskErrno := err }
    mem :=
      if c.lib.errnoPtr = 0 then c.mem
      else if c.lib.errnoWidth = 1 then poke c.mem c.lib.errnoPtr.toNat [UInt8.ofNat err.toNat]
      else if c.lib.errnoWidth = 2 then poke c.mem c.lib.errnoPtr.toNat (bytes16 err.toNat)
      else poke c.mem c.lib.errnoPtr.toNat (bytes32 err.toNat) }

/-- `tn_set_herrno_val`. -/
def tnSetHerrnoVal (c : Caller) (herr : BitVec 32) : Caller :=
  { c with
    lib := { c.lib with taskHerrno := herr }
    mem := if c.lib.herrnoPtr = 0 then c.mem else tnSbtcRefStore c.mem c.lib.herrnoPtr herr }

/-! ## `SBTC_DTABLESIZE` -/

/-- The size that is asked for, kept within its limits. -/
def clampSize (newsize : Int) : Int :=
  let newsize := if newsize < 4 then 4 else newsize
  if newsize > maxFdsPerTask then maxFdsPerTask else newsize

/-- The highest descriptor that is open, or -1. -/
def highestOpen (base : TnSocketBase) : Int :=
  match (List.range base.dtablesize).reverse.find? fun i => (base.fdMap i).isSome with
  | some i => i
  | none => -1

/-- The tables that replace those of the base. -/
def swapTables (base : TnSocketBase) (newsize : Nat) : TnSocketBase :=
  let copyN := if newsize < base.dtablesize then newsize else base.dtablesize
  { base with
    fdMap := fun i => if i < copyN then base.fdMap i else none
    events := fun i => if i < copyN then base.events i else 0
    eventMasks := fun i => if i < copyN then base.eventMasks i else 0
    dtablesize := newsize }

/-- The branch of `TN_SBTC_OP_SET_DTABLESIZE`. -/
def setDtablesize (c : Caller) (newsize : Int) (alloc : Allocs) : Except Caller Caller :=
  let newsize := clampSize newsize
  if newsize ≤ c.base.dtablesize ∧ newsize < highestOpen c.base + 1 then
    .error (tnSetErrnoVal c einval)
  else if newsize ≠ c.base.dtablesize then
    if alloc.nm && alloc.ne && alloc.nk then
      .ok { c with base := swapTables c.base newsize.toNat }
    else .error (tnSetErrnoVal c enomem)
  else .ok c

/-! ## The tag list -/

/-- What the classifier is told of a base. -/
def Caller.state (c : Caller) (x : Texts) : TnSbtcState where
  sigInt := c.lib.sigInt
  sigIo := BitVec.ofNat 32 c.base.sigIo
  sigUrg := c.lib.sigUrg
  sigEvent := BitVec.ofNat 32 c.base.sigEvent
  errnoVal := c.lib.taskErrno
  herrnoVal := c.lib.taskHerrno
  errnoPtr := c.lib.errnoPtr
  errnoWidth := BitVec.ofNat 32 c.lib.errnoWidth
  herrnoPtr := c.lib.herrnoPtr
  dtablesize := BitVec.ofNat 32 c.base.dtablesize
  fdCallback := c.lib.fdCallback
  logStat := c.lib.logStat
  logTagPtr := c.lib.logTagPtr
  logFacility := c.lib.logFacility
  logMask := c.lib.logMask
  udpChecksum := c.lib.udpChecksum
  ipDefaultTtl := c.lib.ipDefaultTtl
  haveBits := haveDnsApiBit ||| haveLocalDbApiBit ||| haveAddrConvApiBit ||| haveGethostaddrRBit |||
    haveServerApiBit
  releaseStr := x.release

/-- A value goes to where the tag points, or into the tag. -/
def putBack (c : Caller) (tag : TagItem) (isRef : Bool) (v : BitVec 32) : Caller × TagItem :=
  if isRef && tag.tiData != 0 then ({ c with mem := tnSbtcRefStore c.mem tag.tiData v }, tag)
  else (c, { tag with tiData := v })

/-- The size that a `SBTC_DTABLESIZE` tag asks for, by value or by reference. -/
def askedSize (mem : Mem) (tag : TagItem) (value : BitVec 32) : Int :=
  (if tag.tiTag &&& sbtfRef != 0 && value != 0 then tnSbtcRefLoad mem value else value).toInt

/-- The operation of a tag is applied to the base. An error is a `return` from the call. -/
def applyOp (x : Texts) (c : Caller) (tag : TagItem) (r : TnSbtcResult) (alloc : Allocs) :
    Except Caller (Caller × TagItem) :=
  let given := if r.isRef && r.value != 0 then tnSbtcRefLoad c.mem r.value else r.value
  let setLib := fun lib : LibPart => Except.ok ({ c with lib := lib }, tag)
  let text := fun str : Int → BitVec 32 =>
    let err := if r.isRef && tag.tiData != 0 then tnSbtcRefLoad c.mem tag.tiData else r.value
    Except.ok (putBack c tag r.isRef (str err.toInt))
  match r.op with
  | .get => .ok (putBack c tag r.isRef r.value)
  | .setSigint => setLib { c.lib with sigInt := given }
  | .setSigio => .ok ({ c with base := { c.base with sigIo := given.toNat } }, tag)
  | .setSigurg => setLib { c.lib with sigUrg := given }
  | .setSigevent => .ok ({ c with base := { c.base with sigEvent := given.toNat } }, tag)
  | .setErrno => .ok (tnSetErrnoVal c given, tag)
  | .setHerrno => .ok (tnSetHerrnoVal c given, tag)
  | .setErrnoPtr => setLib { c.lib with errnoPtr := r.value, errnoWidth := r.errnoPtrWidth }
  | .setHerrnoPtr => setLib { c.lib with herrnoPtr := r.value }
  | .setFdcallback => setLib { c.lib with fdCallback := given }
  | .setLogstat => setLib { c.lib with logStat := given }
  | .setLogtagptr => setLib { c.lib with logTagPtr := given }
  | .setLogfacility => setLib { c.lib with logFacility := given }
  | .setLogmask => setLib { c.lib with logMask := given }
  | .setUdpchecksum => setLib { c.lib with udpChecksum := given }
  | .setIpdefaultttl => setLib { c.lib with ipDefaultTtl := given }
  | .setDtablesize => (setDtablesize c (askedSize c.mem tag r.value) alloc).map fun c => (c, tag)
  | .getErrnoStr => text x.tnStrerror
  | .getHerrnoStr => text x.tnHstrerror
  | .getIoerrnoStr => text x.tnIoerror
  | .getS2errnoStr => text x.tnS2error
  | .getS2werrnoStr => text x.tnS2werror
  | .none => .ok (c, tag)

/-- One turn of the loop. -/
def tagTurn (x : Texts) (c : Caller) (tag : TagItem) (alloc : Allocs) :
    Except Caller (Caller × TagItem) :=
  let r := tnSbtcDispatchTag tag.tiTag tag.tiData (c.state x)
  if r.handled then applyOp x c tag r alloc else .error c

/-- The loop: the result of the call, what it leaves of the caller, and the tags. -/
def tagLoop (x : Texts) : List TagItem → List Allocs → Int → Caller → Int × Caller × List TagItem
  | [], _, _, c => (0, c, [])
  | tag :: tags, env, idx, c =>
    match tagTurn x c tag (env.headD {}) with
    | .error c => (idx + 1, c, tag :: tags)
    | .ok (c, tag) =>
      let (r, c, tags) := tagLoop x tags env.tail (idx + 1) c
      (r, c, tag :: tags)

/-- `tn_lvo_socketbasetaglist`. A null tag list is `none`. -/
def tnLvoSocketbasetaglist (x : Texts) (c : Caller) (env : List Allocs) :
    Option (List TagItem) → Int × Caller × List TagItem
  | none => (0, c, [])
  | some tags => tagLoop x tags env 0 c

end Sbtc

end Tolunnet
