import Tolunnet.Common.Bytes
import Tolunnet.Common.ConfigText

/-!
# `Tolunnet.Common.PrefsFile`: loading and saving the preferences

`prefs.c` and `safe_replace.c`. A store is a file with the two names beside it that a save uses,
`<path>_tmp` and `<path>.bak`; `tn_prefs_open_recover` looks at all three. A file is read as text
or, when its first bytes are not printable, as the image of an older `TnPrefs`.

The loader reads local variables before it writes them: the second header byte of a file with one
byte, and the `TnPrefs` of `tn_prefs_read_blob`, which `tn_prefs_default` does not fill. `Junk`
is what they hold.

A save is a sequence of dos.library calls on the three names. `DosState` has the answers to the
calls still to come and collects the disks that the calls leave behind: the states in which a
power cut can find the store.
-/

set_option autoImplicit false

namespace Tolunnet

/-! ## Stores -/

/-- The names of a store: the file, `<path>_tmp` and `<path>.bak`. -/
inductive DosName where
  | path | tmp | bak
  deriving DecidableEq, Repr

/-- The files at the three names. -/
abbrev Disk (F : Type) := DosName → Option F

/-- A file of a store: `Open` and `ExamineFH` may be refused on it. -/
structure StoreFile where
  content : List Char
  date : Nat := 0
  openable : Bool := true
  examinable : Bool := true

/-- The four stores of the configuration: `DEVS:tolunnet.config`, `ENV:tolunnet.prefs`,
`ENVARC:tolunnet.prefs` and `DEVS:tolunet.config` of old installations. -/
structure ConfigStores where
  devs : Disk StoreFile := fun _ => none
  env : Option StoreFile := none
  envarc : Disk StoreFile := fun _ => none
  legacy : Option StoreFile := none

/-- `tn_prefs_open_recover`: the other two names are tried only when there is no file at the
path. -/
def tnPrefsOpenRecover {F : Type} (openable : F → Bool) (d : Disk F) : Option F :=
  match d .path with
  | some f => if openable f then some f else none
  | none =>
    match (d .tmp).filter openable with
    | some f => some f
    | none => (d .bak).filter openable

/-! ## Reading -/

/-- What uninitialised local variables hold. -/
structure Junk where
  header1 : Nat := 0
  tmp : Mem := fun _ => 0

/-- `sizeof(TnPrefs)` and `offsetof(TnPrefs, hostname)`. -/
def sizeofPrefs : Nat := 460
def offsetofHostname : Nat := 150

/-- The preferences that an image of the structure holds. -/
def decodePrefs (f : Mem) : TnPrefs :=
  { device := cstrAt f 0 64, unit := be32 f 64, useDhcp := toShort (be16 f 68),
    ipAddr := cstrAt f 70 20, netmask := cstrAt f 90 20, gateway := cstrAt f 110 20,
    dnsServer := cstrAt f 130 20, hostname := cstrAt f 150 64, dns2 := cstrAt f 214 20,
    mtu := be32 f 234, debug := be32 f 238, priority := toLong (be32 f 242),
    logFile := cstrAt f 246 64, logLevel := toLong (be32 f 310),
    databaseOrder := cstrAt f 314 40, selectors := be32 f 354, stats := toShort (be16 f 358),
    syslogHost := cstrAt f 360 48, s2events := be32 f 408, dnsPort := be32 f 412,
    dnsPendingMax := be32 f 416, dnsRetries := be32 f 420, txQueue := be32 f 424,
    font := cstrAt f 428 24, diag := be32 f 452, autoip := toShort (be16 f 456),
    mdns := toShort (be16 f 458) }

/-- The image after `tn_prefs_default`: the strings are written with their terminator, what
stands behind it stays, and so do the two fields that are not assigned. -/
def defaultImage (f : Mem) : Mem :=
  let p := tnPrefsDefault (decodePrefs f)
  let long := fun f off v => poke f off (bytes32 v)
  let bool := fun f off (v : Int) => poke f off (bytes16 (v % 2 ^ 16).toNat)
  let f := long (pokeStr f 0 p.device) 64 p.unit
  let f := pokeStr (pokeStr (bool f 68 p.useDhcp) 70 p.ipAddr) 90 p.netmask
  let f := pokeStr (pokeStr (pokeStr f 110 p.gateway) 130 p.dnsServer) 150 p.hostname
  let f := long (long (pokeStr f 214 p.dns2) 234 p.mtu) 238 p.debug
  let f := long (pokeStr (long f 242 (toUlong p.priority)) 246 p.logFile) 310 (toUlong p.logLevel)
  let f := bool (long (pokeStr f 314 p.databaseOrder) 354 p.selectors) 358 p.stats
  let f := long (long (pokeStr f 360 p.syslogHost) 408 p.s2events) 412 p.dnsPort
  let f := long (pokeStr (long f 424 p.txQueue) 428 p.font) 452 p.diag
  bool (bool f 456 p.autoip) 458 p.mdns

/-- `tn_prefs_read_blob`: the bytes of the file go over the defaults. -/
def tnPrefsReadBlob (junk : Junk) (content : List Char) : Option TnPrefs :=
  let read := (content.take sizeofPrefs).map charByte
  if offsetofHostname ≤ read.length ∧ read.length ≤ sizeofPrefs then
    some (decodePrefs (poke (defaultImage junk.tmp) 0 read))
  else none

/-- Whether a header byte is neither printable nor a line end or a tab. -/
def isBinaryByte (b : Nat) : Bool := decide (b < 32) && b != 9 && b != 13 && b != 10

/-- One turn of the loop of `tn_prefs_read_file` on what `FGets` returned. -/
def readChunk (prefs : TnPrefs) (chunk : List Char) : TnPrefs :=
  let line := cString chunk
  match line.dropWhile (· ≠ '=') with
  | [] => prefs
  | _ :: val =>
    tnConfigParseLine prefs (line.takeWhile (· ≠ '='))
      (val.dropWhile fun c => c == ' ' || c == '\t')

/-- What `FGets` with a buffer of 128 bytes returns for a file. -/
def fgetsChunks (content : List Char) : List (List Char) := Lines.fgets '\n' lineMax content

/-- The text branch of `tn_prefs_read_file`. -/
def readText (prefs : TnPrefs) (content : List Char) : TnPrefs :=
  (fgetsChunks content).foldl readChunk prefs

/-- Whether `FGets` returned a line with an `=` in it (`parsed_any`). -/
def parsedAny (content : List Char) : Bool :=
  (fgetsChunks content).any fun chunk => (cString chunk).contains '='

/-- Whether the header of a file looks like the image of a structure. The second byte of a file
that has only one is whatever the variable held. -/
def isBlob (junk : Junk) (content : List Char) : Bool :=
  match content with
  | [] => false
  | [c] => isBinaryByte c.toNat || isBinaryByte junk.header1
  | c :: c' :: _ => isBinaryByte c.toNat || isBinaryByte c'.toNat

/-- `tn_prefs_read_file`. -/
def tnPrefsReadFile (junk : Junk) (prefs : TnPrefs) (content : List Char) : TnPrefs × Bool :=
  if content = [] then (prefs, false)
  else if isBlob junk content then
    match tnPrefsReadBlob junk content with
    | some p => (p, true)
    | none => (prefs, false)
  else (readText prefs content, parsedAny content)

/-- `tn_prefs_read_file` on a file that may not be there. -/
def readStore (junk : Junk) (prefs : TnPrefs) : Option StoreFile → TnPrefs × Bool
  | none => (prefs, false)
  | some f => tnPrefsReadFile junk prefs f.content

/-- `CompareDates` of dos.library: positive when the second date is the later one. -/
def compareDates (d d' : Nat) : Int := if d' < d then -1 else if d < d' then 1 else 0

/-- The store that is read first: `DEVS:`, or `ENV:` when there is no other or the comparison
of the dates says so. -/
def firstStore (stores : ConfigStores) : Option StoreFile :=
  let devs := (tnPrefsOpenRecover StoreFile.openable stores.devs).filter StoreFile.examinable
  let env := (stores.env.filter StoreFile.openable).filter StoreFile.examinable
  match devs, env with
  | some devs, some env => if compareDates env.date devs.date > 0 then some env else some devs
  | some devs, none => some devs
  | none, env => env

/-- `tn_prefs_load`. -/
def tnPrefsLoad (junk : Junk) (stores : ConfigStores) (prefs : TnPrefs) : TnPrefs × Bool :=
  let prefs := tnPrefsDefault prefs
  let r := readStore junk prefs (firstStore stores)
  if r.2 then r
  else
    let r := readStore junk r.1 (tnPrefsOpenRecover StoreFile.openable stores.envarc)
    if r.2 then r
    else readStore junk r.1 (stores.legacy.filter StoreFile.openable)

/-! ## dos.library -/

/-- The answer to a call: whether it succeeds, and how much of a `Write` is on the disk when it
stops in the middle. -/
structure DosAnswer where
  ok : Bool := true
  cut : Nat := 0

/-- The disk, the answers to come and the disks that the calls so far left behind. -/
structure DosState where
  disk : Disk (List Char)
  answers : List DosAnswer := []
  seen : List (Disk (List Char)) := []

namespace DosState

/-- The next answer. -/
def ask (s : DosState) : DosAnswer := s.answers.headD {}

/-- The state after that answer. -/
def asked (s : DosState) : DosState := { s with answers := s.answers.tail }

/-- A call leaves another disk behind. -/
def leave (s : DosState) (d : Disk (List Char)) : DosState :=
  { s with disk := d, seen := d :: s.seen }

/-- A call writes one name. -/
def setFile (s : DosState) (n : DosName) (v : Option (List Char)) : DosState :=
  s.leave (Function.update s.disk n v)

end DosState

/-- `Open(n, MODE_NEWFILE)`: an empty file, an old one is gone. -/
def dosOpenNew (s : DosState) (n : DosName) : DosState × Bool :=
  if s.ask.ok then (s.asked.setFile n (some []), true) else (s.asked, false)

/-- `Write`: the file grows; when the call fails it stays as far as it came. -/
def dosWrite (s : DosState) (n : DosName) (text : List Char) : DosState × Bool :=
  let part := s.asked.setFile n (some (text.take s.ask.cut))
  if s.ask.ok then (part.setFile n (some text), true) else (part, false)

/-- `Close`. -/
def dosClose (s : DosState) : DosState × Bool := (s.asked, s.ask.ok)

/-- `DeleteFile`. -/
def dosDeleteFile (s : DosState) (n : DosName) : DosState × Bool :=
  if s.ask.ok ∧ (s.disk n).isSome then (s.asked.setFile n none, true) else (s.asked, false)

/-- `Rename`, which refuses a new name that is taken. -/
def dosRename (s : DosState) (n n' : DosName) : DosState × Bool :=
  if s.ask.ok ∧ (s.disk n).isSome ∧ s.disk n' = none then
    (s.asked.leave (Function.update (Function.update s.disk n' (s.disk n)) n none), true)
  else (s.asked, false)

/-- `Open(path, MODE_OLDFILE)`, `Read` and `Close`: the C string in the buffer `prev`. -/
def readPrev (s : DosState) : DosState × List Char :=
  match s.disk .path with
  | none => (s.asked, [])
  | some content =>
    if s.ask.ok then
      let s := s.asked
      let prev := if s.ask.ok then cString (content.take 1023) else []
      ((dosClose s.asked).1, prev)
    else (s.asked, [])

/-! ## Saving -/

/-- `tn_safe_replace(tmp, path, bak)`. -/
def tnSafeReplace (s : DosState) : DosState × Bool :=
  let s := (dosDeleteFile s .bak).1
  let (s, had) := dosRename s .path .bak
  match dosRename s .tmp .path with
  | (s, true) => (s, true)
  | (s, false) =>
    let s := if had then (dosRename s .bak .path).1 else s
    ((dosDeleteFile s .tmp).1, false)

/-- `sizeof(merged)` in `tn_prefs_write_one`. -/
def mergedSize : Nat := 2048

/-- `tn_prefs_write_one`. -/
def tnPrefsWriteOne (s : DosState) (text : List Char) : DosState × Bool :=
  let (s, prev) := readPrev s
  match tnConfigMergePreserve text prev mergedSize with
  | none => (s, false)
  | some merged =>
    match dosOpenNew s .tmp with
    | (s, false) => (s, false)
    | (s, true) =>
      match dosWrite s .tmp merged with
      | (s, false) => ((dosDeleteFile (dosClose s).1 .tmp).1, false)
      | (s, true) =>
        match dosClose s with
        | (s, false) => ((dosDeleteFile s .tmp).1, false)
        | (s, true) => tnSafeReplace s

end Tolunnet
