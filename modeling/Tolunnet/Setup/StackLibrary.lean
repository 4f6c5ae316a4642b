import Mathlib.Data.List.Infix
import Tolunnet.Lib.Directory
import Tolunnet.Setup.Scripts

/-!
# `Tolunnet.Setup.StackLibrary`: the swap of the library

The part of `stack_detect.c` that replaces another stack and undoes it, as programs over the names of
`bsdsocket.library` in `LIBS:`. What the two functions do elsewhere, with the startup scripts, comes in
as steps outside of that directory.
-/

set_option autoImplicit false

namespace Tolunnet

namespace Stack

open Directory

/-! ## Names -/

/-- What a backup has behind its name. -/
inductive StackSuffix where
  | roadshow | miami | amitcp | genesis | preTolunnet
  deriving DecidableEq, Repr

/-- The library, `TN_LIB_PARK` and the backups. -/
inductive LibName where
  | live | park | backup (suffix : StackSuffix)
  deriving DecidableEq, Repr

/-- The suffix in a name. -/
def StackSuffix.text : StackSuffix → String
  | roadshow => "roadshow"
  | miami => "miami"
  | amitcp => "amitcp"
  | genesis => "genesis"
  | preTolunnet => "pre-tolunnet"

/-- The path of a name. -/
def LibName.path : LibName → String
  | live => "LIBS:bsdsocket.library"
  | park => "LIBS:bsdsocket.library.tn-prev"
  | backup suffix => "LIBS:bsdsocket.library." ++ suffix.text

/-- A library file: the one that stood at the live name first, or another one. -/
inductive LibFile where
  | original | other (id : Nat)
  deriving DecidableEq, Repr

/-- What `LIBS:` has under these names. -/
abbrev LibDir := Dir LibName LibFile

/-! ## Steps -/

/-- What is asked or done elsewhere. -/
inductive Outside where
  | fileExists (path : String)
  | assignExists (name : String)
  | copyFileChecked (source target : String)
  | writeUndoStacksScript
  | rewriteFileWithParser (path : String) (q : Parser)

/-- A question about a file elsewhere has two good answers. -/
def Outside.fallible : Outside → Bool
  | fileExists _ => false
  | assignExists _ => false
  | _ => true

/-- A program over the names of the library. -/
abbrev LibProc (α : Type) := Proc LibName Outside α

def outside (e : Outside) : LibProc Bool := Proc.op (.outside e)

def fileExists (n : LibName) : LibProc Bool := Proc.op (.exists_ n)

def rename (a b : LibName) : LibProc Bool := Proc.op (.rename a b)

def deleteFile (n : LibName) : LibProc Bool := Proc.op (.delete n)

/-! ## The replacement -/

/-- The state of the wizard: whether other stacks are to be replaced, and the names of those found. -/
structure WizardState where
  replaceStacks : Bool
  stackNames : List (List Char)

/-- The backup of the startup script. -/
def backupStartup : LibProc Bool := do
  if ← outside (.fileExists "S:User-Startup") <&&>
      (! ·) <$> outside (.fileExists "S:User-Startup.tolunnet-bak") then
    outside (.copyFileChecked "S:User-Startup" "S:User-Startup.tolunnet-bak")
  else return true

/-- The rewriting of a script that may be missing. -/
def rewriteIfThere (path : String) (q : Parser) : LibProc Bool := do
  if ← outside (.fileExists path) then outside (.rewriteFileWithParser path q) else return true

/-- What is done before the library is touched. -/
def disableScripts : LibProc Bool :=
  backupStartup <&&> outside .writeUndoStacksScript <&&>
    outside (.rewriteFileWithParser "S:User-Startup" .disable) <&&>
    rewriteIfThere "S:Network-Startup" .disable

/-- The suffix for the name of a stack that was found. -/
def suffixOfStack (name : List Char) : Option StackSuffix :=
  if "Roadshow".toList <:+: name then some .roadshow
  else if "Miami".toList <:+: name then some .miami
  else if "AmiTCP".toList <:+: name then some .amitcp
  else if "Genesis".toList <:+: name then some .genesis
  else none

/-- `stack_suffix`. -/
def stackSuffix (ws : WizardState) : LibProc StackSuffix :=
  match ws.stackNames.findSome? suffixOfStack with
  | some suffix => return suffix
  | none => do
    if ← outside (.fileExists "DEVS:NetInterfaces") <||> outside (.fileExists "DEVS:Internet") then
      return .roadshow
    else if ← outside (.assignExists "Miami") <||> outside (.fileExists "ENVARC:MiamiDx") <||>
        outside (.fileExists "ENVARC:Miami") then
      return .miami
    else if ← outside (.assignExists "AmiTCP") <||> outside (.fileExists "AmiTCP:") then
      return .amitcp
    else return .preTolunnet

/-- The swap of `tn_stack_apply_replacement`. -/
def storeLibrary (suffix : StackSuffix) : LibProc Unit := do
  if ← fileExists .live then
    let _ ← deleteFile .park
    if ← rename .live .park then
      if ← rename .park (.backup suffix) then return ()
      else
        let _ ← rename .park .live
        return ()
    else return ()
  else return ()

/-- `tn_stack_apply_replacement`. -/
def tnStackApplyReplacement (ws : Option WizardState) : LibProc Bool :=
  match ws with
  | none => return true
  | some ws =>
    if ws.replaceStacks = false then return true
    else do
      if ← disableScripts then
        storeLibrary (← stackSuffix ws)
        return true
      else return false

/-! ## The undo -/

/-- The suffixes in the order in which they are tried. -/
def suffixes : List StackSuffix := [.roadshow, .miami, .amitcp, .genesis, .preTolunnet]

/-- The swap of `tn_stack_undo_replacement` with one backup. -/
def restoreLibrary (suffix : StackSuffix) : LibProc Unit := do
  if ← fileExists .live then
    let _ ← deleteFile .park
    if ← rename .live .park then
      if ← rename (.backup suffix) .live then
        let _ ← deleteFile .park
        return ()
      else
        let _ ← rename .park .live
        return ()
    else return ()
  else
    let _ ← rename (.backup suffix) .live
    return ()

/-- The loop over the suffixes, which ends with the first backup that is there. -/
def restoreFirst : List StackSuffix → LibProc Unit
  | [] => return ()
  | suffix :: rest => do
    if ← fileExists (.backup suffix) then restoreLibrary suffix else restoreFirst rest

/-- `tn_stack_undo_replacement`. -/
def tnStackUndoReplacement : LibProc Bool := do
  if ← rewriteIfThere "S:User-Startup" .restore <&&> rewriteIfThere "S:Network-Startup" .restore then
    restoreFirst suffixes
    return true
  else return false

end Stack

end Tolunnet
