import Opg3d.Native.Il2cpp

namespace Opg3d.HookEngine

open Native

structure ManagedMethod where
  namespaze : String
  klass : String
  method : String
  argsCount : Int
  deriving DecidableEq, Repr

/-- The arguments of `%s.%s/%d` in the messages of `install`. -/
def ManagedMethod.args (target : ManagedMethod) : List Arg :=
  [.str (literal target.klass), .str (literal target.method), .int target.argsCount]

def shadowhookErrnoOk : Int := 0

/-- `std::call_once` of the engine's initialisation. -/
def ensureEngine : Native Unit := do
  let started ← exchange .engineStarted
  if started then return ()
  let rc : Int ← .ask .shadowhookInit .done
  setFlag .engineReady (rc = shadowhookErrnoOk)
  if rc = shadowhookErrnoOk then
    let version : Bytes ← .ask .shadowhookVersion .done
    logI "hook: %s ready (UNIQUE mode)" [.str version]
  else
    let message : Bytes ← .ask (.shadowhookErrmsg rc) .done
    logE "hook: shadowhook_init failed errno=%d (%s)" [.int rc, .str message]

/-- `shadowhook_hook_func_addr` and what `install` does with its answer. -/
def patchAddress (target : ManagedMethod) (address : Ptr) (replacement original : Hook) : Native Bool := do
  setSlot original none
  let answer : HookAnswer ← .ask (.shadowhookHook address replacement original) .done
  if answer.stub = 0 then
    let err : Int ← .ask .shadowhookErrno .done
    let message : Bytes ← .ask (.shadowhookErrmsg err) .done
    logE "hook: shadowhook_hook_func_addr failed errno=%d (%s): %s.%s/%d @ %p"
      ([.int err, .str message] ++ target.args ++ [pointer address])
    return false
  let trampoline ← slot original
  if trampoline = none then
    logE "hook: engine gave no trampoline for %s.%s/%d @ %p; rolling back" (target.args ++ [pointer address])
    let _ : Unit ← .ask (.shadowhookUnhook answer.stub) .done
    return false
  logI "hook: installed %s.%s/%d @ %p" (target.args ++ [pointer address])
  return true

def installTarget (target : ManagedMethod) (replacement original : Hook) (required : Bool) : Native Bool :=
  do
  ensureEngine
  if !(← flag .engineReady) then
    logE "hook: engine unavailable; cannot hook %s.%s/%d" target.args
    return false
  let methodInfo ← Il2cpp.findMethodInfo target.namespaze target.klass target.method target.argsCount
  if methodInfo = 0 then
    if required then logE "hook: REQUIRED method not found: %s.%s/%d" target.args
    else logW "hook: optional method not found: %s.%s/%d" target.args
    return false
  let address ← Il2cpp.methodPointer methodInfo
  if address = 0 then
    logE "hook: null methodPointer: %s.%s/%d" target.args
    return false
  patchAddress target address replacement original

/-- `hook::install`; a null `replacement` or `original` is `none`. -/
def installBody (target : ManagedMethod) (replacement original : Option Hook) (required : Bool) :
    Native Bool :=
  match replacement, original with
  | some proxy, some cell => installTarget target proxy cell required
  | _, _ => do
    logE "hook: invalid arguments for %s.%s" (target.args.take 2)
    return false

def install (target : ManagedMethod) (replacement original : Option Hook) (required : Bool) : Native Bool :=
  do
  mark .installBegins
  let installed ← installBody target replacement original required
  mark .installEnds
  return installed

/-- The helpers `optional` and `install_optional`: the count goes up on success. -/
def installOptional (target : ManagedMethod) (hook : Hook) (installed : Nat) : Native Nat := do
  if ← install target (some hook) (some hook) false then return installed + 1
  return installed

/-- A sequence of optional installs, each with a proxy and a slot of its own. -/
def installOptionals : List (ManagedMethod × Hook) → Nat → Native Nat
  | [], installed => return installed
  | (target, hook) :: rest, installed => do
    let count ← installOptional target hook installed
    installOptionals rest count

end Opg3d.HookEngine
