import Opg3d.Native.CloudGuard

namespace Opg3d.InitThread

open Native

/-- The functions of other modules that `init_thread` calls, kept as single
operations so that its own order of events can be stated. -/
inductive Component where
  | findImage (name : String)
  | photonInstallHooks
  | cloudGuardInstallHooks
  deriving DecidableEq, Repr

abbrev Component.Ans : Component → Type
  | .findImage _ => Ptr
  | _ => Bool

abbrev InitOp.Ans : NativeOp ⊕ Component → Type
  | .inl op => op.Ans
  | .inr component => component.Ans

abbrev initSignature : Kit.Signature := ⟨NativeOp ⊕ Component, InitOp.Ans⟩

abbrev Init := Kit.Prog initSignature

/-- Library code inside `init_thread`. -/
def native {α : Type} (p : Native α) : Init α :=
  p.interp (T := initSignature) fun op => .ask (.inl op) .done

def component (c : Component) : Init c.Ans := .ask (.inr c) .done

def kWaitSteps : Nat := 6000

def kWaitStepUs : Nat := 10 * 1000

def kStableChecks : Nat := 25

def kSettleUs : Nat := 750 * 1000

def pause : Init Unit := native (usleep kWaitStepUs)

def assemblyCount (domain : Ptr) : Native Nat := do
  if domain = 0 then return 0
  if ← anyNull [.domainGetAssemblies] then return 0
  let assemblies : Assemblies ← api (.domainGetAssemblies domain)
  return if assemblies.count > 8192 then 0 else assemblies.count

/-- The counter after one sample of the settling loop. -/
def nextStable (stable last now : Nat) : Nat := if now ≠ 0 ∧ now = last then stable + 1 else 0

/-- The settling loop, returning `stable` and `last` as it leaves them. -/
def settle (domain : Ptr) : Nat → Nat → Nat → Init (Nat × Nat)
  | 0, stable, last => return (stable, last)
  | steps + 1, stable, last => do
    if stable < kStableChecks then
      let now ← native (assemblyCount domain)
      pause
      settle domain steps (nextStable stable last now) now
    else return (stable, last)

/-- A pointer result, null meaning that there is none yet. -/
def nonNull (p : Ptr) : Option Ptr := if p = 0 then none else some p

def awaitLibrary : Init (Option Ptr) := .poll (native findLibrary) pause kWaitSteps

def awaitExports : Init (Option Unit) :=
  .poll (do return if ← native Il2cpp.resolve then some () else none) pause kWaitSteps

def awaitDomain : Init (Option Ptr) :=
  .poll (do return nonNull (← native (api .domainGet))) pause kWaitSteps

def awaitImage : Init (Option Ptr) :=
  .poll (do return nonNull (← component (.findImage "Assembly-CSharp.dll"))) pause kWaitSteps

/-- `if (il2cpp::thread_detach != nullptr) il2cpp::thread_detach(..)`. -/
def detach (thread : Ptr) : Native Unit := do
  let fn ← apiPtr .threadDetach
  if fn ≠ 0 then .ask (.call fn (.threadDetach thread)) .done

def installAndReport : Init Unit := do
  let photonInstalled ← component .photonInstallHooks
  let guardInstalled ← component .cloudGuardInstallHooks
  if photonInstalled && guardInstalled then
    native <| logI "init: phase 0 ready — AppID override, Photon Cloud routing, dead-backend guard and connection tracing active" []
  else
    if !photonInstalled then
      native <| logE "init: core SelectPhotonAppId hook failed; fail-closed, no unsafe RVA patching attempted" []
    if !guardInstalled then
      native <| logE "init: Photon Cloud/dead-backend guard incomplete; do not treat this build as a successful online fix" []

/-- `init_thread` from the attached thread on. -/
def attachedPhase (thread : Ptr) : Init Unit := do
  native <| logI "init: [5/6] thread attached to runtime" []
  match ← awaitImage with
  | none =>
    native <| logE "init: Assembly-CSharp.dll never appeared; nothing to hook" []
    native (detach thread)
  | some _ =>
    native <| logI "init: [6/6] Assembly-CSharp.dll ready; installing hooks" []
    installAndReport
    native (detach thread)
    native <| logI "init: phase 0 thread finished cleanly" []

def domainPhase (domain : Ptr) : Init Unit := do
  native <| logI "init: [3/6] domain=%p" [pointer domain]
  let (stable, last) ← settle domain kWaitSteps 0 0
  if stable < kStableChecks then
    native <| logE "init: assembly list never settled (last count=%zu)" [.nat last]
  else
    native <| logI "init: [4/6] assembly list settled at %zu assemblies" [.nat last]
    native (usleep kSettleUs)
    let attachedThread ← native (api (.threadAttach domain))
    if attachedThread = 0 then
      native <| logE "init: il2cpp_thread_attach failed" []
    else attachedPhase attachedThread

def initThread : Init Unit := do
  native <| logI "init: [0/6] phase 0 thread started" []
  match ← awaitLibrary with
  | none => native <| logE "init: %s not found in process after 60 seconds" [.str (literal "libil2cpp.so")]
  | some base =>
    native <| logI "init: [1/6] %s found, base=0x%x" [.str (literal "libil2cpp.so"), .nat base.toNat]
    match ← awaitExports with
    | none => native <| logE "init: required il2cpp_* exports were not resolved" []
    | some _ =>
      native <| logI "init: [2/6] IL2CPP API resolved" []
      match ← awaitDomain with
      | none => native <| logE "init: il2cpp_domain_get() stayed null" []
      | some domain => domainPhase domain

/-- The program the thread runs: `init_thread` with the other modules linked in. -/
def Component.code (build : Build) : (c : Component) → Native c.Ans
  | .findImage name => Il2cpp.findImage name
  | .photonInstallHooks => Photon.installHooks build
  | .cloudGuardInstallHooks => CloudGuard.installHooks build

def link (build : Build) : (op : NativeOp ⊕ Component) → Native (InitOp.Ans op)
  | .inl op => .ask op .done
  | .inr c => c.code build

def linkedInitThread (build : Build) : Native Unit := initThread.interp (link build)

end Opg3d.InitThread
