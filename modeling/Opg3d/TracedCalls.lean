import Opg3d.Activation.Accounts

namespace Opg3d

open Kit Native HookEngine Photon

/-- The parameters of a hooked method as its function type has them. -/
inductive Param where
  | pointer | integer
  deriving DecidableEq, Repr

/-- A word as it arrives through a parameter of the type. -/
def Param.pass : Param → Word → Word
  | .pointer, word => Ptr.word (Word.ptr word)
  | .integer, word => word

def Hook.params : Hook → List Param
  | .selectAppId | .setUpPhoton | .connectUsingSettings | .disconnected | .connectedToMaster | .friendsUpdate
  | .connectSceneGo | .connectionControlConnect => [.pointer, .pointer]
  | .useCloud | .useCloudBest | .onOperationResponse => [.pointer, .pointer, .pointer]
  | .useCloudRegion => [.pointer, .pointer, .integer, .pointer]
  | .debugReturn => [.pointer, .integer, .pointer, .pointer]
  | .useMyServer => [.pointer, .pointer, .integer, .pointer, .pointer]
  | .connectToMaster => [.pointer, .integer, .pointer, .pointer, .pointer]
  | .getGameVersion | .gameConnect | .disconnect | .gameConnectSquad => [.pointer]
  | .onStatusChanged | .failedToConnect => [.pointer, .integer, .pointer]
  | .gameConnectTier => [.integer, .pointer]

/-- The words a proxy hands to its original. -/
def Hook.passed (hook : Hook) (args : List Word) : List Word :=
  hook.params.zipIdx.map fun (param, i) => param.pass (args.getD i 0)

/-- Arguments as callers of the method pass them: one word for each parameter,
addresses where it takes pointers. -/
def Hook.Typed (hook : Hook) (args : List Word) : Prop :=
  List.Forall₂ (fun (param : Param) word => param.pass word = word) hook.params args

/-- The method has a result. -/
def Hook.returns : Hook → Bool
  | .selectAppId | .connectUsingSettings | .connectToMaster | .getGameVersion | .gameConnect | .gameConnectTier
  | .gameConnectSquad => true
  | _ => false

/-- Hooks that only look on. -/
def Hook.traces (hook : Hook) : Bool := hook ∈ Photon.optionalTargets.map Prod.snd

theorem pass_typed {params : List Param} {args : List Word} (front : List Word)
    (typed : List.Forall₂ (fun (param : Param) word => param.pass word = word) params args) :
    (params.zipIdx front.length).map (fun (param, i) => param.pass ((front ++ args).getD i 0)) = args := by
  induction typed generalizing front with
  | nil => rfl
  | @cons param word params args same _ ih =>
    have shifted := ih (front ++ [word])
    rw [List.length_append, List.append_assoc] at shifted
    have first : (front ++ word :: args).getD front.length 0 = word := by simp
    rw [List.zipIdx_cons, List.map_cons]
    simp only [first, same]
    exact congrArg (word :: ·) shifted

/-- Arguments of the right types are handed on as they are. -/
theorem Hook.Typed.passed {hook : Hook} {args : List Word} (typed : hook.Typed args) :
    hook.passed args = args :=
  pass_typed [] typed

/-- Follows the calls of originals. -/
def originalsMonitor : Monitor nativeSignature (List (Exchange nativeSignature)) :=
  Prog.recorder anyAnswer (NativeOp.shows [.original])

/-- All that a tracing proxy does beside calling its original. -/
def tracingEffects : List Effect := [.cache, .getter, .setDebugOut, .newString, .setField, .setStaticField]

theorem Confined.tracing {α : Type} {p : Native α} (confined : Confined anyAnswer tracingEffects p)
    (seen : List (Exchange nativeSignature)) : p.wp originalsMonitor (fun after _ => after = seen) seen :=
  confined.unrecorded (by decide) seen

/-- What is left calls no original and returns the answer, if anything. -/
def Closes (hook : Hook) (answer : Word) (p : Native Word) : Prop :=
  ∀ seen, p.wp originalsMonitor (fun after result =>
    after = seen ∧ (hook.returns = true → result = answer)) seen

/-- One original is called, with such arguments, and its answer is the result. -/
def CallsOnce (hook : Hook) (args : List Word) (p : Native Word) : Prop :=
  p.wp originalsMonitor (fun seen result => ∃ trampoline answer,
    seen = [⟨.original hook trampoline args, answer⟩] ∧ (hook.returns = true → result = answer)) []

section Rules

variable {α : Type} {hook : Hook} {args : List Word} {answer : Word} {p : Native α} {f : α → Native Word}

theorem Closes.done {result : Word} (same : hook.returns = true → result = answer) :
    Closes hook answer (.done result) :=
  fun _ => ⟨rfl, same⟩

theorem Closes.behind (front : Confined anyAnswer tracingEffects p) (rest : ∀ a, Closes hook answer (f a)) :
    Closes hook answer (p >>= f) := by
  intro seen
  refine (front.tracing seen).bind ?_
  rintro _ a rfl
  exact rest a _

theorem CallsOnce.behind (front : Confined anyAnswer tracingEffects p)
    (rest : ∀ a, CallsOnce hook args (f a)) : CallsOnce hook args (p >>= f) := by
  refine (front.tracing []).bind ?_
  rintro _ a rfl
  exact rest a

theorem CallsOnce.call {f : Word → Native Word} (rest : ∀ answer, Closes hook answer (f answer)) :
    CallsOnce hook args (callOriginal hook args >>= f) := by
  refine ⟨trivial, fun trampoline _ => ⟨trivial, fun answer _ => ?_⟩⟩
  exact (rest answer _).mono fun after result both => ⟨trampoline, answer, both.1, both.2⟩

end Rules

theorem notified_once {hook : Hook} (silent : hook.returns = false) (priority : Priority)
    (message : String) (front : List Arg) (args : List Word) :
    CallsOnce hook args (notified hook priority message front args) := by
  have nothing (answer : Word) : Closes hook answer (.done 0) := .done (by simp [silent])
  refine .behind (.connectionStateVia _ _ (by decide) (by decide)) fun state => ?_
  refine .behind (.serverAddress (by decide) (by decide)) fun server => .behind (.log _ _ _) fun _ => ?_
  exact .call fun answer => nothing answer

theorem tracedUseCloud_once {hook : Hook} (silent : hook.returns = false) (message point : String)
    (self appId method : Ptr) : CallsOnce hook [Ptr.word self, Ptr.word appId, Ptr.word method]
      (tracedUseCloud hook message point self appId method) := by
  refine .behind (.secretSummary _) fun summary => .behind (.log _ _ _) fun _ => .call fun answer => ?_
  exact .behind (.logSettings _ _) fun _ => .done (by simp [silent])

theorem hookOnOperationResponse_once (self response method : Ptr) :
    CallsOnce .onOperationResponse [Ptr.word self, Ptr.word response, Ptr.word method]
      (hookOnOperationResponse self response method) := by
  have closing (answer : Word) : Closes .onOperationResponse answer (.done 0) := .done nofun
  refine .behind (.readField _ _ _) fun operation => .behind (.readField _ _ _) fun code => ?_
  refine .behind (.readRef _ _) fun debugMessage => .behind (.toUtf8 _ _) fun debug =>
    Prog.wp.ite (fun _ => ?_) fun _ => ?_
  · exact CallsOnce.behind (.log _ _ _) fun _ => .call fun answer => closing answer
  · exact CallsOnce.behind (.log _ _ _) fun _ => .call fun answer => closing answer

theorem hookSetUpPhoton_once (build : Build) (settings method : Ptr) :
    CallsOnce .setUpPhoton [Ptr.word settings, Ptr.word method] (hookSetUpPhoton build settings method) := by
  refine .behind (.log _ _ _) fun _ => .call fun answer => ?_
  refine .behind (.enableVerbosePhotonLogs (by decide) (by decide) (by decide)) fun _ => ?_
  refine .behind (.currentServerSettings (by decide)) fun serverSettings => ?_
  refine .behind (.applyConfigToSettings _ _ _ (by decide) (by decide)) fun _ => ?_
  exact .behind (.logSettings _ _) fun _ => .done nofun

theorem hookUseCloudRegion_once (self appId : Ptr) (region : Int) (method : Ptr) :
    CallsOnce .useCloudRegion [Ptr.word self, Ptr.word appId, region, Ptr.word method]
      (hookUseCloudRegion self appId region method) := by
  refine .behind (.secretSummary _) fun summary => .behind (.log _ _ _) fun _ => .call fun answer => ?_
  exact .behind (.logSettings _ _) fun _ => .done nofun

theorem hookUseMyServer_once (self address : Ptr) (port : Int) (appId method : Ptr) :
    CallsOnce .useMyServer [Ptr.word self, Ptr.word address, port, Ptr.word appId, Ptr.word method]
      (hookUseMyServer self address port appId method) := by
  refine .behind (.toUtf8 _ _) fun host => .behind (.secretSummary _) fun summary => ?_
  refine .behind (.log _ _ _) fun _ => .call fun answer => ?_
  exact .behind (.logSettings _ _) fun _ => .done nofun

theorem hookConnectUsingSettings_once (gameVersion method : Ptr) :
    CallsOnce .connectUsingSettings [Ptr.word gameVersion, Ptr.word method]
      (hookConnectUsingSettings gameVersion method) := by
  refine .behind (.enableVerbosePhotonLogs (by decide) (by decide) (by decide)) fun _ =>
    .behind (.toUtf8 _ _) fun version => ?_
  refine .behind (.connectionStateVia _ _ (by decide) (by decide)) fun state =>
    .behind (.serverAddress (by decide) (by decide)) fun server => ?_
  refine .behind (.log _ _ _) fun _ => .behind (.currentServerSettings (by decide)) fun settings => ?_
  refine .behind (.logSettings _ _) fun _ => .behind (.logAuthSnapshot _ (by decide) (by decide)) fun _ =>
    .call fun answer => ?_
  exact .behind (.logConnectEnd _ _ (by decide) (by decide)) fun _ => .done fun _ => rfl

theorem hookConnectToMaster_once (address : Ptr) (port : Int) (appId gameVersion method : Ptr) :
    CallsOnce .connectToMaster [Ptr.word address, port, Ptr.word appId, Ptr.word gameVersion,
      Ptr.word method]
      (hookConnectToMaster address port appId gameVersion method) := by
  refine .behind (.enableVerbosePhotonLogs (by decide) (by decide) (by decide)) fun _ =>
    .behind (.toUtf8 _ _) fun host => ?_
  refine .behind (.toUtf8 _ _) fun version => .behind (.secretSummary _) fun app => ?_
  refine .behind (.connectionStateVia _ _ (by decide) (by decide)) fun state =>
    .behind (.log _ _ _) fun _ => ?_
  refine .behind (.logAuthSnapshot _ (by decide) (by decide)) fun _ => .call fun answer => ?_
  exact .behind (.logConnectEnd _ _ (by decide) (by decide)) fun _ => .done fun _ => rfl

theorem hookGetGameVersion_once (method : Ptr) :
    CallsOnce .getGameVersion [Ptr.word method] (hookGetGameVersion method) := by
  refine .call fun answer => .behind (.toUtf8 _ _) fun version => ?_
  exact .behind (.log _ _ _) fun _ => .done fun _ => rfl

theorem hookGameConnect_once (method : Ptr) :
    CallsOnce .gameConnect [Ptr.word method] (hookGameConnect method) := by
  refine .behind (.connectionStateVia _ _ (by decide) (by decide)) fun before =>
    .behind (.log _ _ _) fun _ => ?_
  refine .call fun answer => .behind (.connectionStateVia _ _ (by decide) (by decide)) fun after => ?_
  exact .behind (.log _ _ _) fun _ => .done fun _ => rfl

theorem hookDebugReturn_once (self : Ptr) (level : Int) (message method : Ptr) :
    CallsOnce .debugReturn [Ptr.word self, level, Ptr.word message, Ptr.word method]
      (hookDebugReturn self level message method) := by
  refine .behind (.toUtf8 _ _) fun text => .behind (.log _ _ _) fun _ => ?_
  exact .call fun answer => .done nofun

theorem hookOnStatusChanged_once (self : Ptr) (status : Int) (method : Ptr) :
    CallsOnce .onStatusChanged [Ptr.word self, status, Ptr.word method]
      (hookOnStatusChanged self status method) := by
  refine .behind (.connectionStateVia _ _ (by decide) (by decide)) fun before =>
    .behind (.log _ _ _) fun _ => ?_
  refine .call fun answer => .behind (.connectionStateVia _ _ (by decide) (by decide)) fun after => ?_
  exact .behind (.serverAddress (by decide) (by decide)) fun server =>
    .behind (.log _ _ _) fun _ => .done nofun

/-- Whatever it is answered, a tracing proxy calls its own original once. -/
theorem proxy_once (build : Build) {hook : Hook} (traces : hook.traces = true) (args : List Word) :
    CallsOnce hook (hook.passed args) (hook.proxy build args) := by
  cases hook with
  | setUpPhoton => exact hookSetUpPhoton_once build _ _
  | useCloud => exact tracedUseCloud_once rfl _ _ _ _ _
  | useCloudBest => exact tracedUseCloud_once rfl _ _ _ _ _
  | useCloudRegion => exact hookUseCloudRegion_once _ _ _ _
  | useMyServer => exact hookUseMyServer_once _ _ _ _ _
  | connectUsingSettings => exact hookConnectUsingSettings_once _ _
  | connectToMaster => exact hookConnectToMaster_once _ _ _ _ _
  | getGameVersion => exact hookGetGameVersion_once _
  | gameConnect => exact hookGameConnect_once _
  | debugReturn => exact hookDebugReturn_once _ _ _ _
  | onStatusChanged => exact hookOnStatusChanged_once _ _ _
  | onOperationResponse => exact hookOnOperationResponse_once _ _ _
  | disconnect | failedToConnect | disconnected | connectedToMaster => exact notified_once rfl _ _ _ _
  | selectAppId | friendsUpdate | connectSceneGo | connectionControlConnect | gameConnectTier
  | gameConnectSquad => cases traces

/-- The exchanges of a call that had these effects, in order. -/
def Shown (effects : List Effect) (call : GameCall) : List (Exchange nativeSignature) :=
  call.exchanged.filter fun e => e.op.shows effects

/-- In every run from the loading of the library on in which no entry is taken
while `hook::install` executes, whenever the proxy of a tracing hook is about
to return, its call has started the code at its own entry exactly once, with
the arguments it was given, and what it returns is what that code returned. -/
theorem traced_call {build : Build} {labels : List GameLabel} {c : GameConfig} {calls : List GameCall}
    (run : (system build).Records anyLabel (loading build) [] labels c calls) {site : Ptr}
    {result : Word} {rest : List (Frame nativeSignature Ptr Word)}
    (leaving : c.stack = .code site (.done result) :: rest) {hook : Hook}
    (carried : c.shared.memory.patched site = some hook) (traces : hook.traces = true) :
    ∃ call others, calls = call :: others ∧ call.site = site ∧
      (hook.Typed call.args → hook.passed call.args = call.args) ∧
      ∃ answer : Word,
        Shown [.original] call = [⟨.original hook (some site) (hook.passed call.args), answer⟩] ∧
        (hook.returns = true → result = answer) := by
  obtain ⟨call, others, rfl, at_, path, proper⟩ := proxy_in_control run leaving carried
  refine ⟨call, others, rfl, at_, Hook.Typed.passed, ?_⟩
  obtain ⟨trampoline, answer, once, returned⟩ := Prog.wp.recorded path (fun _ _ => trivial)
    (proxy_once build traces call.args)
  have member : ⟨.original hook trampoline (hook.passed call.args), answer⟩ ∈ Shown [.original] call := by
    rw [Shown, once]
    exact List.mem_cons_self ..
  obtain ⟨_, rfl⟩ : some hook = some hook ∧ trampoline = some site :=
    (proper _ (List.mem_of_mem_filter member)).1
  exact ⟨answer, once, returned⟩

def Sample.versionSite : Ptr := Sample.metadata.codeOf ⟨"", "GameConnect", "GetConnectGameVersion", 0⟩

/-- The game asks for its version, and gets what it would have got. -/
theorem getGameVersion_traced : ∃ labels c calls,
    (system Sample.build).Records anyLabel (loading Sample.build) [] labels c calls ∧
    ∃ call others, ∃ answer : Word, calls = call :: others ∧
      Shown [.original] call = [⟨.original .getGameVersion (some Sample.versionSite)
        (Hook.passed .getGameVersion call.args), answer⟩] ∧ 12 = answer := by
  have played : (Sample.play [.go Sample.startupSteps, .call Sample.versionSite [0], .go 2, .finish 12,
    .go 5]).bind leavingAt =
      some (Sample.versionSite, 12, some .getGameVersion) := by decide +kernel
  obtain ⟨c, reached, leaving⟩ := Option.bind_eq_some_iff.mp played
  obtain ⟨labels, calls, records⟩ := Sample.play_records reached
  obtain ⟨⟨rest, top⟩, carried⟩ := leaving_of_leavingAt leaving
  obtain ⟨call, others, same, _, _, answer, once, returned⟩ := traced_call records top carried (by decide)
  exact ⟨labels, c, calls, records, call, others, answer, same, once, returned rfl⟩

end Opg3d
