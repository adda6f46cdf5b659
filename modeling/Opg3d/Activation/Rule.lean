import Opg3d.Activation.Effects
import Opg3d.Install.Startup

namespace Opg3d

open Kit Native HookEngine Photon CloudGuard

/-- A property of code that the proxy of one of Photon's hooks is composed to
have: code without effects has it, sequences keep it, and so have the parts
of that proxy that start or change something. -/
structure PhotonRule (build : Build) (hook : Hook) (P : {α : Type} → Native α → Prop) : Prop where
  seq : ∀ {α β : Type} {p : Native α} {f : α → Native β}, P p → (∀ a, P (f a)) → P (p >>= f)
  quiet : ∀ {α : Type} {p : Native α}, Confined anyAnswer [] p → P p
  original : ∀ args, P (callOriginal hook args)
  selected : hook = .selectAppId → ∀ args, P (selectOriginal args)
  appId : hook = .selectAppId → P (configuredAppId build)
  state : P Photon.connectionState
  server : P Photon.serverAddress
  auth : ∀ point, P (logAuthSnapshot point)
  verbose : hook ∈ [.setUpPhoton, .connectUsingSettings, .connectToMaster] → P enableVerbosePhotonLogs
  settings : hook = .connectUsingSettings → P Photon.currentServerSettings
  repair : hook = .setUpPhoton → ∀ point, P (do
    let settings ← Photon.currentServerSettings
    let _ ← applyConfigToSettings build settings point
    return settings)

/-- The same with the parts of the cloud guard. -/
structure ProxyRule (build : Build) (hook : Hook) (P : {α : Type} → Native α → Prop) : Prop
    extends PhotonRule build hook P where
  guardState : hook = .friendsUpdate → P CloudGuard.connectionState
  route : guardsConnection hook = true → build.selfhosted = false → ∀ point, P (forceCloudRoute build point)
  verdict : guardsConnection hook = true → ∀ result, P (mark (.forceCloud true result))

section

variable {build : Build} {hook : Hook} {P : {α : Type} → Native α → Prop} {α : Type}

theorem branches {c : Prop} [Decidable c] {p q : Native α} (yes : P p) (no : P q) :
    P (if c then p else q) := by
  split
  · exact yes
  · exact no

namespace PhotonRule

theorem log (rule : PhotonRule build hook P) (priority : Priority) (format : String) (args : List Arg) :
    P (Native.log priority format args) := rule.quiet (.log _ _ _)

theorem done (rule : PhotonRule build hook P) (value : α) : P (.done value : Native α) :=
  rule.quiet (.done _)

theorem notified (rule : PhotonRule build hook P) (priority : Priority) (message : String)
    (front : List Arg) (args : List Word) : P (notified hook priority message front args) := by
  refine rule.seq rule.state fun state => rule.seq rule.server fun server =>
    rule.seq (rule.log _ _ _) fun _ => ?_
  exact rule.seq (rule.original _) fun _ => rule.done _

theorem tracedUseCloud (rule : PhotonRule build hook P) (message point : String) (self appId method : Ptr) :
    P (tracedUseCloud hook message point self appId method) := by
  refine rule.seq (rule.quiet (.secretSummary _)) fun summary => rule.seq (rule.log _ _ _) fun _ => ?_
  exact rule.seq (rule.original _) fun _ => rule.seq (rule.quiet (.logSettings _ _)) fun _ => rule.done _

theorem logConnectEnd (rule : PhotonRule build hook P) (message : String) (result : Word) :
    P (logConnectEnd message result) :=
  rule.seq rule.state fun _ => rule.seq rule.server fun _ => rule.log _ _ _

theorem selectAppId (rule : PhotonRule build .selectAppId P) (settings method : Ptr) :
    P (hookSelectAppId build settings method) := by
  refine rule.seq (rule.quiet (.quiet rfl)) fun count =>
    rule.seq (rule.appId rfl) fun replacement => branches ?_ ?_
  · exact rule.seq (rule.log _ _ _) fun _ => rule.done _
  refine rule.seq (branches (rule.log _ _ _) (rule.log _ _ _)) fun _ =>
    rule.seq (rule.selected rfl _) fun original => ?_
  exact rule.seq (rule.quiet (.secretSummary _)) fun summary =>
    rule.seq (rule.log _ _ _) fun _ => rule.done _

theorem setUpPhoton (rule : PhotonRule build .setUpPhoton P) (settings method : Ptr) :
    P (hookSetUpPhoton build settings method) := by
  have repaired (point : String) (rest : Ptr → Native Word) (also : ∀ settings, P (rest settings)) : P (do
      let settings ← Photon.currentServerSettings
      let _ ← applyConfigToSettings build settings point
      rest settings) := by
    have both := rule.seq (rule.repair rfl point) also
    simpa only [Prog.bind_eq, Prog.bind_assoc, Prog.pure_eq, Prog.done_bind] using both
  refine rule.seq (rule.log _ _ _) fun _ => rule.seq (rule.original _) fun _ =>
    rule.seq (rule.verbose (by decide)) fun _ => ?_
  exact repaired _ _ fun serverSettings => rule.seq (rule.quiet (.logSettings _ _)) fun _ => rule.done _

theorem connectUsingSettings (rule : PhotonRule build .connectUsingSettings P) (gameVersion method : Ptr) :
    P (hookConnectUsingSettings gameVersion method) := by
  refine rule.seq (rule.verbose (by decide)) fun _ => rule.seq (rule.quiet (.toUtf8 _ _)) fun version => ?_
  refine rule.seq rule.state fun state => rule.seq rule.server fun server =>
    rule.seq (rule.log _ _ _) fun _ => ?_
  refine rule.seq (rule.settings rfl) fun settings => rule.seq (rule.quiet (.logSettings _ _)) fun _ => ?_
  refine rule.seq (rule.auth _) fun _ => rule.seq (rule.original _) fun result => ?_
  exact rule.seq (rule.logConnectEnd _ _) fun _ => rule.done _

theorem connectToMaster (rule : PhotonRule build .connectToMaster P) (address : Ptr) (port : Int)
    (appId gameVersion method : Ptr) : P (hookConnectToMaster address port appId gameVersion method) := by
  refine rule.seq (rule.verbose (by decide)) fun _ => rule.seq (rule.quiet (.toUtf8 _ _)) fun host => ?_
  refine rule.seq (rule.quiet (.toUtf8 _ _)) fun version =>
    rule.seq (rule.quiet (.secretSummary _)) fun app => ?_
  refine rule.seq rule.state fun state => rule.seq (rule.log _ _ _) fun _ =>
    rule.seq (rule.auth _) fun _ => ?_
  exact rule.seq (rule.original _) fun result => rule.seq (rule.logConnectEnd _ _) fun _ => rule.done _

theorem onOperationResponse (rule : PhotonRule build .onOperationResponse P) (self response method : Ptr) :
    P (hookOnOperationResponse self response method) := by
  refine rule.seq (rule.quiet (.readField _ _ _)) fun operation =>
    rule.seq (rule.quiet (.readField _ _ _)) fun code => ?_
  refine rule.seq (rule.quiet (.readRef _ _)) fun debugMessage =>
    rule.seq (rule.quiet (.toUtf8 _ _)) fun debug => ?_
  refine branches ?_ ?_
  · exact rule.seq (rule.log _ _ _) fun _ => rule.seq (rule.original _) fun _ => rule.done _
  · exact rule.seq (rule.log _ _ _) fun _ => rule.seq (rule.original _) fun _ => rule.done _

/-- What the parts have, the proxy of each of Photon's hooks has. -/
theorem proxy (rule : PhotonRule build hook P) (member : hook ∈ Core.photonHooks) (args : List Word) :
    P (hook.proxy build args) := by
  cases hook with
  | selectAppId => exact rule.selectAppId _ _
  | setUpPhoton => exact rule.setUpPhoton _ _
  | useCloud | useCloudBest => exact rule.tracedUseCloud _ _ _ _ _
  | useCloudRegion =>
    refine rule.seq (rule.quiet (.secretSummary _)) fun summary => rule.seq (rule.log _ _ _) fun _ => ?_
    exact rule.seq (rule.original _) fun _ => rule.seq (rule.quiet (.logSettings _ _)) fun _ => rule.done _
  | useMyServer =>
    refine rule.seq (rule.quiet (.toUtf8 _ _)) fun host =>
      rule.seq (rule.quiet (.secretSummary _)) fun summary => ?_
    refine rule.seq (rule.log _ _ _) fun _ => rule.seq (rule.original _) fun _ => ?_
    exact rule.seq (rule.quiet (.logSettings _ _)) fun _ => rule.done _
  | connectUsingSettings => exact rule.connectUsingSettings _ _
  | connectToMaster => exact rule.connectToMaster _ _ _ _ _
  | getGameVersion =>
    refine rule.seq (rule.original _) fun result => rule.seq (rule.quiet (.toUtf8 _ _)) fun version => ?_
    exact rule.seq (rule.log _ _ _) fun _ => rule.done _
  | gameConnect =>
    refine rule.seq rule.state fun before => rule.seq (rule.log _ _ _) fun _ =>
      rule.seq (rule.original _) fun result => ?_
    exact rule.seq rule.state fun after => rule.seq (rule.log _ _ _) fun _ => rule.done _
  | debugReturn =>
    refine rule.seq (rule.quiet (.toUtf8 _ _)) fun text => rule.seq (rule.log _ _ _) fun _ => ?_
    exact rule.seq (rule.original _) fun _ => rule.done _
  | onStatusChanged =>
    refine rule.seq rule.state fun before => rule.seq (rule.log _ _ _) fun _ =>
      rule.seq (rule.original _) fun _ => ?_
    refine rule.seq rule.state fun after => rule.seq rule.server fun server =>
      rule.seq (rule.log _ _ _) fun _ =>
      rule.done _
  | onOperationResponse => exact rule.onOperationResponse _ _ _
  | disconnect | failedToConnect | disconnected | connectedToMaster => exact rule.notified _ _ _ _
  | friendsUpdate | connectSceneGo | connectionControlConnect | gameConnectTier | gameConnectSquad =>
    exact absurd member (by decide)

end PhotonRule

namespace ProxyRule

theorem forceCloud (rule : ProxyRule build hook P) (guards : guardsConnection hook = true)
    (point : String) : P (forceCloud build point true) := by
  have body : P (forceCloudBody build point true) := by
    unfold forceCloudBody
    split
    · exact rule.done _
    · rename_i cloud
      exact rule.route guards (by simpa using cloud) point
  exact rule.seq body fun result => rule.seq (rule.verdict guards _) fun _ => rule.done _

theorem guarded (rule : ProxyRule build hook P) (guards : guardsConnection hook = true) (point : String)
    (blocked : Option String) (args : List Word) : P (guarded build hook point blocked args) := by
  refine rule.seq (rule.forceCloud guards point) fun verdict => branches (rule.original _) ?_
  cases blocked with
  | none => exact rule.done _
  | some message => exact rule.seq (rule.log _ _ _) fun _ => rule.done _

theorem friendsUpdate (rule : ProxyRule build .friendsUpdate P) (self method : Ptr) :
    P (hookFriendsUpdate self method) := by
  have skipped (state : Int) : P (skipFriendsUpdate state) :=
    rule.seq (rule.quiet (.quiet rfl)) fun count => branches (rule.log _ _ _) (rule.done _)
  refine rule.seq (rule.guardState rfl) fun state => branches ?_ ?_
  · exact rule.seq (skipped state) fun _ => rule.done _
  · exact rule.seq (rule.original _) fun _ => rule.done _

/-- What the parts have, the proxy has. -/
theorem proxy (rule : ProxyRule build hook P) (args : List Word) : P (hook.proxy build args) := by
  by_cases photon : hook ∈ Core.photonHooks
  · exact rule.toPhotonRule.proxy photon args
  by_cases guards : guardsConnection hook = true
  · obtain ⟨blocked, passed, same⟩ := proxy_guarded build guards args
    rw [same]
    exact rule.guarded guards _ _ _
  cases hook with
  | friendsUpdate => exact rule.friendsUpdate _ _
  | connectSceneGo | connectionControlConnect | gameConnectTier | gameConnectSquad =>
    exact absurd rfl guards
  | _ => exact absurd (by decide) photon

end ProxyRule

end

/-- All that the proxies without a guard for connections do in the game. -/
def ungatedEffects : List Effect :=
  [.original, .getter, .setDebugOut, .newString, .setField, .setStaticField, .cache]

/-- All that proxies do in the game. -/
def proxyEffects : List Effect :=
  [.original, .getter, .setDebugOut, .useCloud, .newString, .setField, .setStaticField, .route, .cache]

theorem Confined.ruleWithin (build : Build) (hook : Hook) {effects : List Effect}
    (traces : ungatedEffects ⊆ effects)
    (judges : guardsConnection hook = true → .useCloud ∈ effects ∧ .route ∈ effects) :
    ProxyRule build hook (Confined anyAnswer effects) where
  seq := .seq
  quiet confined := confined.mono (by simp)
  original _ := (quiet rfl).seq fun _ => perform rfl (traces (by decide))
  selected _ _ := (quiet rfl).seq fun _ => .ite (fun _ => done _) fun _ => perform rfl (traces (by decide))
  appId _ := .ite (fun _ => done _) fun _ => .api rfl (traces (by decide))
  state := .connectionStateVia _ _ (traces (by decide)) (traces (by decide))
  server := .serverAddress (traces (by decide)) (traces (by decide))
  auth _ := .logAuthSnapshot _ (traces (by decide)) (traces (by decide))
  verbose _ := .enableVerbosePhotonLogs (traces (by decide)) (traces (by decide)) (traces (by decide))
  settings _ := .currentServerSettings (traces (by decide))
  repair _ _ := (Confined.currentServerSettings (traces (by decide))).seq fun settings =>
    (Confined.applyConfigToSettings _ _ _ (traces (by decide)) (traces (by decide))).seq fun _ => done _
  guardState _ := .connectionStateVia _ _ (traces (by decide)) (traces (by decide))
  route guards _ _ := .forceCloudRoute _ _ (traces (by decide)) (traces (by decide)) (judges guards).1
  verdict guards _ := perform rfl (judges guards).2

theorem Confined.rule (build : Build) (hook : Hook) :
    ProxyRule build hook (Confined anyAnswer proxyEffects) :=
  ruleWithin build hook (by decide) fun _ => by decide

/-- Only the guards of connections give a verdict on the route. -/
theorem Confined.ungated (build : Build) {hook : Hook} (traces : guardsConnection hook = false)
    (args : List Word) : Confined anyAnswer ungatedEffects (hook.proxy build args) :=
  (ruleWithin build hook (by decide) fun guards => nomatch traces.symm.trans guards).proxy args

end Opg3d
