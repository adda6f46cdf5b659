import Opg3d.Activation.Accounts
import Opg3d.Activation.StartupRule

namespace Opg3d

open Kit Native HookEngine Photon CloudGuard

/-- The methods that the library calls through a pointer. -/
def Managed.target : Managed → ManagedMethod
  | .connectionState => ⟨"", "PhotonNetwork", "get_connectionStateDetailed", 0⟩
  | .serverAddress => ⟨"", "PhotonNetwork", "get_ServerAddress", 0⟩
  | .authValues => ⟨"", "PhotonNetwork", "get_AuthValues", 0⟩
  | .setDebugOut => ⟨"ExitGames.Client.Photon", "PhotonPeer", "set_DebugOut", 1⟩
  | .useCloud => useCloudTarget

/-- What a function-local static is there to keep: a static field of
`PhotonNetwork`, or the code or the info of a method. -/
inductive Lookup where
  | field (name : String)
  | code (method : Managed)
  | info (method : Managed)

def Static.lookup : Static → Lookup
  | .settingsField | .guardSettingsField => .field "PhotonServerSettings"
  | .logLevelField => .field "logLevel"
  | .peerField => .field "networkingPeer"
  | .stateFn | .guardStateFn => .code .connectionState
  | .stateMethod | .guardStateMethod => .info .connectionState
  | .serverAddressFn => .code .serverAddress
  | .serverAddressMethod => .info .serverAddress
  | .authFn => .code .authValues
  | .authMethod => .info .authValues
  | .setDebugFn => .code .setDebugOut
  | .setDebugMethod => .info .setDebugOut
  | .guardUseCloudFn => .code .useCloud
  | .guardUseCloudMethod => .info .useCloud

/-- The static for the info of the method whose code this one keeps. -/
def Static.infoCell : Static → Option Static
  | .stateFn => some .stateMethod
  | .serverAddressFn => some .serverAddressMethod
  | .authFn => some .authMethod
  | .setDebugFn => some .setDebugMethod
  | .guardStateFn => some .guardStateMethod
  | .guardUseCloudFn => some .guardUseCloudMethod
  | _ => none

/-- What the metadata answers to a lookup. -/
def Metadata.result (m : Metadata) : Lookup → Ptr
  | .field name => m.fieldNamed "" "PhotonNetwork" name
  | .code method => m.codeOf method.target
  | .info method => m.methodInfo method.target

/-- Two statics of one lookup: the code of a method and its info. -/
structure Static.Pair (fn info : Static) (method : Managed) : Prop where
  together : fn.infoCell = some info
  code : fn.lookup = .code method
  kept : info.lookup = .info method

/-- Follows which statics a proxy knows to be filled. A filled one holds the
answer of the metadata, and it stays filled whatever runs in between. -/
def caching (m : Metadata) : Monitor nativeSignature (List Static) where
  allow known op answer :=
    match op, answer with
    | .static cell, value => (value = 0 ∨ value = m.result cell.lookup) ∧ (cell ∈ known → value ≠ 0)
    | .apiPtr f, fn => f ≠ .threadDetach → fn ≠ 0
    | op, answer => m.AnswersTo op answer
  ok known op :=
    match op with
    | .setStatic cell value => value = m.result cell.lookup ∧
      (value ≠ 0 → ∀ info ∈ cell.infoCell, info ∈ known)
    | .managed method fn args => fn = m.codeOf method.target ∧
      args.getLast? = some (Ptr.word (m.methodInfo method.target))
    | .call _ (.fieldStaticSetValue field value) =>
      field ≠ 0 ∧ field = m.fieldNamed "" "PhotonNetwork" "logLevel" ∧ value = int32Bytes 2
    | _ => True
  next known op answer :=
    match op, answer with
    | .static cell, value => if value = 0 then known else cell :: (cell.infoCell.toList ++ known)
    | .setStatic cell value, _ => if value = 0 then known else cell :: known
    | _, _ => known

/-- The code writes to a static only what belongs there, and calls managed
code only as the metadata says. -/
def Caches (m : Metadata) {α : Type} (p : Native α) : Prop :=
  ∀ known, p.wp (caching m) (fun _ _ => True) known

namespace Caches

variable {m : Metadata} {α β : Type}

theorem seq {p : Native α} {f : α → Native β} (first : Caches m p) (second : ∀ a, Caches m (f a)) :
    Caches m (p >>= f) :=
  fun known => (first known).bind fun after a _ => second a after

theorem quiet {p : Native α} (confined : Confined anyAnswer [] p) : Caches m p := by
  refine confined.accepted (fun known op nothing => ?_) fun _ _ _ _ => trivial
  cases op with
  | setStatic | managed => exact absurd (nothing _ rfl) (by simp)
  | call fn request =>
    cases request with
    | fieldStaticSetValue => exact absurd (nothing _ rfl) (by simp)
    | _ => trivial
  | _ => trivial

theorem answers (known : List Static) : m.Answers (caching m) known where
  apiPtr _ := ⟨trivial, fun _ bound => ⟨rfl, bound⟩⟩
  call _ request answer _ question := by
    cases request with
    | fieldStaticSetValue => cases question
    | _ => exact ⟨trivial, fun _ told => ⟨rfl, told answer question⟩⟩
  methodPointer _ := ⟨trivial, fun _ told => ⟨rfl, told⟩⟩

/-- Reading a static: what comes next goes on with null or with the answer. -/
theorem static {cell : Static} {f : Ptr → Native α} {post : List Static → α → Prop} {known : List Static}
    (empty : cell ∉ known → (f 0).wp (caching m) post known)
    (filled : m.result cell.lookup ≠ 0 → (f (m.result cell.lookup)).wp (caching m) post
      (cell :: (cell.infoCell.toList ++ known))) :
    (static cell >>= f).wp (caching m) post known := by
  refine ⟨trivial, fun value ⟨right, full⟩ => ?_⟩
  by_cases null : value = 0
  · subst null
    exact empty fun member => full member rfl
  · obtain rfl := right.resolve_left null
    rw [show (caching m).next known (.static cell) (m.result cell.lookup) = _ from if_neg null]
    exact filled null

theorem cacheField {cell : Static} {name : String} (field : cell.lookup = .field name)
    (alone : cell.infoCell = none) : Caches m (cacheField cell "PhotonNetwork" name) := by
  have right : m.result cell.lookup = m.fieldNamed "" "PhotonNetwork" name := by rw [field, Metadata.result]
  intro known
  refine static (fun _ => ?_) fun full => .ite (absurd · full) fun _ => trivial
  refine .ite (fun _ => ?_) (absurd rfl)
  refine ((answers known).findField_wp _ _ _).seq ⟨⟨right.symm, fun _ info member => ?_⟩,
    fun _ _ => trivial⟩
  rw [alone] at member
  cases member

theorem staticObject (cell : Static) : Caches m (staticObject cell) := by
  refine fun known => static (fun _ => .ite (fun _ => trivial) (absurd rfl)) fun full =>
    .ite (fun _ => trivial) fun _ => ?_
  exact ⟨trivial, fun _ _ => ⟨trivial, fun _ _ => trivial⟩⟩

/-- What the lookup hands on, with the info kept beside it. -/
theorem lookupCached_wp {fn info : Static} {method : Managed} (pair : fn.Pair info method)
    (known : List Static) :
    (lookupCached fn info method.target).wp (caching m)
      (fun after found => found ≠ 0 → found = m.codeOf method.target ∧ info ∈ after) known := by
  have code : m.result fn.lookup = m.codeOf method.target := by rw [pair.code, Metadata.result]
  have kept : m.result info.lookup = m.methodInfo method.target := by rw [pair.kept, Metadata.result]
  have inside {known : List Static} : info ∈ fn :: (fn.infoCell.toList ++ known) := by simp [pair.together]
  have last (known : List Static) : (Native.static fn).wp (caching m)
      (fun after found => found ≠ 0 → found = m.codeOf method.target ∧ info ∈ after) known := by
    rw [← Prog.bind_done (Native.static fn)]
    exact static (fun _ null => absurd rfl null) fun _ _ => ⟨code, inside⟩
  refine static (fun _ => .ite (fun _ => ?_) (absurd rfl)) fun full => .ite (absurd · full) fun _ => last _
  refine ((answers known).findMethodInfo_wp method.target).seq ?_
  have alone : info.infoCell = none := by
    obtain ⟨together, _, kept⟩ := pair
    cases fn with
    | stateFn | serverAddressFn | authFn | setDebugFn | guardStateFn | guardUseCloudFn =>
      cases together; rfl
    | _ => cases together
  refine ⟨⟨kept.symm, fun _ other member => by rw [alone] at member; cases member⟩, fun _ _ => ?_⟩
  refine ((answers _).methodPointer_wp _).seq ⟨⟨code.symm, fun found other member => ?_⟩, fun _ _ => last _⟩
  obtain rfl : info = other := Option.some.inj (pair.together.symm.trans member)
  have present : m.methodInfo method.target ≠ 0 := by
    intro missing
    exact found (if_pos missing)
  show info ∈ if m.methodInfo method.target = 0 then known else info :: known
  rw [if_neg present]
  exact List.mem_cons_self ..

/-- Reading the info kept beside a pointer that has been handed on. -/
theorem info_wp {info : Static} {method : Managed} (kept : info.lookup = .info method) {known : List Static}
    (member : info ∈ known) {f : Ptr → Native α} {post : List Static → α → Prop}
    (rest : ∀ known, (f (m.methodInfo method.target)).wp (caching m) post known) :
    (Native.static info >>= f).wp (caching m) post known := by
  have same : m.result info.lookup = m.methodInfo method.target := by rw [kept, Metadata.result]
  exact static (absurd member) fun _ => same ▸ rest _

theorem connectionStateVia {fn info : Static} (pair : fn.Pair info .connectionState) :
    Caches m (connectionStateVia fn info) := by
  refine fun known => (lookupCached_wp pair known).bind fun known found usable =>
    .ite (fun _ => trivial) fun present => ?_
  obtain ⟨rfl, member⟩ := usable present
  exact info_wp pair.kept member fun known => ⟨⟨rfl, rfl⟩, fun _ _ => trivial⟩

theorem serverAddress : Caches m Photon.serverAddress := by
  have pair : Static.Pair .serverAddressFn .serverAddressMethod .serverAddress := ⟨rfl, rfl, rfl⟩
  refine fun known => (lookupCached_wp pair known).bind fun known found usable =>
    .ite (fun _ => trivial) fun present => ?_
  obtain ⟨rfl, member⟩ := usable present
  exact info_wp pair.kept member fun known => ⟨⟨rfl, rfl⟩, fun address _ => quiet (.toUtf8 _ _) _⟩

theorem logAuthSnapshot (point : String) : Caches m (logAuthSnapshot point) := by
  have pair : Static.Pair .authFn .authMethod .authValues := ⟨rfl, rfl, rfl⟩
  refine fun known => (lookupCached_wp pair known).bind fun known found usable => ?_
  refine .ite (fun _ => quiet (.log _ _ _) _) fun present => ?_
  obtain ⟨rfl, member⟩ := usable present
  refine info_wp pair.kept member fun known => ⟨⟨rfl, rfl⟩, fun auth _ => quiet ?_ _⟩
  refine .ite (fun _ => .log _ _ _) fun _ => (Confined.readInt32 _ _).seq fun type =>
    (Confined.readRef _ _).seq fun token => ?_
  refine (Confined.readRef _ _).seq fun userId => (Confined.lengthOrZero _).seq fun tokenLen => ?_
  exact (Confined.lengthOrZero _).seq fun userLen => .log _ _ _

theorem enableVerbosePhotonLogs : Caches m enableVerbosePhotonLogs := by
  have raised : Caches m raiseLogLevel := by
    refine fun known => static (fun _ => .ite (absurd rfl) fun _ => trivial) fun full =>
      .ite (fun _ => ?_) fun _ => trivial
    exact ⟨trivial, fun _ _ => ⟨⟨full, rfl, rfl⟩, fun _ _ => trivial⟩⟩
  have pair : Static.Pair .setDebugFn .setDebugMethod .setDebugOut := ⟨rfl, rfl, rfl⟩
  refine (cacheField rfl rfl).seq fun _ => raised.seq fun _ => (cacheField rfl rfl).seq fun _ => ?_
  refine (staticObject _).seq fun peer known => ?_
  refine (lookupCached_wp pair known).bind fun known setDebug usable =>
    .ite (fun both => ?_) fun _ => trivial
  obtain ⟨rfl, member⟩ := usable both.2
  refine info_wp pair.kept member fun known => ⟨⟨rfl, rfl⟩, fun _ _ => quiet ?_ _⟩
  exact (Confined.quiet rfl).seq fun logged => .ite (fun _ => .log _ _ _) fun _ => .done _

theorem currentServerSettings : Caches m Photon.currentServerSettings :=
  (cacheField rfl rfl).seq fun _ => staticObject _

theorem guardServerSettings : Caches m CloudGuard.currentServerSettings := by
  refine (cacheField rfl rfl).seq fun _ known => static (fun _ =>
    .ite (fun _ => trivial) (absurd rfl)) fun full => ?_
  refine .ite (absurd · full) fun _ => (quiet (.anyNull _) _).bind fun known unbound _ => ?_
  exact .ite (fun _ => trivial) fun _ => staticObject _ known

/-- Code that starts or changes things in other ways. -/
theorem apart (effects : List Effect) {p : Native α} (confined : Confined anyAnswer effects p)
    (others : ∀ e ∈ effects, e = .original ∨ e = .newString ∨ e = .setField ∨ e = .route) : Caches m p := by
  refine confined.accepted (fun known op within => ?_) fun _ _ _ _ => trivial
  cases op with
  | setStatic => exact absurd (others _ (within _ rfl)) (by simp)
  | managed method => cases method <;> exact absurd (others _ (within _ rfl)) (by simp [Managed.effect])
  | call fn request =>
    cases request with
    | fieldStaticSetValue => exact absurd (others _ (within _ rfl)) (by simp)
    | _ => trivial
  | _ => trivial

theorem forceCloudRoute (build : Build) (point : String) : Caches m (forceCloudRoute build point) := by
  have pair : Static.Pair .guardUseCloudFn .guardUseCloudMethod .useCloud := ⟨rfl, rfl, rfl⟩
  have failed (p : Native Unit) (said : Confined anyAnswer [] p) : Caches m (do p; return false) :=
    quiet (said.seq fun _ => .done _)
  refine branches (quiet ?_) (guardServerSettings.seq fun settings => branches (failed _ (.log _ _ _)) ?_)
  · exact (Confined.quiet rfl).seq fun logged => .ite (fun _ =>
      (Confined.log _ _ _).seq fun _ => .done _) fun _ => .done _
  have made : Caches m newAppIdString := apart [.newString]
    (.newAppIdString (List.mem_singleton_self _)) (by simp)
  refine made.seq fun appId => branches (failed _ (.log _ _ _)) fun known => ?_
  refine (lookupCached_wp pair known).bind fun known useCloud usable => ?_
  by_cases missing : useCloud = 0
  · refine static (fun _ => .ite (fun _ => ?_) (absurd (.inl missing))) fun _ =>
      .ite (fun _ => ?_) (absurd (.inl missing))
    · exact quiet ((Confined.log _ _ _).seq fun _ => (Confined.quiet rfl).seq fun _ => .done _) _
    · exact quiet ((Confined.log _ _ _).seq fun _ => (Confined.quiet rfl).seq fun _ => .done _) _
  obtain ⟨rfl, member⟩ := usable missing
  refine info_wp pair.kept member fun known => .ite (fun _ => ?_) fun _ => ?_
  · exact quiet ((Confined.log _ _ _).seq fun _ => (Confined.quiet rfl).seq fun _ => .done _) _
  · exact ⟨⟨rfl, rfl⟩, fun _ _ => quiet (.verifyRoute _ _ _) _⟩

theorem rule (build : Build) (hook : Hook) : ProxyRule build hook (Caches m) where
  seq := seq
  quiet := quiet
  original _ := apart [.original] ((Confined.quiet rfl).seq fun _ =>
    .perform rfl (List.mem_singleton_self Effect.original)) (by simp)
  selected _ _ := apart [.original] ((Confined.quiet rfl).seq fun _ => .ite (fun _ => .done _) fun _ =>
    .perform rfl (List.mem_singleton_self Effect.original)) (by simp)
  appId _ := apart [.newString] (.ite (fun _ => .done _) fun _ =>
    .api rfl (List.mem_singleton_self Effect.newString)) (by simp)
  state := connectionStateVia ⟨rfl, rfl, rfl⟩
  server := serverAddress
  auth := logAuthSnapshot
  verbose _ := enableVerbosePhotonLogs
  settings _ := currentServerSettings
  repair _ point := currentServerSettings.seq fun settings => seq
    (apart [.newString, .setField] (.applyConfigToSettings _ _ _ (by decide) (by decide)) (by simp)) fun _ =>
      quiet (.done _)
  guardState _ := connectionStateVia ⟨rfl, rfl, rfl⟩
  route _ _ := forceCloudRoute build
  verdict _ _ := apart [.route] (.perform rfl (List.mem_singleton_self Effect.route)) (by simp)

end Caches

/-- The library in a game whose metadata is settled by the time of the first
hook: from then on questions about it get the same answers. -/
def game (build : Build) (m : Metadata) : Machine nativeSignature System Ptr Word :=
  { system build with
    admits := fun s op answer =>
      s.memory.admits op answer ∧ ((∃ address, s.memory.patched address ≠ none) → m.AnswersTo op answer) }

/-- Each static is empty or holds what belongs there, and no code pointer is
kept without its info. -/
structure Cached (m : Metadata) (s : System) : Prop where
  right : ∀ cell, s.memory.static cell = 0 ∨ s.memory.static cell = m.result cell.lookup
  paired : ∀ fn info, fn.infoCell = some info → s.memory.static fn ≠ 0 → s.memory.static info ≠ 0

theorem static_after {s : System} {op : NativeOp} (answer : op.Ans)
    (other : ∀ cell value, op ≠ .setStatic cell value) :
    (s.after op answer).memory.static = s.memory.static := by
  cases op with
  | setStatic cell value => exact absurd rfl (other cell value)
  | mark m => cases m <;> rfl
  | shadowhookHook address replacement cell =>
    simp only [System.after, Memory.after, Memory.hooked]
    split <;> rfl
  | _ => rfl

section

variable {m : Metadata} {build : Build}

/-- One step of a proxy: what is cached stays right, nothing filled is
emptied, and what the proxy knows to be filled is. -/
theorem Cached.step {s : System} {known : List Static} {op : NativeOp} {answer : op.Ans}
    (cached : Cached m s) (full : ∀ cell ∈ known, s.memory.static cell ≠ 0)
    (ok : (caching m).ok known op) (admitted : s.memory.admits op answer) :
    Cached m (s.after op answer) ∧ (∀ cell, s.memory.static cell ≠ 0 →
      (s.after op answer).memory.static cell ≠ 0) ∧
      ∀ cell ∈ (caching m).next known op answer, (s.after op answer).memory.static cell ≠ 0 := by
  by_cases writes : ∃ cell value, op = .setStatic cell value
  · obtain ⟨cell, value, rfl⟩ := writes
    obtain ⟨right, kept⟩ := ok
    let after := Function.update s.memory.static cell value
    have filled (other : Static) (held : s.memory.static other ≠ 0) : after other ≠ 0 := by
      by_cases same : other = cell
      · subst same
        rw [show after other = value from Function.update_self ..]
        exact right ▸ (cached.right other).resolve_left held ▸ held
      · rwa [show after other = s.memory.static other from Function.update_of_ne same ..]
    refine ⟨⟨fun other => ?_, fun fn info together held => ?_⟩, filled, fun other member => ?_⟩
    · by_cases same : other = cell
      · subst same
        exact .inr ((Function.update_self ..).trans right)
      · have still : after other = s.memory.static other := Function.update_of_ne same ..
        show after other = 0 ∨ after other = _
        rw [still]
        exact cached.right other
    · by_cases same : fn = cell
      · subst same
        have present : value ≠ 0 := (Function.update_self fn value s.memory.static) ▸ held
        exact filled info (full info (kept present info together))
      · exact filled info (cached.paired fn info together
          ((Function.update_of_ne same value s.memory.static) ▸ held))
    · by_cases null : value = 0
      · rw [show (caching m).next known (.setStatic cell value) answer = known from if_pos null] at member
        exact filled other (full other member)
      · rw [show (caching m).next known (.setStatic cell value) answer = cell :: known from if_neg null] at member
        rcases List.mem_cons.mp member with rfl | before
        · rwa [show (s.after (.setStatic other value) answer).memory.static other =
            value from Function.update_self ..]
        · exact filled other (full other before)
  have still : (s.after op answer).memory.static = s.memory.static :=
    static_after answer fun cell value same => writes ⟨cell, value, same⟩
  refine ⟨⟨fun cell => still ▸ cached.right cell, fun fn info => still ▸ cached.paired fn info⟩,
    fun cell => still ▸ id, fun cell member => still ▸ ?_⟩
  cases op with
  | static read =>
    obtain rfl : answer = s.memory.static read := admitted
    by_cases null : s.memory.static read = 0
    · rw [show (caching m).next known (.static read) (s.memory.static read) = known from if_pos null] at member
      exact full cell member
    · have step : (caching m).next known (.static read) (s.memory.static read) =
          read :: (read.infoCell.toList ++ known) := if_neg null
      rw [step] at member
      rcases List.mem_cons.mp member with rfl | others
      · exact null
      rcases List.mem_append.mp others with beside | before
      · exact cached.paired read cell (Option.mem_toList.mp beside) null
      · exact full cell before
  | setStatic read value => exact absurd ⟨read, value, rfl⟩ writes
  | _ => exact full cell member

/-- A proxy under way, with the statics that it knows to be filled. -/
def CacheHolds (m : Metadata) (s : System) (site : Ptr) (p : Native Word) : Prop :=
  ProxyHolds s site p ∧ ∃ known, (∀ cell ∈ known, s.memory.static cell ≠ 0) ∧
    p.wp (caching m) (fun _ _ => True) known

theorem CacheHolds.answered {s : System} {site : Ptr} {op : NativeOp} {next : op.Ans → Native Word}
    {answer : op.Ans} (cached : Cached m s) (held : CacheHolds m s site (.ask op next))
    (admitted : (game build m).admits s op answer) :
    Cached m (s.after op answer) ∧ (∀ cell, s.memory.static cell ≠ 0 →
      (s.after op answer).memory.static cell ≠ 0) ∧
      ∃ known, (∀ cell ∈ known, (s.after op answer).memory.static cell ≠ 0) ∧
        (next answer).wp (caching m) (fun _ _ => True) known := by
  obtain ⟨⟨hook, carried, _, bound, _⟩, known, full, ok, rest⟩ := held
  obtain ⟨still, filled, knows⟩ := cached.step full ok admitted.1
  refine ⟨still, filled, _, knows, rest answer ?_⟩
  have told : m.AnswersTo op answer := admitted.2 ⟨site, fun none => nomatch none.symm.trans carried⟩
  cases op with
  | static cell =>
    obtain rfl : answer = s.memory.static cell := admitted.1
    exact ⟨cached.right cell, full cell⟩
  | apiPtr f =>
    obtain rfl : answer = s.memory.api f := admitted.1
    exact bound f
  | _ => exact told

def gameDiscipline (build : Build) (m : Metadata) : (game build m).Discipline where
  fit _ _ _ := True
  inv s := s.core.Sound ∧ Cached m s
  later s t := s.core.Later t.core ∧ ∀ cell, s.memory.static cell ≠ 0 → t.memory.static cell ≠ 0
  holds := CacheHolds m
  aside s p := p.wp (Core.startup none) (fun _ _ => True) s.core ∧ StartsUp p
  later_keeps later held := by
    obtain ⟨proxy, known, full, rest⟩ := held
    exact ⟨proxy.later later.1, known, fun cell member => later.2 cell (full cell member), rest⟩
  opening_inv inv quiet := ⟨⟨inv.1, inv.2.right, inv.2.paired⟩, quiet⟩
  opening_aside aside := aside
  entered {s site args p} inv quiet _ entered := by
    refine ⟨(libraryDiscipline build).entered inv.1 quiet trivial entered, [], nofun, ?_⟩
    obtain ⟨hook, carried, rfl⟩ := Option.map_eq_some_iff.mp entered
    exact (Caches.rule build hook).proxy args []
  answered inv held here admitted := by
    obtain ⟨sound, later, rest, aside⟩ := (libraryDiscipline build).answered inv.1 held.1 here admitted.1
    obtain ⟨cached, filled, knows⟩ := held.answered inv.2 admitted
    exact ⟨⟨sound, cached⟩, ⟨later, filled⟩, ⟨rest, knows⟩, fun beside => ⟨aside beside.1, beside.2⟩⟩
  returned {s site op next exit result} held leaves := by
    obtain ⟨proxy, known, full, _, rest⟩ := held
    refine ⟨proxy.returned leaves, known, full, ?_⟩
    cases op with
    | original => exact rest _ trivial
    | managed => exact rest _ trivial
    | _ => cases leaves
  asideAnswered {s op next answer} inv aside here admitted := by
    obtain ⟨sound, later, rest⟩ := (libraryDiscipline build).asideAnswered inv.1 aside.1 here admitted.1
    have still : (s.after op answer).memory.static = s.memory.static := by
      refine static_after _ fun cell value same => ?_
      subst same
      exact absurd (aside.2.1 .cache rfl) (by decide)
    exact ⟨⟨sound, ⟨fun cell => still ▸ inv.2.right cell, fun fn info => still ▸ inv.2.paired fn info⟩⟩,
      ⟨later, fun cell => still ▸ id⟩, rest, aside.2.2 answer trivial⟩

theorem gameKept_initial (build : Build) (m : Metadata) :
    (gameDiscipline build m).Kept (loading build) := by
  obtain ⟨sound, aside, _⟩ := kept_initial build
  exact ⟨⟨sound, fun _ => .inl rfl, fun _ _ _ filled => absurd rfl filled⟩,
    ⟨aside, StartsUp.initThread build⟩, nofun⟩

/-- What an operation has to keep to in a game of such metadata. -/
def AsLookedUp (m : Metadata) : NativeOp → Prop
  | .managed method fn args =>
    fn ≠ 0 ∧ fn = m.codeOf method.target ∧ args.getLast? = some (Ptr.word (m.methodInfo method.target))
  | .call _ (.fieldStaticSetValue field value) =>
    field ≠ 0 ∧ field = m.fieldNamed "" "PhotonNetwork" "logLevel" ∧ value = int32Bytes 2
  | _ => True

/-- From the loading of the library on, however calls of the game, calls back
from it and the start-up thread are interleaved (no entry is taken while
`hook::install` executes), a static that keeps a lookup is empty or holds what
the metadata says; a managed method is called at its own code with its own
info, and no static field but `logLevel` is set. -/
theorem cached_lookups {build : Build} {m : Metadata} {labels : List GameLabel} {c : GameConfig}
    (run : (game build m).Run (loading build) labels c) :
    (∀ cell, c.shared.memory.static cell = 0 ∨ c.shared.memory.static cell = m.result cell.lookup) ∧
      ∀ op, Performs c op → AsLookedUp m op := by
  obtain ⟨⟨_, cached⟩, aside, held⟩ := (gameDiscipline build m).run_any (fun _ _ _ => trivial)
    (gameKept_initial build m) run
  refine ⟨cached.right, fun op performs => ?_⟩
  rcases performs with ⟨site, next, rest, top⟩ | ⟨next, here⟩
  · obtain ⟨⟨hook, _, _, _, may, _⟩, known, _, ok, _⟩ := held site _ (top ▸ List.mem_cons_self ..)
    cases op with
    | managed method fn args => exact ⟨may, ok⟩
    | call fn request =>
      cases request with
      | fieldStaticSetValue => exact ok
      | _ => trivial
    | _ => trivial
  · obtain ⟨within, _⟩ := here ▸ aside.2
    cases op with
    | managed method => cases method <;> exact absurd (within _ rfl) (by decide)
    | call fn request =>
      cases request with
      | fieldStaticSetValue => exact absurd (within _ rfl) (by decide)
      | _ => trivial
    | _ => trivial

end

/-- The sample game with the assembly that the start-up waits for. -/
def Sample.settled : Metadata := { Sample.metadata with imageName := fun _ => some "Assembly-CSharp.dll" }

theorem Sample.starting_told (s : System) (op : NativeOp) (given : op.Ans)
    (told : Sample.starting s op = some given) : Sample.settled.AnswersTo op given := by
  have metadata (op : NativeOp) (given : op.Ans) (told : Sample.reply s op = some given) :
      Sample.metadata.AnswersTo op given := by
    obtain ⟨passed, same⟩ := Option.ite_none_right_eq_some.mp told
    cases same
    exact (Sample.answer_step s op passed).2.1
  unfold Sample.starting at told
  split at told
  · nofun
  · obtain ⟨_, same⟩ := Option.ite_none_left_eq_some.mp told
    intro known answered
    exact (Option.some.inj same).symm.trans (Option.some.inj answered)
  · rename_i other
    cases op with
    | call fn request =>
      cases request with
      | imageGetName image => exact absurd rfl (other fn image)
      | _ => exact metadata _ _ told
    | methodPointer => exact metadata _ _ told
    | _ => trivial

def managedCall (c : GameConfig) : Option (Managed × Ptr) :=
  match c.stack with
  | .code _ (.ask (.managed method fn _) _) :: _ => some (method, fn)
  | _ => none

theorem performs_of_managedCall {c : GameConfig} {method : Managed} {fn : Ptr}
    (calling : managedCall c = some (method, fn)) : ∃ args, Performs c (.managed method fn args) := by
  unfold managedCall at calling
  split at calling
  · rename_i site method fn args next rest top
    cases calling
    exact ⟨args, .inl ⟨site, next, rest, top⟩⟩
  · cases calling

/-- The guard of the scene calls `UseCloud` where the metadata has it. -/
theorem connectScene_lookedUp : ∃ labels c args,
    (game Sample.build Sample.settled).Run (loading Sample.build) labels c ∧
      Performs c (.managed .useCloud 57474 args) ∧
        AsLookedUp Sample.settled (.managed .useCloud 57474 args) := by
  have played : ((game Sample.build Sample.settled).play Sample.starting (fun s _ _ => !s.installing)
      [.go Sample.startupSteps, .call (Sample.metadata.codeOf
        ⟨"", "ConnectScene", "HandleGoBtnClicked", 0⟩) [16, 0], .go 46]
      (loading Sample.build)).bind managedCall = some (.useCloud, 57474) := by decide +kernel
  obtain ⟨c, reached, calling⟩ := Option.bind_eq_some_iff.mp played
  have admitted (s : System) (op : NativeOp) (given : op.Ans) (told : Sample.starting s op = some given) :
      (game Sample.build Sample.settled).admits s op given :=
    ⟨Sample.starting_admitted s op given told, fun _ => Sample.starting_told s op given told⟩
  obtain ⟨labels, run⟩ := Machine.play_run (fun _ _ _ => True) admitted
    (fun s _ _ idle => ⟨by simpa [game, system] using idle, trivial⟩) (fun _ quiet => quiet) reached
  have run : (game Sample.build Sample.settled).Run (loading Sample.build) labels c :=
    run.weaken fun _ _ _ => trivial
  obtain ⟨args, performs⟩ := performs_of_managedCall calling
  exact ⟨labels, c, args, run, performs, (cached_lookups run).2 _ performs⟩

end Opg3d
