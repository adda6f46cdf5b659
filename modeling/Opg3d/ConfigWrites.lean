import Mathlib.Logic.Function.Basic
import Opg3d.Native.World

namespace Opg3d.Photon

open Kit Native

/-- The runtime during one call: the exports, the class of each object, the
handle of each field, null where there is none, and what `string_new` returns. -/
structure Runtime where
  api : Api → Ptr
  klass : Ptr → Ptr
  field : Ptr → String → Ptr
  allocation : ConfigText → Ptr
  distinct : ∀ klass name other, field klass name ≠ 0 → field klass name = field klass other → name = other
  apart : allocation .photonAppId ≠ 0 → allocation .photonAppId ≠ allocation .photonServerAddress

/-- The fields of the game's objects, the texts of its strings, and how often
a field has been set. -/
structure Game where
  content : Ptr → Ptr → Bytes
  string : Ptr → Option Bytes
  stores : Nat

/-- The text that the build configures. -/
def configured (build : Build) : ConfigText → Bytes
  | .photonAppId => build.appId
  | .photonServerAddress => build.serverAddress

namespace Game

/-- A field is set to exactly the value given. -/
def store (g : Game) (object field : Ptr) (value : Bytes) : Game :=
  { g with
    content := Function.update g.content object (Function.update (g.content object) field value)
    stores := g.stores + 1 }

def allocate (g : Game) (p : Ptr) (text : Bytes) : Game :=
  if p = 0 then g else { g with string := Function.update g.string p (some text) }

end Game

namespace Runtime

variable {r : Runtime} {build : Build} {g : Game}

def answer (r : Runtime) (build : Build) (g : Game) : (op : NativeOp) → op.Ans × Game
  | .apiPtr f => (r.api f, g)
  | .call _ (.stringNew text) => (r.allocation text, g.allocate (r.allocation text) (configured build text))
  | .call _ (.objectGetClass object) => (r.klass object, g)
  | .call _ (.classGetFieldFromName klass name) => (r.field klass name, g)
  | .call _ (.fieldSetValue object field value) => ((), g.store object field value.bytes)
  | op => (op.nothing, g)

def handle (r : Runtime) (object : Ptr) (name : String) : Ptr := r.field (r.klass object) name

/-- What a field of an object holds. -/
def held (r : Runtime) (g : Game) (object : Ptr) (name : String) : Bytes :=
  g.content object (r.handle object name)

/-- A write of the field succeeds. -/
def Writes (r : Runtime) (object : Ptr) (name : String) : Prop :=
  object ≠ 0 ∧ r.api .objectGetClass ≠ 0 ∧ r.api .classGetFieldFromName ≠ 0 ∧ r.api .fieldSetValue ≠ 0 ∧
    r.klass object ≠ 0 ∧ r.handle object name ≠ 0

instance (object : Ptr) (name : String) : Decidable (r.Writes object name) :=
  inferInstanceAs (Decidable (_ ∧ _))

/-- The game after an attempt to write a field. -/
def put (r : Runtime) (g : Game) (object : Ptr) (name : String) (value : Bytes) : Game :=
  if r.Writes object name then g.store object (r.handle object name) value else g

theorem anyNull_eval (fs : List Api) :
    (anyNull fs).eval (r.answer build) g = (decide (∃ f ∈ fs, r.api f = 0), g) := by
  induction fs with
  | nil => rfl
  | cons f rest ih =>
    show Prog.eval (r.answer build) (if r.api f = 0 then .done true else anyNull rest) g = _
    by_cases null : r.api f = 0
    · simp [null]
    · rw [if_neg null, ih]
      simp [null]

theorem writeField_eval (object : Ptr) (name : String) (value : Bytes) :
    (writeField object name value).eval (r.answer build) g = (decide (r.Writes object name),
      r.put g object name value) := by
  have skipped (fails : ¬r.Writes object name) :
      (false, g) = (decide (r.Writes object name), r.put g object name value) := by
    rw [put, if_neg fails, decide_eq_false fails]
  by_cases absent : object = 0
  · exact (Prog.eval_pos absent).trans (skipped fun writes => writes.1 absent)
  refine (Prog.eval_neg absent).trans ((Prog.eval_seq (anyNull_eval _)).trans ?_)
  by_cases unbound : ∃ f ∈ [Api.objectGetClass, .classGetFieldFromName, .fieldSetValue], r.api f = 0
  · rw [decide_eq_true unbound]
    refine skipped fun writes => ?_
    obtain ⟨_, first, second, third, _⟩ := writes
    simp [first, second, third] at unbound
  rw [decide_eq_false unbound]
  have bound : r.api .objectGetClass ≠ 0 ∧ r.api .classGetFieldFromName ≠ 0 ∧ r.api .fieldSetValue ≠ 0 := by
    simpa using unbound
  by_cases classless : r.klass object = 0
  · exact (Prog.eval_pos classless).trans (skipped fun writes => writes.2.2.2.2.1 classless)
  refine (Prog.eval_neg classless).trans ?_
  by_cases unknown : r.handle object name = 0
  · exact (Prog.eval_pos unknown).trans (skipped fun writes => writes.2.2.2.2.2 unknown)
  have writes : r.Writes object name := ⟨absent, bound.1, bound.2.1, bound.2.2, classless, unknown⟩
  rw [put, if_pos writes, decide_eq_true writes]
  exact Prog.eval_neg unknown

/-- A write touches the field of its name and no other. -/
theorem held_put (object : Ptr) (name other : String) (value : Bytes) :
    r.held (r.put g object name value) object other =
      if other = name ∧ r.Writes object name then value else r.held g object other := by
  unfold put
  by_cases writes : r.Writes object name
  swap
  · rw [if_neg writes, if_neg fun both => writes both.2]
  rw [if_pos writes]
  by_cases same : other = name
  · simp [same, writes, held, Game.store]
  · have apart : r.handle object other ≠ r.handle object name := fun equal =>
      same (r.distinct (r.klass object) name other writes.2.2.2.2.2 equal.symm).symm
    simp [same, held, Game.store, apart]

theorem string_put (object : Ptr) (name : String) (value : Bytes) :
    (r.put g object name value).string = g.string := by
  unfold put
  split <;> rfl

theorem stores_put (object : Ptr) (name : String) (value : Bytes) :
    (r.put g object name value).stores = g.stores + if r.Writes object name then 1 else 0 := by
  unfold put
  split <;> rfl

def afterAppId (r : Runtime) (build : Build) (g : Game) (settings : Ptr) : Game :=
  if build.appId = [] ∨ r.allocation .photonAppId = 0 then g
  else
    r.put (g.allocate (r.allocation .photonAppId) build.appId) settings "AppID"
      (ptrBytes (r.allocation .photonAppId))

def afterRoute (r : Runtime) (build : Build) (g : Game) (settings : Ptr) : Game :=
  if build.selfhosted then
    r.put (r.put g settings "HostType" (int32Bytes 2)) settings "Protocol" (int32Bytes 0)
  else g

def afterServer (r : Runtime) (build : Build) (g : Game) (settings : Ptr) : Game :=
  if build.serverAddress = [] then g
  else r.put (r.put (g.allocate (r.allocation .photonServerAddress) build.serverAddress) settings "ServerAddress"
    (ptrBytes (r.allocation .photonServerAddress))) settings "ServerPort" (int32Bytes build.serverPort)

/-- A part reports whether it has set a field. -/
def Reports (p : Native Bool) (r : Runtime) (build : Build) (g after : Game) : Prop :=
  g.stores ≤ after.stores ∧ p.eval (r.answer build) g = (decide (g.stores < after.stores), after)

theorem writeField_reports (object : Ptr) (name : String) (value : Bytes) :
    Reports (writeField object name value) r build g (r.put g object name value) := by
  unfold Reports
  rw [writeField_eval, stores_put]
  refine ⟨Nat.le_add_right .., ?_⟩
  by_cases writes : r.Writes object name <;> simp [writes]

theorem Reports.nothing : Reports (.done false) r build g g := ⟨le_refl _, by simp⟩

/-- Two parts one after the other, the second reporting for both. -/
theorem Reports.both {p : Native Bool} {q : Native Bool} {mid after : Game}
    (first : Reports p r build g mid) (second : Reports q r build mid after) :
    Reports (do let wrote ← p; let wrote' ← q; return wrote || wrote') r build g after := by
  refine ⟨first.1.trans second.1, ?_⟩
  refine (Prog.eval_seq first.2).trans ((Prog.eval_seq second.2).trans ?_)
  have low := first.1
  have high := second.1
  by_cases one : g.stores < mid.stores
  · have both : g.stores < after.stores := by omega
    simp [one, both]
  · have none : mid.stores = g.stores := by omega
    simp [none]

/-- A part behind the allocation of a string. -/
theorem Reports.allocating {q : Ptr → Native Bool} (text : ConfigText) {after : Game}
    (rest : Reports (q (r.allocation text)) r build
      (g.allocate (r.allocation text) (configured build text)) after) :
    Reports (do let p ← Native.api (.stringNew text); q p) r build g after := by
  have same : (g.allocate (r.allocation text) (configured build text)).stores = g.stores := by
    unfold Game.allocate
    split <;> rfl
  unfold Reports at rest ⊢
  rw [same] at rest
  exact ⟨rest.1, Eq.trans rfl rest.2⟩

theorem Reports.pos {c : Prop} [Decidable c] {p q : Native Bool} {after : Game} (holds : c)
    (yes : Reports p r build g after) : Reports (if c then p else q) r build g after := by
  rwa [if_pos holds]

theorem Reports.neg {c : Prop} [Decidable c] {p q : Native Bool} {after : Game} (fails : ¬c)
    (no : Reports q r build g after) : Reports (if c then p else q) r build g after := by
  rwa [if_neg fails]

theorem writeAppId_reports (settings : Ptr) :
    Reports (writeAppId build settings) r build g (r.afterAppId build g settings) := by
  unfold afterAppId
  by_cases empty : build.appId = []
  · rw [if_pos (Or.inl empty)]
    exact .pos empty .nothing
  refine .neg empty (.allocating .photonAppId (q := fun appId => do
    if appId = 0 then return false
    writeField settings "AppID" (ptrBytes appId)) ?_)
  by_cases failed : r.allocation .photonAppId = 0
  · have unchanged : g.allocate (r.allocation .photonAppId) (configured build .photonAppId) = g :=
      if_pos failed
    rw [if_pos (Or.inr failed), unchanged]
    exact .pos failed .nothing
  · rw [if_neg (not_or.mpr ⟨empty, failed⟩)]
    exact .neg failed (writeField_reports ..)

theorem writeSelfhostedRoute_reports (settings : Ptr) :
    Reports (writeSelfhostedRoute build settings) r build g (r.afterRoute build g settings) := by
  unfold afterRoute
  by_cases own : build.selfhosted = true
  · rw [if_pos own]
    exact .neg (by simp [own]) (.both (writeField_reports ..) (writeField_reports ..))
  · rw [if_neg own]
    exact .pos (by simpa using own) .nothing

theorem writeServer_reports (settings : Ptr) :
    Reports (writeServer build settings) r build g (r.afterServer build g settings) := by
  unfold afterServer
  by_cases empty : build.serverAddress = []
  · rw [if_pos empty]
    exact .pos empty .nothing
  · rw [if_neg empty]
    refine .neg empty (.allocating .photonServerAddress (q := fun address => do
      let wroteAddress ← writeField settings "ServerAddress" (ptrBytes address)
      let wrotePort ← writeField settings "ServerPort" (int32Bytes build.serverPort)
      return wroteAddress || wrotePort) ?_)
    exact .both (writeField_reports ..) (writeField_reports ..)

/-- The game after the whole function. -/
def applied (r : Runtime) (build : Build) (g : Game) (settings : Ptr) : Game :=
  r.afterServer build (r.afterRoute build (r.afterAppId build g settings) settings) settings

theorem Reports.logged {p q q' : Native Bool} {mid mid' after : Game} (first : Reports p r build g mid)
    (second : Reports q r build mid mid') (third : Reports q' r build mid' after) (format : String)
    (args : List Arg) :
    Reports (do
      let wrote ← p
      let wrote' ← q
      let wrote'' ← q'
      let changed := wrote || wrote' || wrote''
      if changed then logI format args
      return changed) r build g after := by
  refine ⟨first.1.trans (second.1.trans third.1), ?_⟩
  refine (Prog.eval_seq first.2).trans ((Prog.eval_seq second.2).trans ((Prog.eval_seq third.2).trans ?_))
  have changed : (decide (g.stores < mid.stores) || decide (mid.stores < mid'.stores) ||
      decide (mid'.stores < after.stores)) = decide (g.stores < after.stores) := by
    have low := first.1
    have middle := second.1
    have high := third.1
    rw [← Bool.decide_or, ← Bool.decide_or]
    exact decide_eq_decide.mpr (by omega)
  rw [changed]
  cases decide (g.stores < after.stores) <;> rfl

theorem applyConfigToSettings_reports {settings : Ptr} (present : settings ≠ 0) (point : String) :
    Reports (applyConfigToSettings build settings point) r build g (r.applied build g settings) :=
  .neg present (.logged (writeAppId_reports settings) (writeSelfhostedRoute_reports settings)
    (writeServer_reports settings) _ _)

theorem held_allocate (p : Ptr) (text : Bytes) (object : Ptr) (name : String) :
    r.held (g.allocate p text) object name = r.held g object name := by
  unfold Game.allocate
  split <;> rfl

theorem string_allocate (p q : Ptr) (text : Bytes) :
    (g.allocate p text).string q = if q = p ∧ p ≠ 0 then some text else g.string q := by
  unfold Game.allocate
  by_cases null : p = 0
  · simp [null]
  · by_cases same : q = p <;> simp [null, same]

theorem held_afterAppId (settings : Ptr) (name : String) :
    r.held (r.afterAppId build g settings) settings name =
      if name = "AppID" ∧ build.appId ≠ [] ∧ r.allocation .photonAppId ≠ 0 ∧ r.Writes settings "AppID" then
        ptrBytes (r.allocation .photonAppId)
      else r.held g settings name := by
  unfold afterAppId
  by_cases skipped : build.appId = [] ∨ r.allocation .photonAppId = 0
  · rw [if_pos skipped, if_neg]
    rintro ⟨_, keyed, allocated, _⟩
    exact skipped.elim keyed allocated
  · rw [if_neg skipped, held_put, held_allocate]
    obtain ⟨keyed, allocated⟩ := not_or.mp skipped
    simp [keyed, allocated]

theorem held_afterRoute (settings : Ptr) {name : String} (host : name ≠ "HostType")
    (protocol : name ≠ "Protocol") :
    r.held (r.afterRoute build g settings) settings name = r.held g settings name := by
  unfold afterRoute
  split
  · rw [held_put, held_put, if_neg fun both => protocol both.1, if_neg fun both => host both.1]
  · rfl

theorem held_afterServer (settings : Ptr) (name : String) (configured : build.serverAddress ≠ []) :
    r.held (r.afterServer build g settings) settings name =
      if name = "ServerPort" ∧ r.Writes settings "ServerPort" then int32Bytes build.serverPort
      else if name = "ServerAddress" ∧ r.Writes settings "ServerAddress" then
        ptrBytes (r.allocation .photonServerAddress)
      else r.held g settings name := by
  rw [afterServer, if_neg configured, held_put, held_put, held_allocate]

theorem string_afterServer (settings p : Ptr) (configured : build.serverAddress ≠ []) :
    (r.afterServer build g settings).string p =
      if p = r.allocation .photonServerAddress ∧ r.allocation .photonServerAddress ≠ 0 then
        some build.serverAddress
      else g.string p := by
  rw [afterServer, if_neg configured, string_put, string_put, string_allocate]

theorem string_afterRoute (settings : Ptr) : (r.afterRoute build g settings).string = g.string := by
  unfold afterRoute
  split
  · rw [string_put, string_put]
  · rfl

theorem string_afterAppId (settings p : Ptr) : (r.afterAppId build g settings).string p =
    if p = r.allocation .photonAppId ∧ build.appId ≠ [] ∧
      r.allocation .photonAppId ≠ 0 then some build.appId
    else g.string p := by
  unfold afterAppId
  by_cases skipped : build.appId = [] ∨ r.allocation .photonAppId = 0
  · rw [if_pos skipped, if_neg]
    rintro ⟨_, keyed, allocated⟩
    exact skipped.elim keyed allocated
  · rw [if_neg skipped, string_put, string_allocate]
    obtain ⟨keyed, _⟩ := not_or.mp skipped
    simp [keyed]

/-- The field refers to a string with the text. -/
def Refers (r : Runtime) (g : Game) (object : Ptr) (name : String) (text : Bytes) : Prop :=
  ∃ p, p ≠ 0 ∧ r.held g object name = ptrBytes p ∧ g.string p = some text

/-- No change is made by halves: a string field holds what it held or refers
to the configured text, and the port changes only beside its address. -/
structure Complete (r : Runtime) (build : Build) (settings : Ptr) (before after : Game) : Prop where
  appId : r.held after settings "AppID" = r.held before settings "AppID" ∨
    r.Refers after settings "AppID" build.appId
  address : r.held after settings "ServerAddress" = r.held before settings "ServerAddress" ∨
    r.Refers after settings "ServerAddress" build.serverAddress
  port : r.held after settings "ServerPort" ≠ r.held before settings "ServerPort" →
    r.Refers after settings "ServerAddress" build.serverAddress

/-- The strings to be allocated are new ones: no string is there yet, and no
field refers to it. -/
def Fresh (r : Runtime) (g : Game) : Prop :=
  ∀ text, r.allocation text ≠ 0 → g.string (r.allocation text) = none ∧
    ∀ object field, g.content object field ≠ ptrBytes (r.allocation text)

/-- The server address is not configured; or null is not written over another
value, and the port keeps its value unless the address is written with it or
stands there already. -/
def Coupled (r : Runtime) (build : Build) (settings : Ptr) (g : Game) : Prop :=
  build.serverAddress = [] ∨
    (r.allocation .photonServerAddress = 0 → r.Writes settings "ServerAddress" →
        r.held g settings "ServerAddress" = ptrBytes 0) ∧
      (r.Writes settings "ServerPort" → r.held g settings "ServerPort" ≠ int32Bytes build.serverPort →
        if r.Writes settings "ServerAddress" then r.allocation .photonServerAddress ≠ 0
        else r.Refers g settings "ServerAddress" build.serverAddress)

theorem held_applied (settings : Ptr) {name : String} (host : name ≠ "HostType")
    (protocol : name ≠ "Protocol") :
    r.held (r.applied build g settings) settings name =
      if build.serverAddress ≠ [] ∧ name = "ServerPort" ∧
        r.Writes settings "ServerPort" then int32Bytes build.serverPort
      else if build.serverAddress ≠ [] ∧ name = "ServerAddress" ∧ r.Writes settings "ServerAddress" then
        ptrBytes (r.allocation .photonServerAddress)
      else r.held (r.afterAppId build g settings) settings name := by
  unfold applied
  by_cases empty : build.serverAddress = []
  · simp only [empty, ne_eq, not_true_eq_false, false_and, if_false]
    rw [afterServer, if_pos empty, held_afterRoute settings host protocol]
  · rw [held_afterServer settings name empty, held_afterRoute settings host protocol]
    simp only [ne_eq, empty, not_false_eq_true, true_and]

theorem string_applied (settings p : Ptr) : (r.applied build g settings).string p =
    if build.serverAddress ≠ [] ∧ p = r.allocation .photonServerAddress ∧
      r.allocation .photonServerAddress ≠ 0 then
      some build.serverAddress
    else if p = r.allocation .photonAppId ∧ build.appId ≠ [] ∧
      r.allocation .photonAppId ≠ 0 then some build.appId
    else g.string p := by
  unfold applied
  by_cases empty : build.serverAddress = []
  · rw [if_neg fun configured => configured.1 empty, afterServer, if_pos empty, string_afterRoute,
      string_afterAppId]
  · rw [string_afterServer settings p empty, string_afterRoute, string_afterAppId]
    simp only [ne_eq, empty, not_false_eq_true, true_and]

/-- The AppID is never written by halves. -/
theorem appId_applied (settings : Ptr) :
    r.held (r.applied build g settings) settings "AppID" = r.held g settings "AppID" ∨
      r.Refers (r.applied build g settings) settings "AppID" build.appId := by
  have held : r.held (r.applied build g settings) settings "AppID" =
      r.held (r.afterAppId build g settings) settings "AppID" := by
    rw [held_applied settings (by decide) (by decide), if_neg fun port => absurd port.2.1 (by decide),
      if_neg fun address => absurd address.2.1 (by decide)]
  rw [Refers, held, held_afterAppId]
  by_cases wrote : build.appId ≠ [] ∧ r.allocation .photonAppId ≠ 0 ∧ r.Writes settings "AppID"
  · obtain ⟨keyed, allocated, writes⟩ := wrote
    refine .inr ⟨r.allocation .photonAppId, allocated, by simp [keyed, allocated, writes], ?_⟩
    rw [string_applied, if_neg fun both => r.apart allocated both.2.1, if_pos ⟨rfl, keyed, allocated⟩]
  · exact .inl (if_neg fun all => wrote all.2)

theorem port_applied (configured : build.serverAddress ≠ []) (settings : Ptr) :
    r.held (r.applied build g settings) settings "ServerPort" =
      if r.Writes settings "ServerPort" then int32Bytes build.serverPort else r.held g settings "ServerPort" := by
  rw [held_applied settings (by decide) (by decide), held_afterAppId]
  simp [configured]

theorem address_applied (configured : build.serverAddress ≠ []) (settings : Ptr) :
    r.held (r.applied build g settings) settings "ServerAddress" =
      if r.Writes settings "ServerAddress" then ptrBytes (r.allocation .photonServerAddress)
      else r.held g settings "ServerAddress" := by
  rw [held_applied settings (by decide) (by decide), held_afterAppId]
  simp [configured]

theorem ptrBytes_injective : Function.Injective ptrBytes :=
  Function.LeftInverse.injective ptrOfBytes_ptrBytes

/-- An address that is not written refers to the configured text as it did. -/
theorem refers_applied_unwritten (fresh : r.Fresh g) (configured : build.serverAddress ≠ [])
    {settings : Ptr} (unwritten : ¬r.Writes settings "ServerAddress") :
    r.Refers (r.applied build g settings) settings "ServerAddress" build.serverAddress ↔
      r.Refers g settings "ServerAddress" build.serverAddress := by
  have old (text : ConfigText) (p : Ptr) (there : r.held g settings "ServerAddress" = ptrBytes p) :
      ¬(p = r.allocation text ∧ r.allocation text ≠ 0) := fun both =>
    (fresh text both.2).2 settings _ (both.1 ▸ there)
  unfold Refers
  rw [address_applied configured, if_neg unwritten]
  refine exists_congr fun p => and_congr_right fun _ => and_congr_right fun there => ?_
  rw [string_applied, if_neg fun both => old .photonServerAddress p there both.2,
    if_neg fun both => old .photonAppId p there ⟨both.1, both.2.2⟩]

/-- A written address refers to the configured text unless it is null. -/
theorem refers_applied_written (configured : build.serverAddress ≠ []) {settings : Ptr}
    (written : r.Writes settings "ServerAddress") :
    r.Refers (r.applied build g settings) settings "ServerAddress" build.serverAddress ↔
      r.allocation .photonServerAddress ≠ 0 := by
  unfold Refers
  rw [address_applied configured, if_pos written]
  constructor
  · rintro ⟨p, present, same, _⟩
    rwa [ptrBytes_injective same]
  · intro allocated
    exact ⟨_, allocated, rfl, by rw [string_applied, if_pos ⟨configured, rfl, allocated⟩]⟩

theorem port_changed_iff (configured : build.serverAddress ≠ []) (settings : Ptr) :
    r.held (r.applied build g settings) settings "ServerPort" ≠ r.held g settings "ServerPort" ↔
      r.Writes settings "ServerPort" ∧ r.held g settings "ServerPort" ≠ int32Bytes build.serverPort := by
  rw [port_applied configured]
  by_cases writes : r.Writes settings "ServerPort"
  · rw [if_pos writes]
    exact ⟨fun changed => ⟨writes, Ne.symm changed⟩, fun both => Ne.symm both.2⟩
  · simp [writes]

theorem complete_applied_unconfigured (empty : build.serverAddress = []) (settings : Ptr) :
    r.Complete build settings g (r.applied build g settings) := by
  have address : r.held (r.applied build g settings) settings "ServerAddress" =
    r.held g settings "ServerAddress" := by
    rw [held_applied settings (by decide) (by decide), held_afterAppId]
    simp [empty]
  have port : r.held (r.applied build g settings) settings "ServerPort" = r.held g settings "ServerPort" := by
    rw [held_applied settings (by decide) (by decide), held_afterAppId]
    simp [empty]
  exact ⟨appId_applied settings, .inl address, fun changed => absurd port changed⟩

/-- With the address written, null must not take the place of another value. -/
theorem complete_applied_written (configured : build.serverAddress ≠ []) {settings : Ptr}
    (written : r.Writes settings "ServerAddress") :
    r.Complete build settings g (r.applied build g settings) ↔ r.Coupled build settings g := by
  have refers := refers_applied_written (g := g) configured written
  have held := address_applied (r := r) (g := g) configured settings
  have port := @port_changed_iff r build g configured settings
  rw [if_pos written] at held
  rw [Coupled, or_iff_right configured]
  constructor
  · intro complete
    refine ⟨fun failed _ => ?_, fun writes changed => ?_⟩
    · rcases complete.address with same | new
      · rw [← same, held, failed]
      · exact absurd failed (refers.mp new)
    · rw [if_pos written]
      exact refers.mp (complete.port (port.mpr ⟨writes, changed⟩))
  · rintro ⟨nonNull, beside⟩
    refine ⟨appId_applied settings, ?_, fun changed => ?_⟩
    · by_cases failed : r.allocation .photonServerAddress = 0
      · exact .inl (by rw [held, failed, nonNull failed written])
      · exact .inr (refers.mpr failed)
    · have allocated := beside (port.mp changed).1 (port.mp changed).2
      rw [if_pos written] at allocated
      exact refers.mpr allocated

/-- With the address unwritten, it must be the configured one where the port changes. -/
theorem complete_applied_unwritten (fresh : r.Fresh g) (configured : build.serverAddress ≠ [])
    {settings : Ptr} (unwritten : ¬r.Writes settings "ServerAddress") :
    r.Complete build settings g (r.applied build g settings) ↔ r.Coupled build settings g := by
  have refers := refers_applied_unwritten fresh configured unwritten
  have held := address_applied (r := r) (g := g) configured settings
  have port := @port_changed_iff r build g configured settings
  rw [if_neg unwritten] at held
  rw [Coupled, or_iff_right configured]
  constructor
  · intro complete
    refine ⟨fun _ writes => absurd writes unwritten, fun writes changed => ?_⟩
    rw [if_neg unwritten]
    exact refers.mp (complete.port (port.mpr ⟨writes, changed⟩))
  · rintro ⟨_, beside⟩
    refine ⟨appId_applied settings, .inl held, fun changed => ?_⟩
    have there := beside (port.mp changed).1 (port.mp changed).2
    rw [if_neg unwritten] at there
    exact refers.mpr there

theorem complete_applied_iff (fresh : r.Fresh g) (settings : Ptr) :
    r.Complete build settings g (r.applied build g settings) ↔ r.Coupled build settings g := by
  by_cases empty : build.serverAddress = []
  · exact iff_of_true (complete_applied_unconfigured empty settings) (.inl empty)
  by_cases written : r.Writes settings "ServerAddress"
  · exact complete_applied_written empty written
  · exact complete_applied_unwritten fresh empty written

/-- Configuration is applied without half-changes in just these cases, and in
every case the result tells whether a field has been set. -/
theorem complete_iff (fresh : r.Fresh g) (settings : Ptr) (point : String) :
    let run := (applyConfigToSettings build settings point).eval (r.answer build) g
    (r.Complete build settings g run.2 ∧ (run.1 = true ↔ g.stores < run.2.stores)) ↔
      r.Coupled build settings g := by
  intro run
  by_cases absent : settings = 0
  · have nothing : run = (false, g) := Prog.eval_pos absent
    have never (name : String) : ¬r.Writes settings name := fun writes => writes.1 absent
    rw [nothing]
    refine ⟨fun _ => .inr ⟨fun _ writes => absurd writes (never _), fun writes => absurd writes (never _)⟩,
      fun _ => ?_⟩
    exact ⟨⟨.inl rfl, .inl rfl, fun changed => absurd rfl changed⟩, by simp⟩
  · have reports := (@applyConfigToSettings_reports r build g _ absent point).2
    have result : run = _ := reports
    rw [result, decide_eq_true_iff, and_iff_left Iff.rfl]
    exact complete_applied_iff fresh settings

/-- A runtime with the fields that `SelfHosted` needs, and two given allocations. -/
def sample (appId address : Ptr) (apart : appId ≠ 0 → appId ≠ address) : Runtime where
  api _ := 1
  klass _ := 4
  field _ name := if name = "AppID" then 1 else if name = "ServerAddress" then 2 else if name =
    "ServerPort" then 3 else 0
  allocation
    | .photonAppId => appId
    | .photonServerAddress => address
  distinct klass name other := by
    split_ifs <;> simp_all
  apart := apart

/-- The old server's address is the string 4096, and its port 5055. -/
def sampleGame : Game where
  content _ field := if field = 2 then ptrBytes 4096 else if field = 3 then int32Bytes 5055 else ptrBytes 0
  string p := if p = 4096 then some (literal "old.example") else none
  stores := 0

def sampleBuild : Build := ⟨true, [], literal "10.0.0.2", 4530⟩

theorem complete_sample :
    let r := sample 64 80 (by decide)
    let run := (applyConfigToSettings sampleBuild 32 "SetUpPhoton/end").eval (r.answer sampleBuild) sampleGame
    r.Complete sampleBuild 32 sampleGame run.2 ∧ (run.1 = true ↔ sampleGame.stores < run.2.stores) := by
  intro r run
  have fresh : r.Fresh sampleGame := by
    intro text _
    refine ⟨by cases text <;> decide, fun object field same => ?_⟩
    have other : ptrBytes (r.allocation text) ≠ ptrBytes 4096 ∧
        ptrBytes (r.allocation text) ≠ int32Bytes 5055 ∧
        ptrBytes (r.allocation text) ≠ ptrBytes 0 := by
      cases text <;> decide
    simp only [sampleGame] at same
    split_ifs at same
    · exact other.1 same.symm
    · exact other.2.1 same.symm
    · exact other.2.2 same.symm
  refine (complete_iff fresh 32 "SetUpPhoton/end").mpr (.inr ⟨fun failed => absurd failed (by decide),
    fun _ _ => ?_⟩)
  rw [if_pos (by decide)]
  decide

/-- The string of the address cannot be allocated: null takes the place of the
old address, and the port is changed all the same. -/
theorem null_address_written :
    let r := sample 64 0 (by decide)
    let run := (applyConfigToSettings sampleBuild 32 "SetUpPhoton/end").eval (r.answer sampleBuild) sampleGame
    run.1 = true ∧ r.held sampleGame 32 "ServerAddress" = ptrBytes 4096 ∧
      r.held run.2 32 "ServerAddress" = ptrBytes 0 ∧
      r.held sampleGame 32 "ServerPort" = int32Bytes 5055 ∧
        r.held run.2 32 "ServerPort" = int32Bytes 4530 := by
  intro r run
  exact ⟨by decide +kernel, by decide +kernel, by decide +kernel, by decide +kernel, by decide +kernel⟩

end Runtime

end Opg3d.Photon
