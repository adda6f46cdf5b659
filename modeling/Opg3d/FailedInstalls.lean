import Opg3d.Install.Outcome

namespace Opg3d.HookEngine

open Kit Native

/-- What the surroundings of one call of `hook::install` come up with: the
metadata, the result of the engine's start, and its answer to the request. -/
structure Outcomes where
  metadata : Metadata
  initResult : Int
  hooked : HookAnswer

/-- The globals of a call are as it found them but for slots and patches. -/
structure Leaves (s t : System) (slot : Hook → Option Ptr) (patched : Ptr → Option Hook) : Prop where
  api : t.memory.api = s.memory.api
  slot : t.memory.slot = slot
  patched : t.memory.patched = patched

theorem Leaves.bound {s t : System} {slot : Hook → Option Ptr} {patched : Ptr → Option Hook}
    (leaves : Leaves s t slot patched) (bound : s.core.Bound) : t.core.Bound := by
  intro f needed
  show t.memory.api f ≠ 0
  rw [leaves.api]
  exact bound f needed

/-- Calls that leave slots and patches alone may stand before. -/
theorem Leaves.behind {s t u : System} {slot : Hook → Option Ptr} {patched : Ptr → Option Hook}
    (first : Leaves s t s.memory.slot s.memory.patched) (leaves : Leaves t u slot patched) :
    Leaves s u slot patched :=
  ⟨leaves.api.trans first.api, leaves.slot, leaves.patched⟩

namespace Outcomes

variable {o : Outcomes} {s : System}

/-- The engine has been started, or is now, with success. -/
def EngineUp (o : Outcomes) (s : System) : Prop :=
  if s.memory.flag .engineStarted then s.memory.flag .engineReady = true else o.initResult = shadowhookErrnoOk

/-- The call gets as far as the engine. -/
def Engages (o : Outcomes) (s : System) (target : ManagedMethod) : Prop :=
  o.EngineUp s ∧ o.metadata.codeOf target ≠ 0

/-- The engine refuses, or gives no trampoline. -/
def Fails (o : Outcomes) : Prop := o.hooked.stub = 0 ∨ o.hooked.trampoline = none

/-- The answer of an operation is one of these outcomes. -/
def Gives (o : Outcomes) : (op : NativeOp) → op.Ans → Prop
  | .shadowhookInit, answer => answer = o.initResult
  | .shadowhookHook _ _ _, answer => answer = o.hooked
  | op, answer => o.metadata.AnswersTo op answer

/-- The monitor that follows a call in these surroundings. -/
def watch (o : Outcomes) : Monitor nativeSignature System where
  allow s op answer := s.memory.admits op answer ∧ o.Gives op answer
  ok _ _ := True
  next s op answer := s.after op answer

/-- A step of a call in these surroundings. -/
def step (o : Outcomes) (s : System) (op : NativeOp) (answer : op.Ans) (t : System) : Prop :=
  s.memory.admits op answer ∧ o.Gives op answer ∧ t = s.after op answer

theorem step_follows (s : System) (op : NativeOp) (answer : op.Ans) (t : System)
    (taken : o.step s op answer t) : o.watch.allow s op answer ∧ t = o.watch.next s op answer :=
  ⟨⟨taken.1, taken.2.1⟩, taken.2.2⟩

theorem answers (bound : s.core.Bound) : o.metadata.Answers o.watch s where
  apiPtr f := ⟨trivial, fun _ read => ⟨rfl, fun needed => read.1 ▸ bound f needed⟩⟩
  call _ _ known _ question := ⟨trivial, fun _ told => ⟨rfl, told.2 known question⟩⟩
  methodPointer _ := ⟨trivial, fun _ read => ⟨rfl, read.2⟩⟩

theorem ensureEngine_wp (s : System) : ensureEngine.wp o.watch (fun t _ =>
    Leaves s t s.memory.slot s.memory.patched ∧ (t.memory.flag .engineReady = true ↔ o.EngineUp s)) s := by
  refine ⟨trivial, fun started read => ?_⟩
  obtain rfl : started = s.memory.flag .engineStarted := read.1
  refine .ite (fun begun => ?_) fun fresh => ?_
  · have kept : (s.after (.exchange .engineStarted) (s.memory.flag .engineStarted)).memory.flag .engineReady =
        s.memory.flag .engineReady := by simp [System.after, Memory.after]
    refine ⟨⟨rfl, rfl, rfl⟩, ?_⟩
    rw [EngineUp, if_pos begun, ← kept]
    rfl
  have ready (t : System) (set : t.memory.flag .engineReady = decide (o.initResult = shadowhookErrnoOk)) :
      t.memory.flag .engineReady = true ↔ o.EngineUp s := by
    rw [set, EngineUp, if_neg fresh, decide_eq_true_iff]
  refine ⟨trivial, fun rc told => ⟨trivial, fun _ _ => ?_⟩⟩
  obtain rfl : rc = o.initResult := told.2
  refine .ite (fun _ => ?_) fun _ => ?_
  · exact ⟨trivial, fun _ _ => ⟨trivial, fun _ _ => ⟨⟨rfl, rfl, rfl⟩, ready _ rfl⟩⟩⟩
  · exact ⟨trivial, fun _ _ => ⟨trivial, fun _ _ => ⟨⟨rfl, rfl, rfl⟩, ready _ rfl⟩⟩⟩

/-- What patching an address leaves behind. -/
def Patches (o : Outcomes) (s : System) (address : Ptr) (replacement cell : Hook) (t : System)
    (result : Bool) : Prop :=
  (o.Fails → result = false ∧ Leaves s t (Function.update s.memory.slot cell none) s.memory.patched) ∧
    (¬o.Fails → result = true ∧ Leaves s t (Function.update s.memory.slot cell o.hooked.trampoline)
      (Function.update s.memory.patched address (some replacement)))

theorem patchAddress_wp (target : ManagedMethod) (address : Ptr) (replacement cell : Hook) (s : System) :
    (patchAddress target address replacement cell).wp o.watch (o.Patches s address replacement cell) s := by
  refine ⟨trivial, fun _ _ => ⟨trivial, fun answer given => ?_⟩⟩
  obtain rfl : answer = o.hooked := given.2
  have unique : s.memory.patched address ≠ none → o.hooked.stub = 0 := given.1.1
  let emptied : Memory := { s.memory with slot := Function.update s.memory.slot cell none }
  refine .ite (fun refused => ?_) fun placed => ?_
  · refine ⟨trivial, fun _ _ => ⟨trivial, fun _ _ => ⟨trivial, fun _ _ => ?_⟩⟩⟩
    refine ⟨fun _ => ⟨rfl, ?_⟩, fun success => absurd (.inl refused) success⟩
    have memory : emptied.hooked address replacement cell o.hooked = emptied :=
      Memory.hooked_refused refused
    have api := congrArg Memory.api memory
    have slot := congrArg Memory.slot memory
    have patched := congrArg Memory.patched memory
    exact ⟨api, slot, patched⟩
  have clean : s.memory.patched address = none := by_contra fun carried => placed (unique carried)
  have memory := @Memory.hooked_placed emptied address replacement cell _ placed
  have api := congrArg Memory.api memory
  have patched := congrArg Memory.patched memory
  have stubs := congrArg Memory.stubs memory
  have slot : (emptied.hooked address replacement cell o.hooked).slot =
      Function.update s.memory.slot cell o.hooked.trampoline :=
    (congrArg Memory.slot memory).trans (Function.update_idem ..)
  refine ⟨trivial, fun trampoline read => ?_⟩
  have led : trampoline = o.hooked.trampoline :=
    read.1.trans ((congrFun slot cell).trans (Function.update_self ..))
  refine .ite (fun missing => ?_) fun present => ?_
  · have empty : o.hooked.trampoline = none := led.symm.trans missing
    refine ⟨trivial, fun _ _ => ⟨trivial, fun _ _ => ?_⟩⟩
    refine ⟨fun _ => ⟨rfl, ?_⟩, fun success => absurd (.inr empty) success⟩
    have stub : (emptied.hooked address replacement cell o.hooked).stubs o.hooked.stub = address :=
      (congrFun stubs _).trans (Function.update_self ..)
    refine ⟨api, slot.trans (congrArg (Function.update s.memory.slot cell) empty), ?_⟩
    calc Function.update (emptied.hooked address replacement cell o.hooked).patched
          ((emptied.hooked address replacement cell o.hooked).stubs o.hooked.stub) none
        = Function.update (Function.update s.memory.patched address (some replacement)) address none := by
          rw [stub, patched]
      _ = Function.update s.memory.patched address (s.memory.patched address) := by
          rw [Function.update_idem, clean]
      _ = s.memory.patched := Function.update_eq_self ..
  · have success : ¬o.Fails := fun fails => fails.elim placed fun none => present (led.trans none)
    refine ⟨trivial, fun _ _ => ⟨fun fails => absurd fails success, fun _ => ⟨rfl, ?_⟩⟩⟩
    exact ⟨api, slot, patched⟩

/-- What a call leaves behind. -/
structure Installs (o : Outcomes) (s : System) (target : ManagedMethod) (replacement cell : Hook)
    (t : System) (result : Bool) : Prop where
  engaged : o.Engages s target → o.Patches s (o.metadata.codeOf target) replacement cell t result
  otherwise : ¬o.Engages s target → result = false ∧ Leaves s t s.memory.slot s.memory.patched

theorem installTarget_wp (bound : s.core.Bound) (target : ManagedMethod) (replacement cell : Hook)
    (required : Bool) :
    (installTarget target replacement cell required).wp o.watch (o.Installs s target replacement cell) s := by
  refine (ensureEngine_wp s).bind fun t _ after => ?_
  obtain ⟨left, ready⟩ := after
  have bound' : t.core.Bound := left.bound bound
  have unengaged (fails : ¬o.Engages s target) (u : System) (same : u.memory = t.memory) :
      o.Installs s target replacement cell u false :=
    ⟨fun engages => absurd engages fails, fun _ =>
      ⟨rfl, by rw [same]; exact left.api, by rw [same]; exact left.slot,
      by rw [same]; exact left.patched⟩⟩
  refine ⟨trivial, fun up read => ?_⟩
  obtain rfl : up = t.memory.flag .engineReady := read.1
  refine .ite (fun down => ?_) fun up => ?_
  · have never : ¬o.Engages s target := fun engages => by simp [ready.mpr engages.1] at down
    exact ⟨trivial, fun _ _ => unengaged never _ rfl⟩
  have up : o.EngineUp s := ready.mp (by simpa using up)
  refine ((answers bound').findMethodInfo_wp target).seq (.ite (fun missing => ?_) fun found => ?_)
  · have never : ¬o.Engages s target := fun engages => engages.2 (if_pos missing)
    exact .ite (fun _ => ⟨trivial, fun _ _ => unengaged never _ rfl⟩) fun _ =>
      ⟨trivial, fun _ _ => unengaged never _ rfl⟩
  refine ((answers bound').methodPointer_wp _).seq ?_
  generalize code :
    (if o.metadata.methodInfo target = 0 then 0 else o.metadata.code (o.metadata.methodInfo target)) = address
  change o.metadata.codeOf target = address at code
  refine .ite (fun null => ?_) fun present => ?_
  · have never : ¬o.Engages s target := fun engages => engages.2 (code.trans null)
    exact ⟨trivial, fun _ _ => unengaged never _ rfl⟩
  · refine (patchAddress_wp target _ replacement cell t).mono fun u result patches => ?_
    refine ⟨fun _ => ?_, fun never => absurd ⟨up, code.trans_ne present⟩ never⟩
    rw [Patches, left.slot, left.patched, ← code] at patches
    exact ⟨fun fails => (patches.1 fails).imp_right left.behind, fun success =>
      (patches.2 success).imp_right left.behind⟩

end Outcomes

/-- A call of `hook::install`, with the state it starts and ends in. -/
structure Call where
  outcomes : Outcomes
  target : ManagedMethod
  replacement : Option Hook
  original : Option Hook
  before : System
  result : Bool
  after : System

namespace Call

/-- A failed call leaves the patches and the slots as they were, and no call
takes a trampoline away. -/
def NoTrace (call : Call) : Prop :=
  (call.result = false → call.after.memory.patched = call.before.memory.patched ∧
      call.after.memory.slot = call.before.memory.slot) ∧
    ∀ cell, call.before.memory.slot cell ≠ none → call.after.memory.slot cell ≠ none

/-- The call does not get as far as the engine, or the engine succeeds, or
`*original` is null already. -/
def Harmless (call : Call) : Prop :=
  ∀ proxy cell, call.replacement = some proxy → call.original = some cell →
    call.outcomes.Engages call.before call.target → call.outcomes.Fails →
      call.before.memory.slot cell = none

variable {o : Outcomes} {s t : System} {target : ManagedMethod} {result : Bool}

/-- A call that leaves everything alone. -/
theorem noTrace_of_untouched {call : Call}
    (leaves : Leaves call.before call.after call.before.memory.slot call.before.memory.patched) :
    call.NoTrace := by
  refine ⟨fun _ => ⟨leaves.patched, leaves.slot⟩, fun cell held => ?_⟩
  rw [leaves.slot]
  exact held

theorem noTrace_iff_harmless {proxy cell : Hook} (installs : o.Installs s target proxy cell t result) :
    NoTrace ⟨o, target, some proxy, some cell, s, result, t⟩ ↔
      Harmless ⟨o, target, some proxy, some cell, s, result, t⟩ := by
  by_cases engaged : o.Engages s target
  swap
  · obtain ⟨_, left⟩ := installs.otherwise engaged
    exact ⟨fun _ _ _ _ _ engages => absurd engages engaged, fun _ => noTrace_of_untouched left⟩
  obtain ⟨refused, placed⟩ := installs.engaged engaged
  by_cases fails : o.Fails
  · obtain ⟨failed, left⟩ := refused fails
    constructor
    · rintro ⟨unchanged, _⟩ _ _ _ ⟨⟩ _ _
      have slot : t.memory.slot = s.memory.slot := (unchanged failed).2
      show s.memory.slot cell = none
      rw [← slot, left.slot]
      exact Function.update_self ..
    · intro harmless
      have empty : s.memory.slot cell = none := harmless proxy cell rfl rfl engaged fails
      have same : Function.update s.memory.slot cell none = s.memory.slot := by
        rw [← empty]
        exact Function.update_eq_self ..
      exact noTrace_of_untouched (same ▸ left)
  · obtain ⟨done, left⟩ := placed fails
    refine ⟨fun _ _ _ _ _ _ refuses => absurd refuses fails, fun _ =>
      ⟨fun refused => ?_, fun other held => ?_⟩⟩
    · exact absurd (done.symm.trans refused) (by decide)
    · show t.memory.slot other ≠ none
      rw [left.slot]
      by_cases here : other = cell
      · rw [here, Function.update_self]
        exact fun empty => fails (.inr empty)
      · rw [Function.update_of_ne here]
        exact held

/-- What holds after a call: it leaves no trace of a failure exactly if it is harmless. -/
def Settled (o : Outcomes) (target : ManagedMethod) (replacement original : Option Hook) (s t : System)
    (result : Bool) : Prop :=
  t.core.Bound ∧ (NoTrace ⟨o, target, replacement, original, s, result, t⟩ ↔
    Harmless ⟨o, target, replacement, original, s, result, t⟩)

theorem settled_of_invalid (bound : s.core.Bound) {replacement original : Option Hook}
    (invalid : replacement = none ∨ original = none) (same : t.memory = s.memory) :
    Settled o target replacement original s t false := by
  have left : Leaves s t s.memory.slot s.memory.patched := ⟨by rw [same], by rw [same], by rw [same]⟩
  refine ⟨left.bound bound, fun _ proxy cell given given' => ?_, fun _ => noTrace_of_untouched left⟩
  rcases invalid with none | none
  · exact absurd (given.symm.trans none) nofun
  · exact absurd (given'.symm.trans none) nofun

theorem settled_of_installs (bound : s.core.Bound) {proxy cell : Hook}
    (installs : o.Installs s target proxy cell t result) :
    Settled o target (some proxy) (some cell) s t result := by
  refine ⟨?_, noTrace_iff_harmless installs⟩
  by_cases engaged : o.Engages s target
  · by_cases fails : o.Fails
    · exact ((installs.engaged engaged).1 fails).2.bound bound
    · exact ((installs.engaged engaged).2 fails).2.bound bound
  · exact (installs.otherwise engaged).2.bound bound

theorem install_wp (bound : s.core.Bound) (target : ManagedMethod) (replacement original : Option Hook)
    (required : Bool) :
    (install target replacement original required).wp o.watch (Settled o target replacement original s) s := by
  refine ⟨trivial, fun _ _ => ?_⟩
  match replacement, original with
  | some proxy, some cell =>
    have run := Outcomes.installTarget_wp (o := o)
      (s := s.after (.mark .installBegins) ()) bound target proxy cell required
    refine run.bind fun t result installs => ⟨trivial, fun _ _ => ?_⟩
    refine settled_of_installs bound ⟨fun engages => ?_, fun never => ?_⟩
    · obtain ⟨refused, placed⟩ := installs.engaged engages
      exact ⟨fun fails => (refused fails).imp_right fun left => ⟨left.api, left.slot, left.patched⟩,
        fun success => (placed success).imp_right fun left => ⟨left.api, left.slot, left.patched⟩⟩
    · exact (installs.otherwise never).imp_right fun left => ⟨left.api, left.slot, left.patched⟩
  | none, _ => exact ⟨trivial, fun _ _ => ⟨trivial, fun _ _ => settled_of_invalid bound (.inl rfl) rfl⟩⟩
  | some _, none =>
    exact ⟨trivial, fun _ _ => ⟨trivial, fun _ _ =>
      settled_of_invalid bound (.inr rfl) rfl⟩⟩

end Call

/-- The calls of `hook::install` one after the other, the latest first. -/
inductive Calls : System → List Call → Prop
  | start {s : System} : s.core.Bound → Calls s []
  | call {s t : System} {calls : List Call} {o : Outcomes} {target : ManagedMethod}
      {replacement original : Option Hook}
      {required result : Bool} {trace : List (Performed nativeSignature System)} : Calls s calls →
      Exec o.step (install target replacement original required) s trace result t →
      Calls t (⟨o, target, replacement, original, s, result, t⟩ :: calls)

/-- In every sequence of calls the failed ones leave no trace exactly if all
calls are harmless. -/
theorem Calls.noTrace_iff {s : System} {calls : List Call} (run : Calls s calls) :
    (∀ call ∈ calls, call.NoTrace) ↔ ∀ call ∈ calls, call.Harmless := by
  have each : s.core.Bound ∧ ∀ call ∈ calls, (call.NoTrace ↔ call.Harmless) := by
    induction run with
    | start bound => exact ⟨bound, fun _ member => absurd member List.not_mem_nil⟩
    | @call s t calls o target replacement original required result trace _ exec ih =>
      obtain ⟨bound, earlier⟩ := ih
      obtain ⟨bound', here⟩ : Call.Settled o target replacement original s t result :=
        (Call.install_wp bound target replacement original required).exec (fun s => s) exec o.step_follows
      exact ⟨bound', List.forall_mem_cons.mpr ⟨here, earlier⟩⟩
  exact forall₂_congr each.2

namespace Sample

/-- The surroundings answer as in the sample game, the engine as told. -/
def respond (o : Outcomes) (s : System) : (op : NativeOp) → op.Ans
  | .shadowhookInit => o.initResult
  | .shadowhookHook _ _ _ => o.hooked
  | op => Opg3d.Sample.answer s op

def admissible (o : Outcomes) (s : System) : NativeOp → Bool
  | .shadowhookHook address _ _ =>
    (s.memory.patched address = none || o.hooked.stub = 0) &&
      (o.hooked.trampoline = none || o.hooked.trampoline = some address)
  | op => Opg3d.Sample.test s op

theorem respond_step {o : Outcomes} (game : o.metadata = Opg3d.Sample.metadata) (s : System) (op : NativeOp)
    (passed : admissible o s op = true) : o.step s op (respond o s op) (s.after op (respond o s op)) := by
  cases op with
  | shadowhookInit => exact ⟨trivial, rfl, rfl⟩
  | shadowhookHook address replacement cell =>
    obtain ⟨unique, led⟩ := (Bool.and_eq_true _ _).mp passed
    refine ⟨⟨fun carried => ?_, fun target given => ?_⟩, rfl, rfl⟩
    · rcases (Bool.or_eq_true _ _).mp unique with clean | refused
      · exact absurd (of_decide_eq_true clean) carried
      · exact of_decide_eq_true refused
    · rcases (Bool.or_eq_true _ _).mp led with empty | same
      · exact absurd (given.symm.trans (of_decide_eq_true empty)) nofun
      · exact Option.some.inj (given.symm.trans (of_decide_eq_true same))
  | call fn request =>
    obtain ⟨admitted, told, _⟩ := Opg3d.Sample.answer_step s (.call fn request) passed
    exact ⟨admitted, fun known question => told known (game ▸ question), rfl⟩
  | methodPointer info =>
    have same : Opg3d.Sample.metadata.code info = o.metadata.code info := by rw [game]
    exact ⟨trivial, same, rfl⟩
  | original | managed => cases passed
  | apiPtr | slot | static | flag | exchange | fetchAdd => exact ⟨rfl, trivial, rfl⟩
  | _ => exact ⟨trivial, trivial, rfl⟩

/-- The engine patches the code of `FriendsController.Update`, and then refuses it. -/
def patches : Outcomes := ⟨Opg3d.Sample.metadata, 0, ⟨69728, some 69728⟩⟩

def refuses : Outcomes := ⟨Opg3d.Sample.metadata, 0, ⟨0, none⟩⟩

def installFriends : Native Bool :=
  install CloudGuard.friendsUpdateTarget (some .friendsUpdate) (some .friendsUpdate) true

def callWith (o : Outcomes) (s : System) : Call :=
  let run := installFriends.eval (fun s op => (respond o s op, s.after op (respond o s op))) s
  ⟨o, CloudGuard.friendsUpdateTarget, some .friendsUpdate, some .friendsUpdate, s, run.1, run.2⟩

theorem callWith_calls {o : Outcomes} (game : o.metadata = Opg3d.Sample.metadata) {s : System}
    {calls : List Call} (run : Calls s calls)
    (passed : installFriends.check (fun s op => (respond o s op, s.after op (respond o s op)))
      (admissible o) s = true) :
    Calls (callWith o s).after (callWith o s :: calls) :=
  .call run (Prog.exec_of_check (respond_step game) passed)

def first : Call := callWith patches Opg3d.Sample.start

def second : Call := callWith refuses first.after

theorem first_calls : Calls first.after [first] :=
  callWith_calls rfl (.start fun _ _ => by show (1 : Ptr) ≠ 0; decide) (by decide +kernel)

end Sample

theorem noTrace_first : Sample.first.NoTrace := by
  have harmless : Sample.first.Harmless := by
    rintro _ _ _ _ _ (refused | empty)
    · exact absurd refused (by decide)
    · exact absurd empty (by decide)
  exact (Calls.noTrace_iff Sample.first_calls).mpr (by simpa using harmless) _ (List.mem_cons_self ..)

/-- The second call fails, and the proxy that the first one has put in place
has no trampoline any more. -/
theorem second_install_leaves_trace : Calls Sample.second.after [Sample.second, Sample.first] ∧
    Sample.first.result = true ∧ Sample.second.result = false ∧
    Sample.second.before.memory.slot .friendsUpdate = some 69728 ∧
    Sample.second.after.memory.slot .friendsUpdate = none ∧
    Sample.second.after.memory.patched 69728 = some .friendsUpdate := by
  have run : Calls Sample.second.after [Sample.second, Sample.first] :=
    Sample.callWith_calls rfl Sample.first_calls (by decide +kernel)
  exact ⟨run, by decide +kernel, by decide +kernel, by decide +kernel, by decide +kernel, by decide +kernel⟩

end Opg3d.HookEngine
