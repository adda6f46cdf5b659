import Opg3d.Install.Outcome

namespace Opg3d

open Kit Native

/-- How secret the result of a call out of the library may be. -/
def NativeOp.resultSecrecy : NativeOp → Secrecy
  | .original hook _ _ => hook.resultSecrecy
  | .managed method _ _ => method.resultSecrecy
  | _ => .auth

/-- Corresponding answers of the runtime and the system: the same, except for
the contents of strings. -/
def Labelling.told (L : Labelling) : (op : NativeOp) → op.Ans → op.Ans → Prop
  | .call _ request, a, b => L.resultsAgree request a b
  | _, a, b => a = b

/-- A step that the game chooses: it calls an entry, or a body returns. -/
def ByGame : GameLabel → Prop
  | .call _ _ => True
  | .finish _ => True
  | _ => False

/-- What the game and the surroundings choose in corresponding steps of two
runs: the game does the same, and one operation gets corresponding answers. Of
what the library does nothing is asked. -/
structure LabelsAgree (L : Labelling) (label label' : GameLabel) : Prop where
  game : ByGame label → ByGame label' → label = label'
  answer : ∀ {op : NativeOp} {a b : op.Ans}, label = .answer op a → label' = .answer op b → L.told op a b

/-- The operation that the library performs in a step, the text of a log line included. -/
def asked : GameLabel → Option NativeOp
  | .answer op _ => some op
  | .beside op _ => some op
  | _ => none

/-- The innermost call is a proxy at an operation. -/
def Awaits (stack : List (Frame nativeSignature Ptr Word)) (op : NativeOp) : Prop :=
  ∃ site next rest, stack = .code site (.ask op next) :: rest

/-- A step that hands credentials to the library only where it expects them:
as the arguments of its proxies and as the results it waits for. What it
passes to `UseCloud` itself is not in question. -/
def Expected (L : Labelling) (c : GameConfig) : GameLabel → Prop
  | .call site args => ∀ hook, c.shared.core.patched site = some hook → hook.argsWithin L args
  | .leap => ∀ op exit, Awaits c.stack op → System.outgoing op = some exit → exit.past = false →
      ∀ hook, c.shared.core.patched exit.site = some hook →
        (hook = .useCloudRegion ∧ ∃ fn args, op = .managed .useCloud fn args) ∨ hook.argsWithin L exit.args
  | .finish result => ∀ site rest op, c.stack = .body site :: rest → Awaits rest op →
      L.within (Word.ptr result) op.resultSecrecy
  | .leave => ∀ site result rest op, c.stack = .code site (.done result) :: rest → Awaits rest op →
      L.within (Word.ptr result) op.resultSecrecy
  | _ => True

/-- Corresponding calls: a body of the same code, or one proxy in lockstep. -/
inductive FramesAgree (L : Labelling) (k : Core) :
    Frame nativeSignature Ptr Word → Frame nativeSignature Ptr Word → Prop
  | body {site} : FramesAgree L k (.body site) (.body site)
  | code {site hook p p'} : k.patched site = some hook → k.slot hook = some site →
      Twin (lockstep L (some hook) site) Eq p p' → FramesAgree L k (.code site p) (.code site p')

/-- Two runs side by side, in a library whose patches are those of `k`. -/
structure Paired (L : Labelling) (k : Core) (c c' : GameConfig) : Prop where
  shared : c.shared = c'.shared
  core : c.shared.core = k
  beside : c.beside = .done ()
  beside' : c'.beside = .done ()
  stack : List.Forall₂ (FramesAgree L k) c.stack c'.stack

section Lockstep

variable {L : Labelling} {k : Core} {build build' : Build}

/-- Answers of the runtime that correspond are as the programs need them. -/
theorem answersAgree_of_told {s : System} {hook : Hook} {site : Ptr} {op : NativeOp} {a b : op.Ans}
    (bound : s.core.Bound) (led : s.core.slot hook = some site) (admitted : s.memory.admits op a)
    (told : L.told op a b) (inside : System.outgoing op = none) :
    L.answersAgree (some hook) site op a b := by
  cases op with
  | apiPtr f =>
    obtain rfl : a = s.memory.api f := admitted
    exact ⟨told, bound f⟩
  | slot other =>
    obtain rfl : a = s.memory.slot other := admitted
    refine ⟨told, ?_⟩
    rintro ⟨⟩
    exact led
  | original other trampoline args =>
    cases trampoline with
    | none => exact absurd rfl admitted
    | some target => cases inside
  | managed method fn args =>
    have present : fn ≠ 0 := admitted
    simp [System.outgoing, present] at inside
  | _ => exact told

/-- The state does not depend on the contents of strings. -/
theorem after_of_told {op : NativeOp} {a b : op.Ans} (told : L.told op a b) (s : System) :
    s.after op a = s.after op b := by
  cases op with
  | call fn request => rfl
  | _ => exact congrArg _ told

theorem deliver_agrees {stack stack' : List (Frame nativeSignature Ptr Word)}
    (agree : List.Forall₂ (FramesAgree L k) stack stack') {result : Word}
    (within : ∀ op, Awaits stack op → L.within (Word.ptr result) op.resultSecrecy) :
    List.Forall₂ (FramesAgree L k) ((system build).deliver result stack)
      ((system build').deliver result stack') := by
  cases agree with
  | nil => exact .nil
  | @cons frame frame' rest rest' first others =>
    cases first with
    | body => exact .cons .body others
    | @code site hook p p' carried led twin =>
      cases twin with
      | done related => exact .cons (.code carried led (.done related)) others
      | @ask op next next' may both =>
        have bounded := within op ⟨site, next, rest, rfl⟩
        cases leaves : System.outgoing op with
        | none =>
          rw [(system build).deliver_none leaves, (system build').deliver_none leaves]
          exact .cons (.code carried led (.ask may both)) others
        | some exit =>
          rw [(system build).deliver_some leaves, (system build').deliver_some leaves]
          refine .cons (.code carried led (both _ _ ?_)) others
          cases op with
          | original other trampoline args =>
            cases trampoline with
            | none => cases leaves
            | some target =>
              cases leaves
              exact ⟨rfl, bounded⟩
          | managed method fn args =>
            simp only [System.outgoing, Option.ite_none_left_eq_some, Option.some.injEq] at leaves
            obtain ⟨_, rfl⟩ := leaves
            exact ⟨rfl, bounded⟩
          | _ => cases leaves

theorem enter_agrees (agree : BuildsAgree build build') {s : System} (coherent : s.core.Coherent)
    {site : Ptr} {args : List Word}
    (within : ∀ hook, s.core.patched site = some hook → hook.argsWithin L args) :
    FramesAgree L s.core ((system build).enter s site args) ((system build').enter s site args) := by
  cases carried : s.core.patched site with
  | none =>
    have entered (b : Build) : (system b).enter s site args = .body site := by
      have free : (system b).patch s site args = none := Option.map_eq_none_iff.mpr carried
      simp only [Machine.enter, free]
    rw [entered, entered]
    exact .body
  | some hook =>
    have entered (b : Build) : (system b).enter s site args = .code site (hook.proxy b args) := by
      have patched : (system b).patch s site args = some (hook.proxy b args) := by
        show Option.map _ (s.core.patched site) = _
        rw [carried]
        rfl
      simp only [Machine.enter, patched]
    rw [entered, entered]
    exact .code carried (coherent site hook carried) (proxy_lockstep agree hook (within hook carried))

/-- A call that leaves a program goes into the same code on both sides. -/
theorem leap_agrees (agree : BuildsAgree build build') {s : System} (coherent : s.core.Coherent)
    {op : NativeOp} (exit : Exit nativeSignature Ptr Word op)
    (within : exit.past = false → ∀ hook, s.core.patched exit.site = some hook →
      hook.argsWithin L exit.args) :
    FramesAgree L s.core ((system build).leap s exit) ((system build').leap s exit) := by
  simp only [Machine.leap]
  split
  · exact .body
  · rename_i through
    exact enter_agrees agree coherent (within (Bool.eq_false_iff.mpr through))

theorem managed_args {method : Managed} {fn : Ptr} {args : List Word}
    {exit : Exit nativeSignature Ptr Word (.managed method fn args)}
    (leaves : System.outgoing (.managed method fn args) = some exit) : exit.args = args := by
  simp only [System.outgoing, Option.ite_none_left_eq_some, Option.some.injEq] at leaves
  rw [← leaves.2]

theorem opened_agrees {s : System} {stack stack' : List (Frame nativeSignature Ptr Word)}
    (agree : List.Forall₂ (FramesAgree L k) stack stack') :
    (system build).opened s stack = (system build').opened s stack' ∧
      ((system build).opened s stack).core = s.core := by
  cases agree with
  | nil => exact ⟨rfl, rfl⟩
  | cons => exact ⟨rfl, rfl⟩

/-- Where the game is in control it takes the next step. -/
theorem byGame_of_host {c d : GameConfig} {label : GameLabel} (host : Machine.InHost c.stack)
    (alone : c.beside = .done ()) (step : (system build).Step c label d) : ByGame label := by
  cases step with
  | call | finish => trivial
  | answer | leap | leave => cases host
  | beside => cases alone

theorem host_agrees {stack stack' : List (Frame nativeSignature Ptr Word)}
    (agree : List.Forall₂ (FramesAgree L k) stack stack') (host : Machine.InHost stack) :
    Machine.InHost stack' := by
  cases agree with
  | nil => trivial
  | cons first _ =>
    cases first with
    | body => trivial
    | code => cases host

/-- One step of each run: they stay side by side, and the library performs one operation. -/
theorem Paired.step (agree : BuildsAgree build build') (ready : k.Ready) {c c' d d' : GameConfig}
    {label label' : GameLabel} (paired : Paired L k c c') (expected : Expected L c label)
    (same : LabelsAgree L label label') (step : (system build).Step c label d)
    (step' : (system build').Step c' label' d') : Paired L k d d' ∧ asked label = asked label' := by
  obtain ⟨s, stack, beside⟩ := c
  obtain ⟨s', stack', beside'⟩ := c'
  obtain ⟨rfl, core, rfl, rfl, frames⟩ := paired
  simp only at core frames
  have coherent : s.core.Coherent := core ▸ ready.coherent
  have bound : s.core.Bound := core ▸ ready.bound
  cases step with
  | @call _ _ _ site args host quiet =>
    obtain rfl := same.game trivial (byGame_of_host (host_agrees frames host) rfl step')
    cases step'
    have agree' : (system build).opened s _ = (system build').opened s _ ∧
      ((system build).opened s _).core = s.core :=
      opened_agrees frames
    obtain ⟨opened, kept⟩ := agree'
    refine ⟨⟨opened, kept.trans core, rfl, rfl, .cons ?_ frames⟩, rfl⟩
    rw [← opened, ← core, ← kept]
    exact enter_agrees agree (kept ▸ coherent) (kept ▸ expected)
  | @finish _ site stack _ result =>
    have host : Machine.InHost stack' := host_agrees frames trivial
    obtain rfl := same.game trivial (byGame_of_host host rfl step')
    cases frames with
    | cons first others =>
      cases step'
      exact ⟨⟨rfl, core, rfl, rfl, deliver_agrees others fun op awaits => expected _ _ op rfl awaits⟩, rfl⟩
  | @answer _ _ op next _ _ a inside admitted =>
    cases frames with
    | cons first others =>
      cases first with
      | code carried led twin =>
        cases twin with
        | ask may both =>
          cases step' with
          | call host => cases host
          | leap leaves => cases inside.symm.trans leaves
          | @answer _ _ _ _ _ _ b _ admitted' =>
            have told : L.told op a b := same.answer rfl rfl
            obtain ⟨_, moved⟩ := Core.follows admitted
            have agrees := answersAgree_of_told bound (core ▸ led) admitted told inside
            refine ⟨⟨after_of_told told s, ?_, rfl, rfl,
              .cons (.code carried led (both a b agrees)) others⟩, rfl⟩
            exact (moved.trans (Core.next_of_proxyMay a may.1)).trans core
  | @leap _ _ op _ _ _ exit leaves quiet =>
    cases frames with
    | cons first others =>
      cases first with
      | code carried led twin =>
        cases twin with
        | ask may both =>
          cases step' with
          | call host => cases host
          | answer inside => cases inside.symm.trans leaves
          | leap leaves' quiet' =>
            obtain rfl := Option.some.inj (leaves.symm.trans leaves')
            refine ⟨⟨rfl, core, rfl, rfl, .cons ?_ (.cons (.code carried led (.ask may both)) others)⟩, rfl⟩
            rw [← core]
            refine leap_agrees agree coherent exit fun through hook there => ?_
            rcases expected op exit ⟨_, _, _, rfl⟩ leaves through hook there with ⟨rfl, fn, args, rfl⟩ | within
            · rw [managed_args leaves]
              exact may.2
            · exact within
  | @leave _ site result _ _ =>
    cases frames with
    | cons first others =>
      cases first with
      | code carried led twin =>
        cases twin with
        | done related =>
          subst related
          cases step' with
          | call host => cases host
          | leave =>
            exact ⟨⟨rfl, core, rfl, rfl, deliver_agrees others fun op awaits =>
              expected _ _ _ op rfl awaits⟩, rfl⟩

theorem paired_run (agree : BuildsAgree build build') (ready : k.Ready) {c c' d d' : GameConfig}
    {labels labels' : List GameLabel} (run : (system build).RunWhere (Expected L) c labels d)
    (run' : (system build').Run c' labels' d') (same : List.Forall₂ (LabelsAgree L) labels labels')
    (paired : Paired L k c c') : Paired L k d d' ∧ labels.map asked = labels'.map asked := by
  induction run generalizing c' labels' with
  | stop =>
    cases same
    cases run'
    exact ⟨paired, rfl⟩
  | step expected first _ ih =>
    cases same with
    | cons label others =>
      cases run' with
      | step _ first' rest' =>
        obtain ⟨stepped, operation⟩ := paired.step agree ready expected label first first'
        obtain ⟨ended, operations⟩ := ih rest' others stepped
        exact ⟨ended, congrArg₂ List.cons operation operations⟩

/-- Two runs of the library that differ in the contents of credential strings
and of the configured AppID, under the same lengths and fingerprints, perform
the same operations and write the same lines to the log. -/
theorem log_noninterference (agree : BuildsAgree build build') {s : System} (ready : s.core.Ready)
    {labels labels' : List GameLabel} {c c' : GameConfig}
    (run : (system build).RunWhere (Expected L) ⟨s, [], .done ()⟩ labels c)
    (run' : (system build').Run ⟨s, [], .done ()⟩ labels' c')
    (same : List.Forall₂ (LabelsAgree L) labels labels') :
    labels.map asked = labels'.map asked ∧ c.shared.lines = c'.shared.lines := by
  obtain ⟨paired, operations⟩ := paired_run agree ready run run' same ⟨rfl, rfl, rfl, rfl, .nil⟩
  exact ⟨operations, congrArg System.lines paired.shared⟩

theorem LabelsAgree.called (site : Ptr) (args : List Word) :
    LabelsAgree L (.call site args) (.call site args) :=
  ⟨fun _ _ => rfl, nofun⟩

theorem LabelsAgree.answered {op : NativeOp} {a b : op.Ans} (told : L.told op a b) :
    LabelsAgree L (.answer op a) (.answer op b) := by
  refine ⟨nofun, ?_⟩
  rintro _ _ _ ⟨⟩ ⟨⟩
  exact told

/-- Two lines are written at one place of the code, whatever their texts are. -/
theorem LabelsAgree.logged {priority : Priority} {text text' : Bytes} (site : Logger.CallSite) :
    LabelsAgree L (.answer (.log priority text) site) (.answer (.log priority text') site) := by
  refine ⟨nofun, ?_⟩
  rintro _ _ _ ⟨⟩ ⟨⟩
  rfl

end Lockstep

/-- The loaded library with the hook of `UseCloud` in place. -/
def tracedStart : System :=
  { System.initial with
    memory := { Memory.initial with
      api := fun _ => 1
      slot := fun _ => some 64
      patched := fun address => if address = 64 then some .useCloudRegion else none } }

theorem tracedStart_ready : tracedStart.core.Ready := by
  refine ⟨fun _ _ => ?_, fun address hook carried => ?_, rfl⟩
  · show (1 : Ptr) ≠ 0
    decide
  · obtain ⟨rfl, _⟩ := Option.ite_none_right_eq_some.mp carried
    rfl

/-- Two AppIDs of four letters with one FNV-1a value. -/
def appIdText : Bool → String
  | true => "gwzx"
  | false => "16cd"

def appIdUnits (first : Bool) : List UInt16 := (appIdText first).toList.map fun c => UInt16.ofNat c.toNat

def appIdBuild (first : Bool) : Build := ⟨false, literal (appIdText first), [], 0⟩

def appIdLabelling : Labelling := ⟨fun _ => .appId, fun _ n => n = 4, fun _ _ => False⟩

def tracedLine (units : List UInt16) : Bytes :=
  let text := Il2cpp.convertCapped units 4 256
  let summary := printf "chars=%d utf8=%zu fnv1a=%08x" [.int 4, .nat text.length,
    .nat (Photon.fnv1a text).toNat]
  printf "trace: ServerSettings.UseCloud(region=%d) app={%s}"
    ([.int 0, .str (Logger.truncate 128 summary)].map Arg.read)

/-- The steps of the proxy up to its first line. -/
def tracedLabels (units : List UInt16) : List GameLabel :=
  [.call 64 [7, 9, 0, 0], .answer (.apiPtr .stringLength) (1 : Ptr),
    .answer (.apiPtr .stringChars) (1 : Ptr),
    .answer (.apiPtr .stringLength) (1 : Ptr), .answer (.call 1 (.stringLength 9)) (4 : Int),
    .answer (.apiPtr .stringChars) (1 : Ptr), .answer (.call 1 (.stringChars 9)) (some units),
    .answer (.apiPtr .stringLength) (1 : Ptr), .answer (.apiPtr .stringLength) (1 : Ptr),
    .answer (.call 1 (.stringLength 9)) (4 : Int),
      .answer (.log .info (tracedLine units)) ⟨0, 0, 0, 0, none⟩]

theorem traced_run (build : Build) (units : List UInt16) : ∃ c,
    (system build).RunWhere (Expected appIdLabelling) ⟨tracedStart, [], .done ()⟩ (tracedLabels units) c := by
  have one : (1 : Ptr) ≠ 0 := by decide
  refine ⟨_, .step ?_ (.call trivial rfl) <| .step trivial (.answer rfl rfl) <|
    .step trivial (.answer rfl rfl) <|
    .step trivial (.answer rfl rfl) <| .step trivial (.answer rfl one) <| .step trivial (.answer rfl rfl) <|
    .step trivial (.answer rfl one) <| .step trivial (.answer rfl rfl) <| .step trivial (.answer rfl rfl) <|
    .step trivial (.answer rfl one) <| .step trivial (.answer rfl trivial) .stop⟩
  intro hook carried
  obtain rfl : Hook.useCloudRegion = hook := Option.some.inj carried
  exact Or.inr (le_refl _)

theorem appId_summary : SameSummary (literal (appIdText true)) (literal (appIdText false)) :=
  ⟨by decide, by decide⟩

theorem tracedLabels_agree : List.Forall₂ (LabelsAgree appIdLabelling) (tracedLabels (appIdUnits true))
    (tracedLabels (appIdUnits false)) := by
  refine .cons (.called _ _) <| .cons (.answered rfl) <| .cons (.answered rfl) <| .cons (.answered rfl) <|
    .cons (.answered ⟨rfl, rfl⟩) <| .cons (.answered rfl) <| .cons (.answered ?_) <|
      .cons (.answered rfl) <|
    .cons (.answered rfl) <| .cons (.answered ⟨rfl, rfl⟩) <| .cons (.logged _) .nil
  rintro n rfl
  exact ⟨by decide, by decide⟩

theorem traced_lines_agree : appIdUnits true ≠ appIdUnits false ∧ ∃ c c',
    (system (appIdBuild true)).Run ⟨tracedStart, [], .done ()⟩ (tracedLabels (appIdUnits true)) c ∧
    (system (appIdBuild false)).Run ⟨tracedStart, [], .done ()⟩ (tracedLabels (appIdUnits false)) c' ∧
    (tracedLabels (appIdUnits true)).map asked = (tracedLabels (appIdUnits false)).map asked ∧
    c.shared.lines = c'.shared.lines := by
  obtain ⟨c, run⟩ := traced_run (appIdBuild true) (appIdUnits true)
  obtain ⟨c', run'⟩ := traced_run (appIdBuild false) (appIdUnits false)
  have run' := run'.weaken fun _ _ _ => trivial
  have agree : BuildsAgree (appIdBuild true) (appIdBuild false) := ⟨rfl, rfl, rfl, appId_summary⟩
  exact ⟨by decide, c, c', run.weaken fun _ _ _ => trivial, run',
    log_noninterference agree tracedStart_ready run run' tracedLabels_agree⟩

end Opg3d
