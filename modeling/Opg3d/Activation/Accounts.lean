import Opg3d.Activation.Effects
import Opg3d.NoNullCalls

namespace Opg3d

open Kit Native InitThread

abbrev Account := List (Exchange nativeSignature)

/-- Knowledge that is not lost. -/
def Lasting (known : Account → Prop) : Prop := ∀ seen after, seen ⊆ after → known seen → known after

abbrev GameCall := Kit.Call nativeSignature Ptr Word

/-- The library from its loading on. -/
def loading (build : Build) : GameConfig := ⟨System.initial, [], linkedInitThread build⟩

abbrev anyLabel : GameConfig → GameLabel → Prop := fun _ _ => True

theorem entersBy_any {build : Build} (c : GameConfig) (label : GameLabel) :
    (system build).EntersBy (libraryDiscipline build).fit c label := by
  cases label with
  | leap => exact fun _ _ _ _ _ _ _ _ => trivial
  | _ => trivial

/-- The program of a call comes from the hook that its site carries for good. -/
def EnteredAs (build : Build) (s : System) (site : Ptr) (args : List Word) (p : Native Word) : Prop :=
  ∃ hook, s.core.patched site = some hook ∧ s.core.slot hook = some site ∧ p = hook.proxy build args

theorem enteredAs {build : Build} {s : System} {site : Ptr} {args : List Word} {p : Native Word}
    (inv : s.core.Sound) (quiet : (system build).quiet s)
    (entered : (system build).patch s site args = some p) : EnteredAs build s site args p := by
  obtain ⟨hook, carried, rfl⟩ := Option.map_eq_some_iff.mp entered
  exact ⟨hook, carried, inv.coherent quiet site hook carried, rfl⟩

theorem EnteredAs.later {build : Build} {s t : System} {site : Ptr} {args : List Word} {p : Native Word}
    (entered : EnteredAs build s site args p) (later : s.core.Later t.core) :
    EnteredAs build t site args p := by
  obtain ⟨hook, carried, led, same⟩ := entered
  obtain ⟨carried', led'⟩ := later.paired site hook carried led
  exact ⟨hook, carried', led', same⟩

/-- An exchange as the proxy of the hook at a site can have had it. -/
def Proper (hook : Hook) (site : Ptr) (e : Exchange nativeSignature) : Prop :=
  proxyMay (some hook) site e.op ∧ Labelling.unrestricted.answersAgree (some hook) site e.op e.answer e.answer

def ProperAt (s : System) (site : Ptr) (e : Exchange nativeSignature) : Prop :=
  ∃ hook, s.core.patched site = some hook ∧ s.core.slot hook = some site ∧ Proper hook site e

theorem ProperAt.later {s t : System} {site : Ptr} {e : Exchange nativeSignature}
    (proper : ProperAt s site e) (later : s.core.Later t.core) : ProperAt t site e := by
  obtain ⟨hook, carried, led, both⟩ := proper
  obtain ⟨carried', led'⟩ := later.paired site hook carried led
  exact ⟨hook, carried', led', both⟩

theorem properAt_answered {s : System} {site : Ptr} {op : NativeOp} {next : op.Ans → Native Word}
    {answer : op.Ans} (held : ProxyHolds s site (.ask op next)) (admitted : s.memory.admits op answer) :
    ProperAt s site ⟨op,
        answer⟩ := by
  obtain ⟨hook, carried, led, bound, may, _⟩ := held
  refine ⟨hook, carried, led, may, Core.agrees bound ?_ (Core.follows admitted).1⟩
  rintro _ ⟨⟩
  exact led

theorem properAt_returned {s : System} {site : Ptr} {op : NativeOp} {next : op.Ans → Native Word}
    {exit : Exit nativeSignature Ptr Word op} {result : Word} (held : ProxyHolds s site (.ask op next))
    (leaves : System.outgoing op = some exit) : ProperAt s site ⟨op, exit.handBack result⟩ := by
  obtain ⟨hook, carried, led, _, may, _⟩ := held
  refine ⟨hook, carried, led, may, ?_⟩
  cases op with
  | original => exact ⟨rfl, Or.inr (Nat.zero_le _)⟩
  | managed => exact ⟨rfl, Or.inr (Nat.zero_le _)⟩
  | _ => cases leaves

def accounts (build : Build) : Machine.Accounting (libraryDiscipline build) anyLabel where
  origin := EnteredAs build
  told := ProperAt
  fit c label _ := entersBy_any c label
  entered := enteredAs
  originLater later entered := entered.later later
  toldLater later proper := proper.later later
  answered kept top _ _ admitted := properAt_answered (kept.2.2 _ _ (top ▸ List.mem_cons_self ..)) admitted
  returned kept top leaves :=
    properAt_returned (kept.2.2 _ _ (top ▸ List.mem_cons_of_mem _ (List.mem_cons_self ..))) leaves

/-- In every run from the loading of the library on, the program in control
is what the answers to its call have left of the proxy at its site. -/
theorem proxy_in_control {build : Build} {labels : List GameLabel} {c : GameConfig} {calls : List GameCall}
    (run : (system build).Records anyLabel (loading build) [] labels c calls) {site : Ptr} {p : Native Word}
    {rest : List (Frame nativeSignature Ptr Word)} (top : c.stack = .code site p :: rest) {hook : Hook}
    (carried : c.shared.memory.patched site = some hook) :
    ∃ call others, calls = call :: others ∧ call.site = site ∧
      (hook.proxy build call.args).Path call.exchanged p ∧ ∀ e ∈ call.exchanged, Proper hook site e := by
  have same {other : Hook} (also : c.shared.core.patched site = some other) : other = hook :=
    Option.some.inj (also.symm.trans carried)
  obtain ⟨call, others, program, rfl, at_, ⟨entered, carried', _, rfl⟩, path, told⟩ :=
    (accounts build).innermost run (kept_initial build) rfl top
  obtain rfl := same carried'
  refine ⟨call, others, rfl, at_, path, fun e member => ?_⟩
  obtain ⟨other, carried'', _, proper⟩ := told e member
  obtain rfl := same carried''
  exact proper

/-- The start-up of the sample game, in which everything succeeds. -/
def Sample.starting (s : System) : (op : NativeOp) → Option op.Ans
  | .call fn (.threadAttach domain) => if fn = 0 then none else some domain
  | .call fn (.imageGetName _) => if fn = 0 then none else some (some "Assembly-CSharp.dll")
  | op => Sample.reply s op

theorem Sample.starting_admitted (s : System) (op : NativeOp) (given : op.Ans)
    (told : Sample.starting s op = some given) : s.memory.admits op given := by
  unfold Sample.starting at told
  split at told
  · exact (Option.ite_none_left_eq_some.mp told).1
  · exact (Option.ite_none_left_eq_some.mp told).1
  · exact Sample.reply_admitted s op given told

abbrev Sample.play (script : List (Machine.Move Ptr Word)) : Option GameConfig :=
  (system Sample.build).play Sample.starting (fun s _ _ => !s.installing) script (loading Sample.build)

/-- What the sample game plays is a run from the loading of the library on. -/
theorem Sample.play_records {script : List (Machine.Move Ptr Word)} {c : GameConfig}
    (played : Sample.play script = some c) :
    ∃ labels calls, (system Sample.build).Records anyLabel (loading Sample.build) [] labels c calls := by
  obtain ⟨labels, run⟩ := Machine.play_run (fun _ _ _ => True) Sample.starting_admitted
    (fun s _ _ idle => ⟨by simpa [system] using idle, trivial⟩) (fun _ quiet => quiet) played
  have any : (system Sample.build).RunWhere anyLabel (loading Sample.build) labels c :=
    run.weaken fun _ _ _ => trivial
  obtain ⟨calls, records⟩ := any.records []
  exact ⟨labels, calls, records⟩

/-- The steps of the start-up thread. -/
def Sample.startupSteps : Nat := 721

/-- Where the innermost proxy is about to return, what, and its hook. -/
def leavingAt (c : GameConfig) : Option (Ptr × Word × Option Hook) :=
  match c.stack with
  | .code site (.done result) :: _ => some (site, result, c.shared.memory.patched site)
  | _ => none

theorem leaving_of_leavingAt {c : GameConfig} {site : Ptr} {result : Word} {hook : Option Hook}
    (leaving : leavingAt c = some (site, result, hook)) :
    (∃ rest, c.stack = .code site (.done result) :: rest) ∧ c.shared.memory.patched site = hook := by
  unfold leavingAt at leaving
  split at leaving
  · rename_i at_ value rest top
    cases leaving
    exact ⟨⟨rest, top⟩, rfl⟩
  · cases leaving

end Opg3d
