import Opg3d.Install.Outcome
import Opg3d.Kit.Script

namespace Opg3d

open Kit Native HookEngine InitThread

/-- What is asked of a proxy while the exports are bound and its slot leads
to its site. -/
def proxyMonitor (hook : Hook) (site : Ptr) : Monitor nativeSignature Unit where
  allow _ op answer := Labelling.unrestricted.answersAgree (some hook) site op answer answer
  ok _ op := proxyMay (some hook) site op
  next _ _ _ := ()

theorem argsWithin_unrestricted (hook : Hook) (args : List Word) : hook.argsWithin .unrestricted args := by
  cases hook <;> simp [Hook.argsWithin, Labelling.within, Labelling.unrestricted, Secrecy.rank]

theorem proxy_wp (build : Build) (hook : Hook) (site : Ptr) (args : List Word) :
    (hook.proxy build args).wp (proxyMonitor hook site) (fun _ _ => True) () :=
  ((proxy_lockstep (.refl build) hook (argsWithin_unrestricted hook args)).wp (fun _ => True) trivial
    (fun _ _ _ _ given => given) (fun _ _ _ may => may.1) (fun _ _ _ _ _ _ => trivial)).mono fun _ _ _ => trivial

/-- A proxy under way at a site: the site still carries its hook, and the
rest of the program does as a proxy may. -/
def ProxyHolds (s : System) (site : Ptr) (p : Native Word) : Prop :=
  ∃ hook, s.core.patched site = some hook ∧ s.core.slot hook = some site ∧ s.core.Bound ∧
    p.wp (proxyMonitor hook site) (fun _ _ => True) ()

theorem ProxyHolds.later {s t : System} {site : Ptr} {p : Native Word} (later : s.core.Later t.core)
    (held : ProxyHolds s site p) : ProxyHolds t site p := by
  obtain ⟨hook, carried, led, bound, rest⟩ := held
  obtain ⟨carried', led'⟩ := later.paired site hook carried led
  exact ⟨hook, carried', led', later.bound bound, rest⟩

theorem ProxyHolds.answered {s : System} {site : Ptr} {op : NativeOp} {next : op.Ans → Native Word}
    {answer : op.Ans} (held : ProxyHolds s site (.ask op next)) (admitted : s.memory.admits op answer) :
    (s.after op answer).core = s.core ∧ ProxyHolds (s.after op answer) site (next answer) := by
  obtain ⟨hook, carried, led, bound, may, rest⟩ := held
  obtain ⟨allowed, moved⟩ := Core.follows admitted
  have same : (s.after op answer).core = s.core := moved.trans (Core.next_of_proxyMay answer may)
  refine ⟨same, hook, same ▸ carried, same ▸ led, same ▸ bound, rest answer ?_⟩
  refine Core.agrees bound ?_ allowed
  rintro _ ⟨⟩
  exact led

theorem ProxyHolds.returned {s : System} {site : Ptr} {op : NativeOp} {next : op.Ans → Native Word}
    {exit : Exit nativeSignature Ptr Word op} {result : Word} (held : ProxyHolds s site (.ask op next))
    (leaves : System.outgoing op = some exit) : ProxyHolds s site (next (exit.handBack result)) := by
  obtain ⟨hook, carried, led, bound, _, rest⟩ := held
  refine ⟨hook, carried, led, bound, rest _ ?_⟩
  cases op with
  | original => exact ⟨rfl, Or.inr (Nat.zero_le _)⟩
  | managed => exact ⟨rfl, Or.inr (Nat.zero_le _)⟩
  | _ => cases leaves

/-- What holds of the hooks between game calls still holds as one begins. -/
theorem Core.Sound.opening {build : Build} {s : System} (sound : s.core.Sound)
    (quiet : (system build).quiet s) :
    ((system build).opening s).core.Sound ∧ (system build).quiet ((system build).opening s) :=
  ⟨sound, quiet⟩

/-- The discipline of the library: coherent patches and slots, proxies that
keep to their own trampoline, and a start-up thread that keeps to its rules. -/
def libraryDiscipline (build : Build) : (system build).Discipline where
  fit _ _ _ := True
  inv s := s.core.Sound
  later s t := s.core.Later t.core
  holds := ProxyHolds
  aside s p := p.wp (Core.startup none) (fun _ _ => True) s.core
  later_keeps := ProxyHolds.later
  opening_inv := Core.Sound.opening
  opening_aside aside := aside
  entered {s site args p} inv quiet _ entered := by
    obtain ⟨hook, carried, rfl⟩ := Option.map_eq_some_iff.mp entered
    exact ⟨hook, carried, inv.coherent quiet site hook carried, inv.bound site hook carried,
      proxy_wp build hook site args⟩
  answered {s site op next answer} inv held here admitted := by
    obtain ⟨same, rest⟩ := held.answered admitted
    exact ⟨same ▸ inv, same ▸ .refl _, rest, fun aside => same ▸ aside⟩
  returned held leaves := held.returned leaves
  asideAnswered {s op next answer} inv aside here admitted := by
    obtain ⟨allowed, moved⟩ := Core.follows admitted
    obtain ⟨sound, later⟩ := inv.step aside.1 allowed
    exact ⟨moved ▸ sound, moved ▸ later, moved ▸ aside.2 answer ⟨allowed, nofun⟩⟩

/-- A call through a null pointer: an export, a trampoline or a managed method. -/
def NativeOp.CallsNull : NativeOp → Prop
  | .call fn _ => fn = 0
  | .original _ trampoline _ => trampoline = none
  | .managed _ fn _ => fn = 0
  | _ => False

/-- The operation that a proxy in control or the start-up thread is about to perform. -/
def Performs (c : GameConfig) (op : NativeOp) : Prop :=
  (∃ site next rest, c.stack = .code site (.ask op next) :: rest) ∨ ∃ next, c.beside = .ask op next

theorem not_callsNull_of_proxyMay {owner : Option Hook} {site : Ptr} {op : NativeOp}
    (may : proxyMay owner site op) : ¬op.CallsNull := by
  cases op with
  | call fn request => exact may
  | original hook trampoline args =>
    rintro rfl
    exact absurd may.2 nofun
  | managed method fn args => exact may
  | _ => exact id

theorem not_callsNull_of_startupMay {c : Core} {op : NativeOp} (may : c.startupMay op) : ¬op.CallsNull := by
  cases op with
  | call fn request => exact may
  | original hook trampoline args => exact may.elim
  | managed method fn args => exact may
  | _ => exact id

theorem kept_not_callsNull {build : Build} {c : GameConfig} {op : NativeOp}
    (kept : (libraryDiscipline build).Kept c) (performs : Performs c op) : ¬op.CallsNull := by
  obtain ⟨_, aside, held⟩ := kept
  rcases performs with ⟨site, next, rest, top⟩ | ⟨next, here⟩
  · obtain ⟨hook, _, _, _, may, _⟩ := held site _ (top ▸ List.mem_cons_self ..)
    exact not_callsNull_of_proxyMay may
  · rw [here] at aside
    exact not_callsNull_of_startupMay aside.1

theorem kept_initial (build : Build) :
    (libraryDiscipline build).Kept ⟨System.initial, [], linkedInitThread build⟩ := by
  have fresh : System.initial.core.Fresh := ⟨rfl, fun _ => rfl⟩
  exact ⟨fresh.sound, Core.startup_wp fresh, nofun⟩

/-- From the loading of the library on, whatever the runtime, the symbol
table and the hook engine answer and whatever the game calls between two
installs and afterwards, no call goes through a null pointer. -/
theorem no_null_call {build : Build} {labels : List GameLabel} {c : GameConfig} {op : NativeOp}
    (run : (system build).Run ⟨System.initial, [], linkedInitThread build⟩ labels c)
    (performs : Performs c op) : ¬op.CallsNull :=
  kept_not_callsNull ((libraryDiscipline build).run_any (fun _ _ _ => trivial) (kept_initial build) run) performs

/-- The export that the start-up thread is about to call, and the pointer it calls. -/
def nextExport (c : GameConfig) : Option (Ptr × Api) :=
  match c.beside with
  | .ask (.call fn request) _ => some (fn, request.api)
  | _ => none

theorem performs_of_nextExport {c : GameConfig} {fn : Ptr} {f : Api} (next : nextExport c = some (fn, f)) :
    ∃ request : ApiCall, request.api = f ∧ Performs c (.call fn request) := by
  unfold nextExport at next
  split at next
  · rename_i request rest here
    cases next
    exact ⟨request, rfl, Or.inr ⟨rest, here⟩⟩
  · cases next

/-- Once every export is bound the start-up thread asks for the domain. -/
theorem domainGet_not_null : ∃ labels c request,
    (system Sample.build).Run ⟨System.initial, [], linkedInitThread Sample.build⟩ labels c ∧
      request.api = .domainGet ∧ Performs c (.call 1 request) ∧ ¬(NativeOp.call 1 request).CallsNull := by
  have played : ((system Sample.build).play Sample.reply (fun _ _ _ => false) [.go 56]
      ⟨System.initial, [], linkedInitThread Sample.build⟩).map nextExport = some (some (1, .domainGet)) := by
    decide +kernel
  obtain ⟨c, reached, next⟩ := Option.map_eq_some_iff.mp played
  obtain ⟨request, same, performs⟩ := performs_of_nextExport next
  obtain ⟨labels, run⟩ := Machine.play_run (fun _ _ _ => True) Sample.reply_admitted nofun
    (fun _ quiet => quiet) reached
  have run := run.weaken fun _ _ _ => trivial
  exact ⟨labels, c, request, run, same, performs, no_null_call run performs⟩

end Opg3d
