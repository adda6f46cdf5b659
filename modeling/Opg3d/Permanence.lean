import Opg3d.Activation.Accounts
import Opg3d.Kit.Aside

namespace Opg3d

open Kit Native

/-- The address carries the hook, and what the hook takes for the original is
the code there. -/
def InPlace (s : System) (hook : Hook) (address : Ptr) : Prop :=
  s.memory.patched address = some hook ∧ s.memory.slot hook = some address

section

variable {build : Build}

/-- An export that is bound is not bound anew. -/
theorem Core.api_next {c : Core} {op : NativeOp} (may : c.startupMay op) (answer : op.Ans) {f : Api}
    (bound : c.api f ≠ 0) : (c.next op answer).api f = c.api f := by
  cases op with
  | bindApi g fn =>
    have other : f ≠ g := by
      rintro rfl
      exact bound may
    exact Function.update_of_ne other _ _
  | shadowhookHook address replacement cell =>
    simp only [next]
    split <;> rfl
  | mark m => cases m <;> rfl
  | _ => rfl

theorem bound_stays {f : Api} {fn : Ptr} (present : fn ≠ 0) :
    (libraryDiscipline build).Stays fun s => s.memory.api f = fn where
  opening := id
  answered _ held _ admitted bound := (congrArg (Core.api · f) (held.answered admitted).1).trans bound
  asideAnswered {s op next answer} _ aside _ admitted bound := by
    have same := Core.api_next aside.1 answer (f := f) (bound.trans_ne present)
    exact ((congrArg (Core.api · f) (Core.follows admitted).2).trans same).trans bound

theorem inPlace_stays (hook : Hook) (address : Ptr) :
    (libraryDiscipline build).Stays fun s => InPlace s hook address where
  opening := id
  answered inv held here admitted placed :=
    ((libraryDiscipline build).answered inv held here admitted).2.1.paired address hook placed.1 placed.2
  asideAnswered inv aside here admitted placed :=
    ((libraryDiscipline build).asideAnswered inv aside here admitted).2.1.paired address hook placed.1 placed.2

/-- The discipline of the library once the start-up thread has ended. -/
def endedDiscipline (build : Build) : (system build).Discipline where
  fit _ _ _ := True
  inv s := s.core.Sound
  later s t := s.core.Later t.core
  holds := ProxyHolds
  aside _ p := p = .done ()
  later_keeps := ProxyHolds.later
  opening_inv := Core.Sound.opening
  opening_aside := id
  entered := (libraryDiscipline build).entered
  answered inv held here admitted :=
    have ⟨sound, later, rest, _⟩ := (libraryDiscipline build).answered inv held here admitted
    ⟨sound, later, rest, id⟩
  returned := (libraryDiscipline build).returned
  asideAnswered _ ended _ _ := by cases ended

theorem core_stays (core : Core) : (endedDiscipline build).Stays fun s => s.core = core where
  opening := id
  answered _ held _ admitted same := (ProxyHolds.answered held admitted).1.trans same
  asideAnswered _ ended _ _ _ := by cases ended

/-- In every run from the loading of the library on, whatever is interleaved as
long as no entry is taken while `hook::install` executes: an export that is
bound stays bound to the same pointer; a hook that is in place stays there,
also while later installs fail, and so does the one of a call that has entered
it; outside of an install every hook that has been patched is in place, at one
address only; and once the start-up thread has ended nothing is bound, patched
or redirected anymore. -/
theorem settled_for_good {labels more : List GameLabel} {c d : GameConfig}
    (run : (system build).Run (loading build) labels c) (rest : (system build).Run c more d) :
    (∀ f, c.shared.memory.api f ≠ 0 → d.shared.memory.api f = c.shared.memory.api f) ∧
      (∀ hook address, InPlace c.shared hook address → InPlace d.shared hook address) ∧
      (∀ site p, .code site p ∈ c.stack → ∃ hook, InPlace d.shared hook site) ∧
      (c.shared.installing = false → ∀ hook address, c.shared.memory.patched address = some hook →
        InPlace d.shared hook address ∧ ∀ other, c.shared.memory.patched other = some hook →
          other = address) ∧
      (c.beside = .done () → d.shared.core = c.shared.core) := by
  have free (c : GameConfig) (label : GameLabel) (_ : True) :
      (system build).EntersBy (libraryDiscipline build).fit c label :=
    entersBy_any c label
  have kept := (libraryDiscipline build).run_any (fun _ _ _ => trivial) (kept_initial build) run
  have placed (hook : Hook) (address : Ptr) (before : InPlace c.shared hook address) :
      InPlace d.shared hook address :=
    (inPlace_stays hook address).run free kept before rest
  refine ⟨fun f present => (bound_stays present).run free kept rfl rest, placed, fun site p active => ?_,
    fun idle hook address carried => ⟨?_, fun other also => ?_⟩, fun ended => ?_⟩
  · obtain ⟨hook, carried, led, _⟩ := kept.2.2 site p active
    exact ⟨hook, placed hook site ⟨carried, led⟩⟩
  · exact placed hook address ⟨carried, kept.1.coherent idle address hook carried⟩
  · have here := kept.1.coherent idle address hook carried
    have there := kept.1.coherent idle other hook also
    exact Option.some.inj (there.symm.trans here)
  · exact (core_stays c.shared.core).run free ⟨kept.1, ended, kept.2.2⟩ rfl rest

end

/-- The selection of the AppID, hooked while the sample game starts up, is
still hooked when the start-up thread is through with the other hooks. -/
theorem selectAppId_settled : ∃ labels more, ∃ c d : GameConfig,
    (system Sample.build).Run (loading Sample.build) labels c ∧ (system Sample.build).Run c more d ∧
    c.shared.installing = true ∧ d.shared.installing = false ∧
    InPlace d.shared .selectAppId (Sample.metadata.codeOf Photon.selectAppIdTarget) := by
  let site := Sample.metadata.codeOf Photon.selectAppIdTarget
  have played : (Sample.play [.go 300]).bind (fun c => ((system Sample.build).play Sample.starting
      (fun s _ _ => !s.installing) [.go (Sample.startupSteps - 300)] c).bind fun d =>
        if c.shared.installing = true ∧ d.shared.installing = false ∧
          c.shared.memory.patched site = some .selectAppId ∧
          c.shared.memory.slot .selectAppId = some site then some () else none) = some () := by decide +kernel
  obtain ⟨c, reached, further⟩ := Option.bind_eq_some_iff.mp played
  obtain ⟨d, later, both⟩ := Option.bind_eq_some_iff.mp further
  obtain ⟨busy, idle, carried, led⟩ := (Option.ite_none_right_eq_some.mp both).1
  obtain ⟨labels, calls, records⟩ := Sample.play_records reached
  obtain ⟨more, run⟩ := Machine.play_run (fun _ _ _ => True) Sample.starting_admitted
    (fun s _ _ idle => ⟨by simpa [system] using idle, trivial⟩) (fun _ quiet => quiet) later
  have rest : (system Sample.build).Run c more d := run.weaken fun _ _ _ => trivial
  exact ⟨labels, more, c, d, records.run, rest, busy, idle,
    (settled_for_good records.run rest).2.1 _ _ ⟨carried, led⟩⟩

end Opg3d
