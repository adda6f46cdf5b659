import Opg3d.Lockstep.Runtime
import Opg3d.Native.Metadata
import Opg3d.Native.System

namespace Opg3d

open Kit

/-- The part of the library's state that its calls through pointers depend on. -/
structure Core where
  api : Api → Ptr
  slot : Hook → Option Ptr
  patched : Ptr → Option Hook
  stubs : Ptr → Ptr
  installing : Bool

def System.core (s : System) : Core :=
  ⟨s.memory.api, s.memory.slot, s.memory.patched, s.memory.stubs, s.installing⟩

namespace Core

/-- Every export that `resolve` insists on is bound. -/
def Bound (c : Core) : Prop := ∀ f, f ≠ .threadDetach → c.api f ≠ 0

/-- The slot of the proxy at a patched address leads to that address. -/
def Coherent (c : Core) : Prop := ∀ address hook, c.patched address = some hook → c.slot hook = some address

def Unpatched (c : Core) (hook : Hook) : Prop := ∀ address, c.patched address ≠ some hook

/-- What holds at any time: slots match patches except while `hook::install`
is at work, and nothing is patched before the exports are bound. -/
structure Sound (c : Core) : Prop where
  coherent : c.installing = false → c.Coherent
  bound : ∀ address hook, c.patched address = some hook → c.Bound

/-- What never gets lost: bound exports and patches with their slots. -/
structure Later (c d : Core) : Prop where
  bound : c.Bound → d.Bound
  paired : ∀ address hook, c.patched address = some hook → c.slot hook = some address →
    d.patched address = some hook ∧ d.slot hook = some address

theorem Later.refl (c : Core) : c.Later c := ⟨id, fun _ _ carried led => ⟨carried, led⟩⟩

def allow (c : Core) : (op : NativeOp) → op.Ans → Prop
  | .apiPtr f, fn => fn = c.api f
  | .slot hook, trampoline => trampoline = c.slot hook
  | .shadowhookHook address _ _, answer =>
    (c.patched address ≠ none → answer.stub = 0) ∧ ∀ target,
      answer.trampoline = some target → target = address
  | _, _ => True

/-- A hook put in place at an address, with what the engine left in the slot. -/
def hooked (c : Core) (address : Ptr) (replacement cell : Hook) (answer : HookAnswer) : Core :=
  { c with
    slot := Function.update c.slot cell answer.trampoline
    patched := Function.update c.patched address (some replacement)
    stubs := Function.update c.stubs answer.stub address }

def next (c : Core) : (op : NativeOp) → op.Ans → Core
  | .bindApi f fn, _ => { c with api := Function.update c.api f fn }
  | .setSlot hook trampoline, _ => { c with slot := Function.update c.slot hook trampoline }
  | .shadowhookHook address replacement cell, answer =>
    if answer.stub = 0 then c else c.hooked address replacement cell answer
  | .shadowhookUnhook stub, _ => { c with patched := Function.update c.patched (c.stubs stub) none }
  | .mark .installBegins, _ => { c with installing := true }
  | .mark .installEnds, _ => { c with installing := false }
  | _, _ => c

theorem follows {s : System} {op : NativeOp} {answer : op.Ans} (admitted : s.memory.admits op answer) :
    s.core.allow op answer ∧ (s.after op answer).core = s.core.next op answer := by
  cases op with
  | mark m => cases m <;> exact ⟨trivial, rfl⟩
  | shadowhookHook address replacement cell =>
    refine ⟨admitted, ?_⟩
    simp only [System.after, Memory.after, Memory.hooked, next]
    split <;> rfl
  | apiPtr f => exact ⟨admitted, rfl⟩
  | slot hook => exact ⟨admitted, rfl⟩
  | _ => exact ⟨trivial, rfl⟩

/-- What the start-up thread may do: no call through null, exports are bound
once, and slots and patches change only for a hook that is nowhere in place. -/
def startupMay (c : Core) : NativeOp → Prop
  | .call fn _ => fn ≠ 0
  | .original _ _ _ => False
  | .managed _ fn _ => fn ≠ 0
  | .bindApi f _ => c.api f = 0
  | .setSlot hook _ => c.installing = true ∧ c.Unpatched hook
  | .shadowhookHook _ replacement cell =>
    c.installing = true ∧ replacement = cell ∧ c.Unpatched cell ∧ c.Bound
  | .shadowhookUnhook stub => c.installing = true ∧ ∀ hook,
    c.patched (c.stubs stub) = some hook → c.slot hook = none
  | .mark .installEnds => c.Coherent
  | _ => True

/-- The monitor of the start-up thread, in a game of any or of given metadata. -/
def startup (given : Option Metadata) : Monitor nativeSignature Core :=
  ⟨fun c op answer => c.allow op answer ∧ ∀ m ∈ given, m.AnswersTo op answer, startupMay, next⟩

theorem next_of_proxyMay {c : Core} {owner : Option Hook} {site : Ptr} {op : NativeOp} (answer : op.Ans)
    (may : proxyMay owner site op) : c.next op answer = c := by
  cases op with
  | mark m =>
    cases m with
    | forceCloud reapply result => rfl
    | _ => exact may.elim
  | _ => first | rfl | exact may.elim

theorem Unpatched.ne {c : Core} {hook other : Hook} {address : Ptr} (free : c.Unpatched hook)
    (carried : c.patched address = some other) : other ≠ hook := by
  rintro rfl
  exact free address carried

theorem later_setSlot {c : Core} {hook : Hook} (free : c.Unpatched hook) (trampoline : Option Ptr) :
    c.Later { c with slot := Function.update c.slot hook trampoline } :=
  ⟨id, fun _ _ carried led =>
    ⟨carried, (Function.update_of_ne (free.ne carried) _ _).trans led⟩⟩

theorem later_hooked {c : Core} {hook : Hook} {address : Ptr} (free : c.Unpatched hook)
    (clean : c.patched address = none) (answer : HookAnswer) :
    c.Later (c.hooked address hook hook answer) := by
  refine ⟨id, fun site other carried led => ⟨?_, ?_⟩⟩
  · have elsewhere : site ≠ address := by
      rintro rfl
      rw [clean] at carried
      cases carried
    exact (Function.update_of_ne elsewhere _ _).trans carried
  · exact (Function.update_of_ne (free.ne carried) _ _).trans led

theorem later_unpatch {c : Core} {address : Ptr}
    (empty : ∀ hook, c.patched address = some hook → c.slot hook = none) :
    c.Later { c with patched := Function.update c.patched address none } := by
  refine ⟨id, fun site other carried led => ⟨?_, led⟩⟩
  have elsewhere : site ≠ address := by
    rintro rfl
    rw [empty other carried] at led
    cases led
  exact (Function.update_of_ne elsewhere _ _).trans carried

/-- What one permitted step of the start-up thread keeps. -/
theorem Sound.step {c : Core} (sound : c.Sound) {op : NativeOp} {answer : op.Ans} (may : c.startupMay op)
    (given : c.allow op answer) : (c.next op answer).Sound ∧ c.Later (c.next op answer) := by
  cases op with
  | bindApi f fn =>
    have bound : c.Bound → Bound { c with api := Function.update c.api f fn } := by
      intro bound g needed
      have other : g ≠ f := by
        rintro rfl
        exact bound g needed may
      exact (Function.update_of_ne other _ _).trans_ne (bound g needed)
    exact ⟨⟨sound.coherent, fun address hook carried => bound (sound.bound address hook carried)⟩,
      ⟨bound, fun _ _ carried led => ⟨carried, led⟩⟩⟩
  | setSlot hook trampoline =>
    obtain ⟨busy, free⟩ := may
    refine ⟨⟨fun idle => ?_, sound.bound⟩, later_setSlot free trampoline⟩
    exact absurd (busy.symm.trans idle) (by simp)
  | shadowhookHook address replacement cell =>
    obtain ⟨busy, rfl, free, bound⟩ := may
    simp only [next]
    split
    · exact ⟨sound, .refl c⟩
    · rename_i patched
      have clean : c.patched address = none := by
        by_contra carried
        exact patched (given.1 carried)
      refine ⟨⟨fun idle => ?_, fun _ _ _ => bound⟩, later_hooked free clean answer⟩
      exact absurd (busy.symm.trans idle) (by simp)
  | shadowhookUnhook stub =>
    obtain ⟨busy, empty⟩ := may
    refine ⟨⟨fun idle => ?_, fun address hook carried => ?_⟩, later_unpatch empty⟩
    · exact absurd (busy.symm.trans idle) (by simp)
    · by_cases here : address = c.stubs stub
      · subst here
        simp [next] at carried
      · exact sound.bound address hook (by simpa [next, here] using carried)
  | mark m =>
    cases m with
    | installBegins => exact ⟨⟨nofun, sound.bound⟩, ⟨id, fun _ _ carried led => ⟨carried, led⟩⟩⟩
    | installEnds => exact ⟨⟨fun _ => may, sound.bound⟩, ⟨id, fun _ _ carried led => ⟨carried, led⟩⟩⟩
    | forceCloud reapply result => exact ⟨sound, .refl c⟩
  | _ => exact ⟨sound, .refl c⟩

/-- With the exports bound, and the owner's slot leading to its site, every
answer agrees with itself. -/
theorem agrees {c : Core} {owner : Option Hook} {site : Ptr} {op : NativeOp} {answer : op.Ans}
    (bound : c.Bound) (own : ∀ hook, owner = some hook → c.slot hook = some site)
    (given : c.allow op answer) : Labelling.unrestricted.answersAgree owner site op answer answer := by
  cases op with
  | apiPtr f =>
    subst given
    exact ⟨rfl, bound f⟩
  | slot hook =>
    subst given
    exact ⟨rfl, own hook⟩
  | call fn request =>
    cases request with
    | stringNew => exact ⟨rfl, Or.inr (Nat.zero_le _)⟩
    | stringLength => exact ⟨rfl, trivial⟩
    | stringChars => exact rfl
    | classGetFieldFromName => exact ⟨rfl, fun _ => trivial⟩
    | fieldGetValue => exact ⟨rfl, fun _ _ => Or.inr (Nat.zero_le _)⟩
    | _ => exact rfl
  | original => exact ⟨rfl, Or.inr (Nat.zero_le _)⟩
  | managed => exact ⟨rfl, Or.inr (Nat.zero_le _)⟩
  | _ => exact rfl

/-- A program that would do as a proxy leaves everything alone. -/
theorem wp_of_lockstep {metadata : Option Metadata} {α : Type} {rel : α → α → Prop} {p : Native α}
    {c : Core} (twin : Twin (lockstep .unrestricted none 0) rel p p) (bound : c.Bound) :
    p.wp (startup metadata) (fun d value => d = c ∧ rel value value) c := by
  refine twin.wp (· = c) rfl ?_ ?_ ?_
  · rintro _ op answer rfl given
    exact agrees bound nofun given.1
  · rintro _ op rfl ⟨may, _⟩
    cases op with
    | original hook trampoline args => exact absurd may.1 (by simp)
    | mark m =>
      cases m with
      | installEnds => exact may.elim
      | _ => trivial
    | _ => first | exact may | exact may.elim
  · rintro _ op answer rfl ⟨may, _⟩ given
    exact next_of_proxyMay answer may

end Core

end Opg3d
