import Mathlib.Logic.Function.Basic
import Opg3d.Kit.Reentry
import Opg3d.Native.InitThread

namespace Opg3d

/-- The globals of the library and the state of the hook engine: which code
addresses carry which proxy, and which address each stub stands for. -/
structure Memory where
  api : Api → Ptr
  slot : Hook → Option Ptr
  static : Static → Ptr
  flag : Flag → Bool
  counter : Counter → UInt32
  patched : Ptr → Option Hook
  stubs : Ptr → Ptr

namespace Memory

/-- The memory of a freshly loaded library. -/
def initial : Memory where
  api _ := 0
  slot _ := none
  static _ := 0
  flag _ := false
  counter _ := 0
  patched _ := none
  stubs _ := 0

/-- ShadowHook's UNIQUE mode: an address that carries a hook is refused, and a
trampoline leads into the code at the hooked address. -/
def HookAnswered (m : Memory) (address : Ptr) (answer : HookAnswer) : Prop :=
  (m.patched address ≠ none → answer.stub = 0) ∧ ∀ target,
    answer.trampoline = some target → target = address

/-- The answers an operation can get: globals read back what they hold, the
runtime and the system answer anything, a call through null gets none. -/
def admits (m : Memory) : (op : NativeOp) → op.Ans → Prop
  | .apiPtr f, fn => fn = m.api f
  | .slot hook, trampoline => trampoline = m.slot hook
  | .static cell, value => value = m.static cell
  | .flag f, value => value = m.flag f
  | .exchange f, value => value = m.flag f
  | .fetchAdd counter, value => value = m.counter counter
  | .call fn _, _ => fn ≠ 0
  | .original _ trampoline _, _ => trampoline ≠ none
  | .managed _ fn _, _ => fn ≠ 0
  | .shadowhookHook address _ _, answer => m.HookAnswered address answer
  | _, _ => True

def hooked (m : Memory) (address : Ptr) (replacement cell : Hook) (answer : HookAnswer) : Memory :=
  if answer.stub = 0 then m
  else { m with
    slot := Function.update m.slot cell answer.trampoline
    patched := Function.update m.patched address (some replacement)
    stubs := Function.update m.stubs answer.stub address }

theorem hooked_refused {m : Memory} {address : Ptr} {replacement cell : Hook} {answer : HookAnswer}
    (refused : answer.stub = 0) : m.hooked address replacement cell answer = m := if_pos refused

theorem hooked_placed {m : Memory} {address : Ptr} {replacement cell : Hook} {answer : HookAnswer}
    (placed : answer.stub ≠ 0) : m.hooked address replacement cell answer =
      { m with
        slot := Function.update m.slot cell answer.trampoline
        patched := Function.update m.patched address (some replacement)
        stubs := Function.update m.stubs answer.stub address } := if_neg placed

def after (m : Memory) : (op : NativeOp) → op.Ans → Memory
  | .bindApi f fn, _ => { m with api := Function.update m.api f fn }
  | .setSlot hook trampoline, _ => { m with slot := Function.update m.slot hook trampoline }
  | .setStatic cell value, _ => { m with static := Function.update m.static cell value }
  | .setFlag f value, _ => { m with flag := Function.update m.flag f value }
  | .exchange f, _ => { m with flag := Function.update m.flag f true }
  | .fetchAdd counter, _ => { m with counter := Function.update m.counter counter (m.counter counter + 1) }
  | .shadowhookHook address replacement cell, answer => m.hooked address replacement cell answer
  | .shadowhookUnhook stub, _ => { m with patched := Function.update m.patched (m.stubs stub) none }
  | _, _ => m

end Memory

/-- The process as the library sees it. Beside the memory it records whether
`hook::install` is being executed, whether `force_cloud` has returned true in
the current outermost game call, and the lines written to logcat. -/
structure System where
  memory : Memory
  installing : Bool
  verified : Bool
  sequence : UInt32
  lines : List (Priority × Bytes)

namespace System

def initial : System := ⟨.initial, false, false, 0, []⟩

def marked (s : System) : Mark → System
  | .installBegins => { s with installing := true }
  | .installEnds => { s with installing := false }
  | .forceCloud _ result => { s with verified := s.verified || result }

/-- `print` numbers its lines from one. -/
def logged (s : System) (priority : Priority) (text : Bytes) (site : Logger.CallSite) : System :=
  { s with
    sequence := s.sequence + 1
    lines := s.lines ++ [(priority, Logger.print (s.sequence + 1) site text)] }

def after (s : System) (op : NativeOp) (answer : op.Ans) : System :=
  match op, answer with
  | .log priority text, site => s.logged priority text site
  | .mark m, _ => s.marked m
  | op, answer => { s with memory := s.memory.after op answer }

/-- Calls through a trampoline reach the code itself, calls through a method
pointer whatever its entry carries. -/
def outgoing : (op : NativeOp) → Option (Kit.Exit nativeSignature Ptr Word op)
  | .original _ (some target) args => some ⟨target, args, true, id⟩
  | .managed _ fn args => if fn = 0 then none else some ⟨fn, args, false, id⟩
  | _ => none

end System

/-- The library inside the game. Calls are taken in any order and nesting, but
none while `hook::install` executes: between the marks of an install no entry,
patched or not, is taken by a call or a managed call. -/
def system (build : Build) : Kit.Machine nativeSignature System Ptr Word where
  admits s := s.memory.admits
  after := System.after
  outgoing := System.outgoing
  patch s address args := (s.memory.patched address).map fun hook => hook.proxy build args
  opening s := { s with verified := false }
  quiet s := s.installing = false

abbrev GameConfig := Kit.Config nativeSignature System Ptr Word

abbrev GameLabel := Kit.Label nativeSignature Ptr Word

end Opg3d
