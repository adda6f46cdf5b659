import Mathlib.Data.UInt
import Mathlib.Logic.Function.Basic
import Opg3d.Native.Logger

namespace Opg3d.Logger

/-- `timespec` as `CLOCK_MONOTONIC` fills it in, on a 32-bit system. -/
structure Timespec where
  sec : Nat
  nsec : Nat
  bounded : sec < 2 ^ 31 ∧ nsec < 10 ^ 9

/-- The clock has not gone back. -/
def Timespec.Before (a b : Timespec) : Prop := a.sec < b.sec ∨ a.sec = b.sec ∧ a.nsec ≤ b.nsec

instance (a b : Timespec) : Decidable (a.Before b) := inferInstanceAs (Decidable (_ ∨ _))

/-- `monotonic_ms`, by what `clock_gettime` gives, if it succeeds. -/
def monotonicMs : Option Timespec → UInt64
  | none => 0
  | some value => UInt64.ofNat value.sec * 1000 + UInt64.ofNat value.nsec / 1000000

/-- What `print` is called with, the text formatted, and what `dladdr` will say. -/
structure PrintCall where
  text : Bytes
  returnAddress : Ptr
  dladdr : Option DlInfo

/-- How far a thread has got in `print`, and what it has read and taken. -/
inductive Progress (Number : Type) where
  | idle
  | entered (call : PrintCall)
  | begun (call : PrintCall)
  | timed (call : PrintCall) (now origin : UInt64)
  | numbered (call : PrintCall) (now origin : UInt64) (sequence : Number)

/-- A line that has been handed to logcat. -/
structure Line (Number : Type) where
  call : PrintCall
  thread : Int32
  now : UInt64
  origin : UInt64
  sequence : Number

def Line.site {Number : Type} (line : Line Number) : CallSite :=
  ⟨line.now, line.origin, line.thread, line.call.returnAddress, line.call.dladdr⟩

def Line.bytes (line : Line UInt32) : Bytes := print line.sequence line.site line.call.text

/-- `g_sequence`, `g_clock_origin_ms` once `g_clock_once` has run, the threads,
and the log so far. -/
structure LogState (Number : Type) where
  clock : Timespec
  sequence : Number
  origin : Option UInt64
  threads : Int32 → Progress Number
  lines : List (Line Number)

/-- Time passes, or a thread does the next step of `print`; reading the clock may fail. -/
inductive LogEvent where
  | tick (clock : Timespec)
  | call (thread : Int32) (call : PrintCall)
  | clockOnce (thread : Int32) (read : Bool)
  | readClock (thread : Int32) (read : Bool)
  | fetchAdd (thread : Int32)
  | write (thread : Int32)

namespace LogState

variable {Number : Type}

def start [Zero Number] (clock : Timespec) : LogState Number := ⟨clock, 0, none, fun _ => .idle, []⟩

def reading (s : LogState Number) (read : Bool) : UInt64 :=
  monotonicMs (if read then some s.clock else none)

def move (s : LogState Number) (thread : Int32) (progress : Progress Number) : LogState Number :=
  { s with threads := Function.update s.threads thread progress }

/-- `fetch_add` and `pthread_once` are indivisible, the steps of different
threads come in any order. -/
def step [Add Number] [One Number] (s : LogState Number) : LogEvent → Option (LogState Number)
  | .tick clock => if s.clock.Before clock then some { s with clock := clock } else none
  | .call thread call =>
    match s.threads thread with
    | .idle => some (s.move thread (.entered call))
    | _ => none
  | .clockOnce thread read =>
    match s.threads thread with
    | .entered call => some { s.move thread (.begun call) with origin := some (s.origin.getD (s.reading read)) }
    | _ => none
  | .readClock thread read =>
    match s.threads thread with
    | .begun call => some (s.move thread (.timed call (s.reading read) (s.origin.getD 0)))
    | _ => none
  | .fetchAdd thread =>
    match s.threads thread with
    | .timed call now origin =>
      some { s.move thread (.numbered call now origin (s.sequence + 1)) with sequence := s.sequence + 1 }
    | _ => none
  | .write thread =>
    match s.threads thread with
    | .numbered call now origin sequence =>
      some { s.move thread .idle with lines := s.lines ++ [⟨call, thread, now, origin, sequence⟩] }
    | _ => none

end LogState

end Opg3d.Logger
