import Opg3d.Native.Format

namespace Opg3d

/-- Addresses of the armeabi-v7a process; `nullptr` is 0. -/
abbrev Ptr := UInt32

def pointer (p : Ptr) : Arg := .nat p.toNat

namespace Logger

/-- What `dladdr` knows of a code address. -/
structure DlInfo where
  fname : Option Bytes
  fbase : Ptr

/-- What one log call finds out about its surroundings. -/
structure CallSite where
  now : UInt64
  clockOrigin : UInt64
  threadId : Int32
  returnAddress : Ptr
  dladdr : Option DlInfo

def baseName : Option Bytes → Bytes
  | none => literal "?"
  | some [] => literal "?"
  | some path => (path.reverse.takeWhile (· ≠ 47)).reverse

def CallSite.elapsed (site : CallSite) : UInt64 :=
  if site.now ≥ site.clockOrigin then site.now - site.clockOrigin else 0

/-- The return address with the Thumb bit cleared. -/
def CallSite.pc (site : CallSite) : Ptr := site.returnAddress &&& ~~~1

/-- The module `print` names in the header, when it resolves one. -/
def CallSite.module (site : CallSite) : Option DlInfo :=
  site.dladdr.filter fun info => site.pc ≠ 0 ∧ info.fbase ≠ 0

def CallSite.rva (site : CallSite) (info : DlInfo) : Ptr :=
  if site.pc ≥ info.fbase then site.pc - info.fbase else 0

/-- `vsnprintf` and `snprintf` keep what fits the buffer beside the final NUL. -/
def truncate (size : Nat) (bytes : Bytes) : Bytes := bytes.take (size - 1)

/-- The line that `print` hands to logcat for a message text, which has been
formatted and holds no NUL. -/
def print (sequence : UInt32) (site : CallSite) (text : Bytes) : Bytes :=
  let message := truncate 3072 text
  truncate 4096 <| match site.module with
    | some info =>
      printf "[#%06u +%06llums tid=%ld pc=%s+0x%x] %s"
        [.nat sequence.toNat, .nat site.elapsed.toNat, .int site.threadId.toInt, .str (baseName info.fname),
          .nat (site.rva info).toNat, .str message]
    | none =>
      printf "[#%06u +%06llums tid=%ld pc=0x%x] %s"
        [.nat sequence.toNat, .nat site.elapsed.toNat, .int site.threadId.toInt,
          .nat site.pc.toNat, .str message]

end Logger

end Opg3d
