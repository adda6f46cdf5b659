import Opg3d.Kit.Replace
import Opg3d.Native.Format

namespace Opg3d.Cmake

open Kit

/-- The two files the script patches, by their contents; one that does not
exist has none. -/
structure Sources where
  bytesig : Option Bytes
  shadowhook : Option Bytes
  deriving DecidableEq

/-- What a run leaves: the files, the STATUS messages and the FATAL_ERROR
message that stopped it. -/
structure Run where
  sources : Sources
  status : List String
  fatal : Option String
  deriving DecidableEq

/-- The commands that follow see the files as the ones before left them, and
are not reached after a fatal error. -/
def Run.andThen (run : Run) (next : Sources → Run) : Run :=
  match run.fatal with
  | some _ => run
  | none =>
    let later := next run.sources
    { later with status := run.status ++ later.status }

/-- `string(FIND)`, which gives -1 where there is no occurrence. -/
def find (text needle : Bytes) : Int :=
  match position? needle text with
  | some position => position
  | none => -1

def bytesigSrc : String := "common/bytesig.c"
def bytesigNeedle : String := " | SA_EXPOSE_TAGBITS"

def shadowhookSrc : String := "shadowhook.c"
def linkerMark : String := "OPG3D_LINKER_MOD_DISABLED"
def linkerNeedle : String :=
  "if (__predict_false(0 != sh_linker_init())) GOTO_END(SHADOWHOOK_ERRNO_INIT_LINKER);"
def linkerReplacement : String := "(void)0; /* " ++ linkerMark ++ ": see cmake/patch-shadowhook.cmake */"

/-- The commands of part 1/2; `binaryDir` is `CMAKE_CURRENT_BINARY_DIR`. -/
def patchBytesig (binaryDir : String) (sources : Sources) : Run :=
  match sources.bytesig with
  | none =>
    { sources
      status := []
      fatal := some
        ("patch-shadowhook: " ++ bytesigSrc ++ " not found\n" ++ "Working directory: " ++ binaryDir ++ "\n" ++
          "PATCH_COMMAND was expected to run from shadowhook/src/main/cpp.") }
  | some content =>
    if find content (literal bytesigNeedle) = -1 then
      { sources, status := ["patch-shadowhook: [1/2] SA_EXPOSE_TAGBITS absent — skipping"], fatal := none }
    else
      { sources := { sources with bytesig := some (replaceAll (literal bytesigNeedle) [] content) }
        status := ["patch-shadowhook: [1/2] SA_EXPOSE_TAGBITS removed from " ++ bytesigSrc]
        fatal := none }

/-- The commands of part 2/2. -/
def patchLinker (binaryDir : String) (sources : Sources) : Run :=
  match sources.shadowhook with
  | none =>
    { sources
      status := []
      fatal := some ("patch-shadowhook: " ++ shadowhookSrc ++ " not found\n" ++
        "Working directory: " ++ binaryDir) }
  | some content =>
    if find content (literal linkerNeedle) ≠ -1 then
      { sources :=
          { sources with
            shadowhook := some (replaceAll (literal linkerNeedle) (literal linkerReplacement) content) }
        status := ["patch-shadowhook: [2/2] linker module disabled in " ++ shadowhookSrc]
        fatal := none }
    else if find content (literal linkerMark) ≠ -1 then
      { sources, status := ["patch-shadowhook: [2/2] linker module already disabled — skipping"],
        fatal := none }
    else
      { sources
        status := []
        fatal := some
          ("patch-shadowhook: [2/2] the line to patch was not found in " ++ shadowhookSrc ++ ":\n" ++
            "    " ++ linkerNeedle ++ "\n" ++
            "Upstream has probably changed shadowhook_init(). The build is stopped on\n" ++
            "purpose: without this patch the library builds but silently hooks nothing\n" ++
            "(shadowhook_init -> errno 12, INIT_LINKER).\n" ++
            "Check the SHADOWHOOK_TAG value and the current sh_linker_init() code.") }

/-- The script. -/
def patch (binaryDir : String) (sources : Sources) : Run :=
  ((patchBytesig binaryDir sources).andThen (patchLinker binaryDir)).andThen fun sources =>
    { sources, status := ["patch-shadowhook: done"], fatal := none }

theorem find_eq_iff {text needle : Bytes} : find text needle = -1 ↔ ¬needle <:+: text := by
  rw [← position?_eq_none_iff, find]
  cases position? needle text with
  | none => simp
  | some position =>
    have natural : (position : Int) ≠ -1 := by omega
    simp [natural]

@[simp] theorem Run.andThen_finished (sources : Sources) (status : List String) (next : Sources → Run) :
    (Run.mk sources status none).andThen next = { next sources with status := status ++ (next sources).status } :=
  rfl

@[simp] theorem Run.andThen_fatal (sources : Sources) (status : List String) (text : String)
    (next : Sources → Run) :
    (Run.mk sources status (some text)).andThen next = ⟨sources, status, some text⟩ :=
  rfl

end Opg3d.Cmake
