import Mathlib.Data.List.TakeWhile
import Opg3d.LineBounds
import Opg3d.Native.CloudGuard

namespace Opg3d

open Kit Native

/-- The text of a log operation. -/
def NativeOp.line : NativeOp → Option Bytes
  | .log _ text => some text
  | _ => none

/-- Answers of a runtime whose strings are given: integers come from 32-bit
registers, and the string functions are bound. -/
def Told (string : Ptr → List UInt16) : (op : NativeOp) → op.Ans → Prop
  | .apiPtr f, fn => f = .stringLength ∨ f = .stringChars → fn ≠ 0
  | .call _ (.stringLength p), length => length = (string p).length
  | .call _ (.stringChars p), chars => chars = some (string p)
  | .managed _ _ _, word => Word32 word
  | _, _ => True

/-- Surroundings of the library, with the texts of all strings. -/
structure Surroundings (σ : Type) where
  answer : σ → (op : NativeOp) → op.Ans × σ
  string : Ptr → List UInt16
  nulFree : ∀ p, 0 ∉ string p
  short : ∀ p, (string p).length < 2 ^ 31
  told : ∀ s op, Told string op (answer s op).1

namespace Surroundings

/-- The texts that a program hands to `print`, in order. -/
def lines {σ α : Type} (e : Surroundings σ) (p : Native α) (s : σ) : List Bytes :=
  (p.trace e.answer s).filterMap fun entry => entry.op.line

end Surroundings

section Programs

variable {string : Ptr → List UInt16} {α β : Type}

/-- The monitor of a program in such surroundings. -/
def hearing (string : Ptr → List UInt16) (ok : NativeOp → Prop) : Monitor nativeSignature Unit :=
  ⟨fun _ op answer => Told string op answer, fun _ op => ok op, fun _ _ _ => ()⟩

/-- The program logs nothing, and its value has a property. -/
def Silent (string : Ptr → List UInt16) (p : Native α) (value : α → Prop) : Prop :=
  p.wp (hearing string fun op => op.line = none) (fun _ a => value a) ()

/-- Every text the program logs fits the message buffer. -/
def Bounded (string : Ptr → List UInt16) (p : Native α) (value : α → Prop) : Prop :=
  p.wp (hearing string fun op => ∀ text ∈ op.line, text.length ≤ 3071) (fun _ a => value a) ()

namespace Silent

theorem done {value : α → Prop} {a : α} (holds : value a) : Silent string (.done a) value := holds

theorem any {p : Native α} {value : α → Prop} (run : Silent string p value) :
    Silent string p fun _ => True :=
  run.mono fun _ _ _ => trivial

theorem seq {p : Native α} {f : α → Native β} {first : α → Prop} {second : β → Prop}
    (run : Silent string p first) (rest : ∀ a, first a → Silent string (f a) second) :
    Silent string (p >>= f) second :=
  run.bind fun _ a holds => rest a holds

theorem ite {c : Prop} [Decidable c] {p q : Native α} {value : α → Prop} (yes : c → Silent string p value)
    (no : ¬c → Silent string q value) : Silent string (if c then p else q) value :=
  Prog.wp.ite yes no

theorem perform {op : NativeOp} (quiet : op.line = none) :
    Silent string (Prog.ask op .done) (Told string op) :=
  ⟨quiet, fun _ told => told⟩

theorem api (request : ApiCall) : Silent string (Native.api request) fun result =>
    ∃ fn, Told string (.call fn request) result :=
  ⟨rfl, fun fn _ => ⟨rfl, fun _ told => ⟨fn, told⟩⟩⟩

theorem anyNull (fs : List Api) : Silent string (Native.anyNull fs) fun unbound =>
    (∀ f ∈ fs, f = .stringLength ∨ f = .stringChars) → unbound = false := by
  induction fs with
  | nil => exact done fun _ => rfl
  | cons f rest ih =>
    refine (perform rfl).seq fun fn told => ite (fun null => done fun all => ?_) fun _ => ?_
    · exact absurd null (told (all f (List.mem_cons_self ..)))
    · exact ih.mono fun _ _ holds all => holds fun g member => all g (List.mem_cons_of_mem _ member)

theorem quiet {op : NativeOp} (none : op.line = none) :
    Silent string (Prog.ask op .done : Native op.Ans) fun _ => True :=
  (perform none).any

theorem loadedAssemblies : Silent string Il2cpp.loadedAssemblies fun _ => True := by
  refine (api _).seq fun domain _ => ite (fun _ => done trivial) fun _ => (api _).seq fun assemblies _ => ?_
  cases assemblies.array with
  | none => exact done trivial
  | some entries => exact ite (fun _ => done trivial) fun _ => done trivial

theorem findClassIn (namespaze name : String) (assemblies : List Ptr) :
    Silent string (Il2cpp.findClassIn namespaze name assemblies) fun _ => True := by
  induction assemblies with
  | nil => exact done trivial
  | cons assembly rest ih =>
    refine ite (fun _ => ih) fun _ => (api _).seq fun image _ => ite (fun _ => ih) fun _ => ?_
    exact (api _).seq fun klass _ => ite (fun _ => done trivial) fun _ => ih

theorem findClass (namespaze name : String) :
    Silent string (Il2cpp.findClass namespaze name) fun _ => True :=
  (anyNull _).seq fun _ _ => ite (fun _ => done trivial) fun _ =>
    loadedAssemblies.seq fun _ _ => findClassIn ..

theorem findMethodInfo (namespaze klass method : String) (argsCount : Int) :
    Silent string (Il2cpp.findMethodInfo namespaze klass method argsCount) fun _ => True :=
  (anyNull _).seq fun _ _ => ite (fun _ => done trivial) fun _ => (findClass ..).seq fun _ _ =>
    ite (fun _ => done trivial) fun _ => (api _).any

theorem findField (namespaze klass field : String) :
    Silent string (Il2cpp.findField namespaze klass field) fun _ => True :=
  (anyNull _).seq fun _ _ => ite (fun _ => done trivial) fun _ => (findClass ..).seq fun _ _ =>
    ite (fun _ => done trivial) fun _ => (api _).any

theorem methodPointer (info : Ptr) : Silent string (Il2cpp.methodPointer info) fun _ => True :=
  ite (fun _ => done trivial) fun _ => quiet rfl

theorem cacheField (cell : Static) (klass field : String) :
    Silent string (cacheField cell klass field) fun _ => True :=
  (quiet rfl).seq fun _ _ => ite (fun _ => (findField ..).seq fun _ _ => quiet rfl) fun _ => done trivial

theorem staticObject (cell : Static) : Silent string (staticObject cell) fun _ => True :=
  (quiet rfl).seq fun _ _ => ite (fun _ => done trivial) fun _ => (api _).any

theorem lookupCached (fnCell methodCell : Static) (target : HookEngine.ManagedMethod) :
    Silent string (lookupCached fnCell methodCell target) fun _ => True := by
  refine (quiet rfl).seq fun _ _ => ite (fun _ => ?_) fun _ => quiet rfl
  exact (findMethodInfo ..).seq fun _ _ => (quiet rfl).seq fun _ _ => (methodPointer _).seq fun _ _ =>
    (quiet rfl).seq fun _ _ => quiet rfl

theorem readField (object : Ptr) (name : String) (size : Nat) :
    Silent string (readField object name size) fun bytes => ∀ b ∈ bytes, b.length ≤ size := by
  refine ite (fun _ => done nofun) fun _ => (anyNull _).seq fun _ _ => ite (fun _ => done nofun) fun _ => ?_
  refine (api _).seq fun klass _ => ite (fun _ => done nofun) fun _ => ?_
  refine (api _).seq fun field _ => ite (fun _ => done nofun) fun _ => (api _).seq fun copied _ => done ?_
  rintro b ⟨⟩
  exact List.length_take_le _ _

theorem readRef (object : Ptr) (name : String) : Silent string (readRef object name) fun _ => True :=
  (readField ..).seq fun _ _ => done trivial

theorem readBool (object : Ptr) (name : String) : Silent string (readBool object name) fun _ => True :=
  (readField ..).seq fun _ _ => done trivial

theorem readInt32 (object : Ptr) (name : String) :
    Silent string (readInt32 object name) fun i => ∀ j ∈ i, Word32 j := by
  refine (readField ..).seq fun bytes short => done ?_
  intro j member
  obtain ⟨b, given, rfl⟩ := Option.map_eq_some_iff.mp member
  have fits : leNat b < 2 ^ 32 := (leNat_lt b).trans_le (Nat.pow_le_pow_right (by decide) (short b given))
  unfold int32OfBytes signedOf Word32
  split_ifs <;> omega

/-- A conversion has a length that goes by its cap; its value is that of the string. -/
theorem toUtf8 (p : Ptr) (cap : Nat) : Silent string (Il2cpp.toUtf8 p cap) fun bytes =>
    bytes = if p = 0 then literal "<null>" else Il2cpp.convertCapped (string p) (string p).length cap := by
  refine ite (fun null => done (if_pos null).symm) fun present => ?_
  rw [if_neg present]
  refine (anyNull _).seq fun unbound bound => ite (fun missing => ?_) fun _ => ?_
  · exact absurd (bound (by simp)) (by simp [missing])
  refine (api _).seq fun length told => ite (fun empty => done ?_) fun _ =>
    (api _).seq fun chars told' => ?_
  · obtain ⟨_, rfl⟩ : ∃ _, length = ((string p).length : Int) := told
    have none : string p = [] := List.length_eq_zero_iff.mp (by omega)
    rw [none]
    rfl
  · obtain ⟨_, rfl⟩ : ∃ _, length = ((string p).length : Int) := told
    obtain ⟨_, rfl⟩ : ∃ _, chars = some (string p) := told'
    exact done (by rw [Int.toNat_natCast])

theorem bounded {p : Native α} {value : α → Prop} (run : Silent string p value) :
    Bounded string p value := by
  unfold Silent Bounded at *
  induction p with
  | done a => exact run
  | ask op next ih =>
    obtain ⟨quiet, rest⟩ := run
    refine ⟨fun text logged => ?_, fun answer told => ih answer (rest answer told)⟩
    have none : op.line = none := quiet
    rw [none] at logged
    exact nomatch logged

theorem connectionState : Silent string Photon.connectionState Word32 := by
  refine (lookupCached ..).seq fun fn _ => ite (fun _ => done (by decide)) fun _ => ?_
  exact (quiet rfl).seq fun method _ => perform rfl

theorem toUtf8_le (p : Ptr) {cap : Nat} (wide : 8 ≤ cap) : Silent string (Il2cpp.toUtf8 p cap) fun bytes =>
    bytes.length ≤ 3 * cap + 3 := by
  refine (toUtf8 p cap).mono ?_
  rintro _ _ rfl
  split_ifs
  · have null : (literal "<null>").length = 6 := by decide
    omega
  · exact Il2cpp.length_convertCapped_le ..

theorem serverAddress : Silent string Photon.serverAddress fun bytes => bytes.length ≤ 771 := by
  refine (lookupCached ..).seq fun fn _ => ite (fun _ => done (by decide)) fun _ => ?_
  exact (quiet rfl).seq fun method _ => (quiet rfl).seq fun address _ => toUtf8_le _ (by decide)

theorem stringLengthOr (short : ∀ p, (string p).length < 2 ^ 31) {fallback : Int}
    (word : Word32 fallback) (p : Ptr) : Silent string (Photon.stringLengthOr fallback p) Word32 := by
  refine (quiet rfl).seq fun fn _ => ite (fun _ => done word) fun _ => (api _).mono ?_
  rintro _ length ⟨_, told⟩
  obtain rfl : length = ((string p).length : Int) := told
  have := short p
  exact ⟨by omega, by omega⟩

theorem secretSummary (p : Ptr) :
    Silent string (Photon.secretSummary p) fun bytes => bytes.length ≤ 127 := by
  have chars : Silent string (Photon.stringLengthOr (-1) p) fun _ => True :=
    (quiet rfl).seq fun fn _ => ite (fun _ => done trivial) fun _ => (api _).any
  refine ite (fun _ => done (by decide)) fun _ => (toUtf8 p 256).seq fun text _ => ?_
  exact chars.seq fun _ _ => done (List.length_take_le _ _)

theorem lengthOrZero (short : ∀ p, (string p).length < 2 ^ 31) (p : Option Ptr) :
    Silent string (Photon.lengthOrZero p) Word32 := by
  cases p with
  | none => exact done (by decide)
  | some p => exact ite (fun _ => done (by decide)) fun _ => stringLengthOr short (by decide) p

end Silent

namespace Bounded

theorem done {value : α → Prop} {a : α} (holds : value a) : Bounded string (.done a) value := holds

theorem seq {p : Native α} {f : α → Native β} {first : α → Prop} {second : β → Prop}
    (run : Bounded string p first) (rest : ∀ a, first a → Bounded string (f a) second) :
    Bounded string (p >>= f) second :=
  run.bind fun _ a holds => rest a holds

/-- Behind a part that logs nothing. -/
theorem behind {p : Native α} {f : α → Native β} {first : α → Prop} {second : β → Prop}
    (run : Silent string p first) (rest : ∀ a, first a → Bounded string (f a) second) :
    Bounded string (p >>= f) second :=
  run.bounded.seq rest

theorem ite {c : Prop} [Decidable c] {p q : Native α} {value : α → Prop} (yes : c → Bounded string p value)
    (no : ¬c → Bounded string q value) : Bounded string (if c then p else q) value :=
  Prog.wp.ite yes no

/-- A line whose arguments keep to the bounds for which its format fits. -/
theorem log {priority : Priority} {format : String} {args : List Arg} {sizes : List Nat}
    (within : List.Forall₂ Arg.Within sizes args) (fits : formatBound none format.toList sizes ≤ 3071) :
    Bounded string (Native.log priority format args) fun _ => True := by
  refine ⟨fun text logged => ?_, fun _ _ => trivial⟩
  obtain rfl : printf format (args.map Arg.read) = text := Option.some.inj logged
  exact length_printf_le (within_read within) fits

theorem callOriginal (hook : Hook) (args : List Word) :
    Bounded string (Native.callOriginal hook args) fun _ => True :=
  Silent.bounded ⟨rfl, fun _ _ => ⟨rfl, fun _ _ => trivial⟩⟩

theorem within_text {s : String} {size : Nat} (bound : (literal s).length ≤ size) :
    (Photon.text s).Within size :=
  bound

theorem within_ofBool (b : Bool) : (Photon.ofBool b).Within 1 := by
  cases b <;> decide

theorem within_option {i : Option Int} (word : ∀ j ∈ i, Word32 j) : (Arg.int (i.getD (-1))).Within 11 := by
  cases i with
  | none => exact Word32.within (by decide)
  | some j => exact Word32.within (word j rfl)

theorem within_hosting (host : Int) : (Photon.text (Photon.hostingName host)).Within 11 := by
  unfold Photon.hostingName
  split <;> decide

theorem within_protocol (protocol : Int) : (Photon.text (Photon.protocolName protocol)).Within 15 := by
  unfold Photon.protocolName
  split <;> decide

theorem within_level (level : Int) : (Photon.text (Photon.debugLevelName level)).Within 7 := by
  unfold Photon.debugLevelName
  split <;> decide

theorem logSettings {point : String} (short : (literal point).length ≤ 64) (settings : Ptr) :
    Bounded string (Photon.logSettings point settings) fun _ => True := by
  refine ite (fun _ => log (.cons (within_text short) .nil) (by decide)) fun _ => ?_
  refine behind (Silent.readInt32 ..) fun host host32 =>
    behind (Silent.readInt32 ..) fun protocol protocol32 => ?_
  refine behind (Silent.readRef ..) fun address _ => behind (Silent.readInt32 ..) fun port port32 => ?_
  refine behind (Silent.readRef ..) fun appId _ => behind (Silent.readInt32 ..) fun region region32 => ?_
  refine behind (Silent.readInt32 ..) fun regions _ => behind (Silent.readBool ..) fun joinLobby _ => ?_
  refine behind (Silent.readBool ..) fun lobbyStats _ => ?_
  refine behind (Silent.toUtf8_le _ (by decide)) fun server server' =>
    behind (Silent.secretSummary _) fun app app' => ?_
  have flags : (regions.getD (-1) % 2 ^ 32).toNat < 2 ^ 32 := by omega
  refine log (.cons (within_text short) (.cons (within_option host32)
    (.cons (within_hosting _) (.cons (within_option protocol32)
    (.cons (within_protocol _) (.cons (within_str server') (.cons (within_option port32) (.cons (within_str app')
    (.cons (within_option region32) (.cons (within_nat flags) (.cons (within_ofBool _) (.cons (within_ofBool _)
    .nil)))))))))))) (by decide +kernel)

theorem logAuthSnapshot (shortStrings : ∀ p, (string p).length < 2 ^ 31) {point : String}
    (short : (literal point).length ≤ 64) :
    Bounded string (Photon.logAuthSnapshot point) fun _ => True := by
  refine behind (Silent.lookupCached ..) fun fn _ =>
    ite (fun _ => log (.cons (within_text short) .nil) (by decide)) fun _ => ?_
  refine behind (Silent.quiet rfl) fun method _ => behind (Silent.quiet rfl) fun auth _ => ?_
  refine ite (fun _ => log (.cons (within_text short) .nil) (by decide)) fun _ => ?_
  refine behind (Silent.readInt32 ..) fun type type32 => behind (Silent.readRef ..) fun token _ => ?_
  refine behind (Silent.readRef ..) fun userId _ =>
    behind (Silent.lengthOrZero shortStrings _) fun tokenLen tokenLen32 => ?_
  refine behind (Silent.lengthOrZero shortStrings _) fun userLen userLen32 => ?_
  have mark : (Photon.text (if type.isSome then "" else "?")).Within 1 := by split_ifs <;> decide
  have set (p : Option Ptr) : (Photon.text (if p.getD 0 ≠ 0 then "set" else "null")).Within 4 := by
    split_ifs <;> decide
  exact log (.cons (within_text short) (.cons (within_nat (UInt32.toNat_lt _))
    (.cons mark (.cons (within_option type32)
    (.cons (set token) (.cons tokenLen32.within (.cons (set userId) (.cons userLen32.within .nil))))))))
      (by decide +kernel)

theorem enableVerbosePhotonLogs : Bounded string Photon.enableVerbosePhotonLogs fun _ => True := by
  have raise : Silent string Photon.raiseLogLevel fun _ => True :=
    (Silent.quiet rfl).seq fun field _ => Silent.ite (fun _ => (Silent.api _).any) fun _ =>
      Silent.done trivial
  refine behind (Silent.cacheField ..) fun _ _ => behind raise fun _ _ =>
    behind (Silent.cacheField ..) fun _ _ => ?_
  refine behind (Silent.staticObject _) fun peer _ => behind (Silent.lookupCached ..) fun setDebug _ => ?_
  refine ite (fun _ => ?_) fun _ => done trivial
  refine behind (Silent.quiet rfl) fun method _ => behind (Silent.quiet rfl) fun _ _ =>
    behind (Silent.quiet rfl) fun logged _ => ?_
  exact ite (fun _ => log .nil (by decide)) fun _ => done trivial

theorem hookUseMyServer (self address appId method : Ptr) {port : Int} (port32 : Word32 port) :
    Bounded string (Photon.hookUseMyServer self address port appId method) fun _ => True := by
  refine behind (Silent.toUtf8_le _ (by decide)) fun host host' =>
    behind (Silent.secretSummary _) fun summary summary' => ?_
  refine (log (.cons (within_str host') (.cons port32.within (.cons (within_str summary') .nil)))
    (by decide +kernel)).seq fun _ _ => ?_
  exact (callOriginal ..).seq fun _ _ => (logSettings (by decide) _).seq fun _ _ => done trivial

theorem currentServerSettings : Silent string Photon.currentServerSettings fun _ => True :=
  (Silent.cacheField ..).seq fun _ _ => Silent.staticObject _

/-- The line both connect hooks close with, of either format. -/
theorem logConnectEnd {message : String} (fits : formatBound none message.toList [1, 11, 771] ≤ 3071)
    (result : Word) : Bounded string (Photon.logConnectEnd message result) fun _ => True :=
  behind Silent.connectionState fun _ state => behind Silent.serverAddress fun _ server =>
    log (.cons (within_ofBool _) (.cons state.within (.cons (within_str server) .nil))) fits

theorem hookConnectUsingSettings (short : ∀ p, (string p).length < 2 ^ 31) (gameVersion method : Ptr) :
    Bounded string (Photon.hookConnectUsingSettings gameVersion method) fun _ => True := by
  refine enableVerbosePhotonLogs.seq fun _ _ => behind (Silent.toUtf8_le _ (by decide)) fun version version' => ?_
  refine behind Silent.connectionState fun _ state => behind Silent.serverAddress fun _ server => ?_
  refine (log (.cons (within_str version') (.cons state.within (.cons (within_str server) .nil)))
    (by decide +kernel)).seq fun _ _ => ?_
  refine behind currentServerSettings fun _ _ => (logSettings (by decide) _).seq fun _ _ => ?_
  refine (logAuthSnapshot short (by decide)).seq fun _ _ => (callOriginal ..).seq fun result _ => ?_
  exact (logConnectEnd (by decide +kernel) result).seq fun _ _ => done trivial

theorem hookConnectToMaster (short : ∀ p, (string p).length < 2 ^ 31)
    (address appId gameVersion method : Ptr) {port : Int} (port32 : Word32 port) :
    Bounded string (Photon.hookConnectToMaster address port appId gameVersion method) fun _ => True := by
  refine enableVerbosePhotonLogs.seq fun _ _ => behind (Silent.toUtf8_le _ (by decide)) fun host host' => ?_
  refine behind (Silent.toUtf8_le _ (by decide)) fun version version' =>
    behind (Silent.secretSummary _) fun app app' => ?_
  refine behind Silent.connectionState fun _ state => ?_
  refine (log (.cons (within_str host') (.cons port32.within (.cons (within_str version') (.cons (within_str app')
    (.cons state.within .nil))))) (by decide +kernel)).seq fun _ _ => ?_
  refine (logAuthSnapshot short (by decide)).seq fun _ _ => (callOriginal ..).seq fun result _ => ?_
  exact (logConnectEnd (by decide +kernel) result).seq fun _ _ => done trivial

theorem hookOnOperationResponse (self response method : Ptr) :
    Bounded string (Photon.hookOnOperationResponse self response method) fun _ => True := by
  refine behind (Silent.readField ..) fun operation operation' =>
    behind (Silent.readField ..) fun code code' => ?_
  refine behind (Silent.readRef ..) fun message _ =>
    behind (Silent.toUtf8_le _ (by decide)) fun debug debug' => ?_
  have mark (present : Bool) : (Photon.markMissing present).Within 1 := by cases present <;> decide
  have number : (Arg.nat (leNat (operation.getD []))).Within 10 := by
    cases operation with
    | none => decide
    | some bytes =>
      have fits := (leNat_lt bytes).trans_le (Nat.pow_le_pow_right (by decide) (operation' bytes rfl))
      exact within_nat (fits.trans (by decide))
  have returned : (Arg.int (int16OfBytes (code.getD []))).Within 11 := by
    cases code with
    | none => decide
    | some bytes =>
      have fits : leNat bytes < 65536 := (leNat_lt bytes).trans_le
        (Nat.pow_le_pow_right (by decide) (code' bytes rfl))
      refine Word32.within ?_
      show Word32 (signedOf 16 (leNat bytes))
      unfold signedOf Word32
      split_ifs <;> omega
  have rest : Bounded string (do
      let _ ← Native.callOriginal .onOperationResponse [Ptr.word self, Ptr.word response, Ptr.word method]
      return (0 : Word)) fun _ => True := (callOriginal ..).seq fun _ _ => done trivial
  refine Bounded.ite (fun _ => ?_) fun _ => ?_
  · refine (log (.cons (mark _) (.cons number (.cons returned (.cons (within_str debug') .nil))))
      (by decide +kernel)).seq ?_
    exact fun _ _ => rest
  · refine (log (.cons (mark _) (.cons number (.cons (mark _) (.cons returned (.cons (within_str debug') .nil)))))
      (by decide +kernel)).seq ?_
    exact fun _ _ => rest

end Bounded

end Programs

namespace Surroundings

variable {σ α β : Type} (e : Surroundings σ)

theorem follows (ok : NativeOp → Prop) (s : σ) (op : NativeOp) :
    (hearing e.string ok).allow () op (e.answer s op).1 ∧
      () = (hearing e.string ok).next () op (e.answer s op).1 :=
  ⟨e.told s op, rfl⟩

theorem silent_eval {p : Native α} {value : α → Prop} (run : Silent e.string p value) (s : σ) :
    value (p.eval e.answer s).1 :=
  run.eval (fun _ => ()) (e.follows _)

theorem silent_lines {p : Native α} {value : α → Prop} (run : Silent e.string p value) (s : σ) :
    e.lines p s = [] := by
  refine List.filterMap_eq_nil_iff.mpr fun entry member => ?_
  exact run.trace (fun _ => ()) (e.follows _) entry member

theorem bounded_lines {p : Native α} {value : α → Prop} (run : Bounded e.string p value) (s : σ) :
    ∀ line ∈ e.lines p s, line.length ≤ 3071 := by
  intro line member
  obtain ⟨entry, performed, logged⟩ := List.mem_filterMap.mp member
  exact run.trace (fun _ => ()) (e.follows _) entry performed line logged

/-- What the hooks make of a managed string. -/
def converted (string : Ptr → List UInt16) (p : Ptr) (cap : Nat) : Bytes :=
  if p = 0 then literal "<null>" else Il2cpp.convertCapped (string p) (string p).length cap

theorem converted_nulFree {string : Ptr → List UInt16} (nulFree : ∀ p, 0 ∉ string p) (p : Ptr) (cap : Nat) :
    0 ∉ converted string p cap := by
  unfold converted
  split_ifs
  · decide
  · exact Il2cpp.nulFree_convertCapped (nulFree p) _ _

theorem debugLevelName_nulFree (level : Int) : 0 ∉ literal (Photon.debugLevelName level) := by
  unfold Photon.debugLevelName
  split <;> decide

theorem read_str {bytes : Bytes} (nulFree : 0 ∉ bytes) : (Arg.str bytes).read = .str bytes := by
  have whole : bytes.takeWhile (· ≠ 0) = bytes :=
    List.takeWhile_eq_self_iff.mpr fun b member => decide_eq_true fun nul => nulFree (nul ▸ member)
  rw [Arg.read, whole]

theorem lines_debugReturn (s : σ) (self : Ptr) (level : Int) (message method : Ptr) :
    e.lines (Photon.hookDebugReturn self level message method) s =
      [printf "photon[%s/%d]: %s" [Photon.text (Photon.debugLevelName level), .int level,
        .str (converted e.string message 1024)]] := by
  have run := @Silent.toUtf8 e.string message 1024
  have text : ((Il2cpp.toUtf8 message 1024).eval e.answer s).1 = converted e.string message 1024 :=
    e.silent_eval run s
  have quiet : ((Il2cpp.toUtf8 message 1024).trace e.answer s).filterMap
    (fun entry => entry.op.line) = [] := e.silent_lines run s
  unfold lines Photon.hookDebugReturn
  have args : [Photon.text (Photon.debugLevelName level), .int level,
      .str (converted e.string message 1024)].map Arg.read =
      [Photon.text (Photon.debugLevelName level), .int level, .str (converted e.string message 1024)] := by
    rw [List.map_cons, List.map_cons, List.map_singleton, Photon.text,
      read_str (debugLevelName_nulFree level),
      read_str (converted_nulFree e.nulFree message 1024)]
    rfl
  rw [Prog.bind_eq, Prog.trace_bind, List.filterMap_append, quiet, text]
  exact congrArg (fun shown => [printf "photon[%s/%d]: %s" shown]) args

theorem length_debugLine (level : Int) (text : Bytes) :
    (printf "photon[%s/%d]: %s" [Photon.text (Photon.debugLevelName level), .int level, .str text]).length =
      11 + (literal (Photon.debugLevelName level)).length + (signedDecimal level).length + text.length := by
  have format : printf "photon[%s/%d]: %s" [Photon.text (Photon.debugLevelName level),
      .int level, .str text] =
      literal "photon[" ++ literal (Photon.debugLevelName level) ++ literal "/" ++ signedDecimal level ++
        literal "]: " ++ text := by
    simp [printf, formatFrom, convert, literal, Photon.text]
  have fixed : (literal "photon[").length = 7 ∧ (literal "/").length = 1 ∧
    (literal "]: ").length = 3 := by decide
  rw [format]
  simp only [List.length_append, fixed]
  omega

/-- The message of `DebugReturn` leaves room for what stands before it. -/
def DebugFits (string : Ptr → List UInt16) (level : Int) (message : Ptr) : Prop :=
  message = 0 ∨ Il2cpp.cappedWidth (string message) 1024 + (literal (Photon.debugLevelName level)).length +
    (signedDecimal level).length ≤ 3060

theorem debugReturn_iff (s : σ) (self : Ptr) {level : Int} (word : Word32 level) (message method : Ptr) :
    (∀ line ∈ e.lines (Photon.hookDebugReturn self level message method) s, Logger.Uncut line) ↔
      DebugFits e.string level message := by
  rw [lines_debugReturn, List.forall_mem_singleton, Logger.uncut_iff, length_debugLine]
  by_cases null : message = 0
  · have name : (literal (Photon.debugLevelName level)).length ≤ 7 := Bounded.within_level level
    have digits : (signedDecimal level).length ≤ 11 := word.within
    have text : (converted e.string message 1024).length = 6 := by
      rw [converted, if_pos null]
      decide
    exact ⟨fun _ => .inl null, fun _ => by omega⟩
  · have text : (converted e.string message 1024).length = Il2cpp.cappedWidth (e.string message) 1024 := by
      rw [converted, if_neg null, Il2cpp.length_convertCapped]
    rw [text, DebugFits, or_iff_right null]
    omega

/-- The hooks that log converted strings. -/
def stringHooks : List Hook :=
  [.debugReturn, .onOperationResponse, .connectToMaster, .connectUsingSettings, .useMyServer]

/-- The places from which `log_settings` is called. -/
def settingsPoints : List String :=
  ["SetUpPhoton/end", "UseCloud/end", "UseCloudBestRegion/end", "UseCloud(region)/end", "UseMyServer/end",
    "ConnectUsingSettings/before"]

theorem word_getD {args : List Word} (words : ∀ word ∈ args, Word32 word) (i : Nat) :
    Word32 (args.getD i 0) := by
  rw [List.getD_eq_getElem?_getD]
  cases at_ : args[i]? with
  | none => exact (by decide : Word32 0)
  | some word => exact words word (List.mem_of_getElem? at_)

/-- Whatever the strings and the integers are, `print` cuts no text that these
hooks log, except in `DebugReturn` with a message that does not fit. -/
theorem uncut_lines_iff (s : σ) (build : Build) {args : List Word} (words : ∀ word ∈ args, Word32 word) :
    (∀ hook ∈ stringHooks, (∀ line ∈ e.lines (hook.proxy build args) s, Logger.Uncut line) ↔
      (hook = .debugReturn → DebugFits e.string (args.getD 1 0) (Word.ptr (args.getD 2 0)))) ∧
    ∀ point ∈ settingsPoints, ∀ settings, ∀ line ∈ e.lines (Photon.logSettings point settings) s,
      Logger.Uncut line := by
  have uncut {p : Native Word} (run : Bounded e.string p fun _ => True) {P : Prop} (other : ¬P) (Q : Prop) :
      (∀ line ∈ e.lines p s, Logger.Uncut line) ↔ (P → Q) :=
    iff_of_true (fun line member => (Logger.uncut_iff line).mpr
      (e.bounded_lines run s line member)) fun same => absurd same other
  constructor
  · intro hook member
    simp only [stringHooks, List.mem_cons, List.not_mem_nil, or_false] at member
    rcases member with rfl | rfl | rfl | rfl | rfl
    · exact (e.debugReturn_iff s _ (word_getD words 1) _ _).trans (by simp)
    · exact uncut (Bounded.hookOnOperationResponse ..) nofun _
    · exact uncut (Bounded.hookConnectToMaster e.short _ _ _ _ (word_getD words 1)) nofun _
    · exact uncut (Bounded.hookConnectUsingSettings e.short _ _) nofun _
    · exact uncut (Bounded.hookUseMyServer _ _ _ _ (word_getD words 2)) nofun _
  · intro point member settings line logged
    have short : ∀ p ∈ settingsPoints, (literal p).length ≤ 64 := by decide
    exact (Logger.uncut_iff line).mpr (e.bounded_lines
      (Bounded.logSettings (short point member) settings) s line logged)

/-- The string 32 repeats one character of three bytes. -/
def repeated (n : Nat) (p : Ptr) : List UInt16 := if p = 32 then List.replicate n 0x4E2D else []

def repeating (n : Nat) (short : n < 2 ^ 31) : Surroundings Unit where
  answer _
    | .apiPtr _ => ((1 : Ptr), ())
    | .call _ (.stringLength p) => (((repeated n p).length : Int), ())
    | .call _ (.stringChars p) => (some (repeated n p), ())
    | op => (op.nothing, ())
  string := repeated n
  nulFree p := by
    unfold repeated
    split_ifs
    · exact fun member => absurd (List.eq_of_mem_replicate member) (by decide)
    · exact List.not_mem_nil
  short p := by
    unfold repeated
    split_ifs
    · rwa [List.length_replicate]
    · decide
  told s op := by
    cases op with
    | call fn request =>
      cases request with
      | stringLength p => exact rfl
      | stringChars p => exact rfl
      | _ => trivial
    | apiPtr f => exact fun _ => (by decide : (1 : Ptr) ≠ 0)
    | managed => exact (by decide : Word32 0)
    | _ => trivial

theorem useMyServer_uncut : List.Forall Logger.Uncut ((repeating 2000 (by decide)).lines
    (Hook.proxy ⟨false, [], [], 0⟩ .useMyServer [16, 32, 5055, 32, 0]) ()) := by
  have words : ∀ word ∈ [16, 32, 5055, 32, 0], Word32 word := by decide
  refine List.forall_iff_forall_mem.mpr ?_
  exact (((repeating 2000 (by decide)).uncut_lines_iff ()
    ⟨false, [], [], 0⟩ words).1 .useMyServer (by decide)).mpr nofun

/-- A message of 1024 such characters takes the whole buffer, and its line is cut. -/
theorem debugReturn_cut : ¬∀ line ∈ (repeating 1024 (by decide)).lines
    (Hook.proxy ⟨false, [], [], 0⟩ .debugReturn [16, 1, 32, 0]) (), Logger.Uncut line := by
  intro uncut
  have word : Word32 1 := by decide
  have fits : DebugFits (repeating 1024 (by decide)).string 1 32 :=
    (debugReturn_iff _ () 16 word 32 0).mp uncut
  rcases fits with null | room
  · exact absurd null (by decide)
  · exact absurd room (by decide +kernel)

end Surroundings

end Opg3d
