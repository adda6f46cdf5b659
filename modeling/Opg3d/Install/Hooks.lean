import Opg3d.Install.Core
import Opg3d.Lockstep.Proxies

namespace Opg3d.Core

open Kit Native HookEngine

variable {metadata : Option Metadata}

/-- Between two installs, once the exports are bound. -/
structure Ready (c : Core) : Prop where
  bound : c.Bound
  coherent : c.Coherent
  idle : c.installing = false

/-- Nothing has changed for the hooks outside a list. -/
def KeptBut (hooks : List Hook) (c d : Core) : Prop :=
  ∀ hook, hook ∉ hooks → d.slot hook = c.slot hook ∧ ∀ address, d.patched address = some hook ↔
    c.patched address = some hook

theorem KeptBut.refl (hooks : List Hook) (c : Core) : KeptBut hooks c c :=
  fun _ _ => ⟨rfl, fun _ => Iff.rfl⟩

theorem KeptBut.trans {hooks others : List Hook} {c d e : Core} (first : KeptBut hooks c d)
    (second : KeptBut others d e) : KeptBut (hooks ++ others) c e := by
  intro hook outside
  obtain ⟨notHere, notThere⟩ := not_or.mp (mt List.mem_append.mpr outside)
  obtain ⟨slot, patched⟩ := first hook notHere
  obtain ⟨slot', patched'⟩ := second hook notThere
  exact ⟨slot'.trans slot, fun address => (patched' address).trans (patched address)⟩

theorem KeptBut.unpatched {hooks : List Hook} {c d : Core} (kept : KeptBut hooks c d) {hook : Hook}
    (outside : hook ∉ hooks) (free : c.Unpatched hook) : d.Unpatched hook :=
  fun address carried => free address (((kept hook outside).2 address).mp carried)

/-- The hook is in place at the code of its target. -/
def PlacedAt (metadata : Option Metadata) (target : ManagedMethod) (hook : Hook) (c : Core) : Prop :=
  ∃ address, c.patched address = some hook ∧ ∀ m ∈ metadata, address = m.codeOf target

/-- Wherever the hook is in place, it is at the code of its target. -/
def Located (metadata : Option Metadata) (target : ManagedMethod) (hook : Hook) (c : Core) : Prop :=
  ∀ address, c.patched address = some hook → address ≠ 0 ∧ ∀ m ∈ metadata, address = m.codeOf target

/-- What an install of a hook that was nowhere in place comes to: the hook is
in place exactly if the install reports success, at the code of its target,
where no hook was before. -/
structure Placement (metadata : Option Metadata) (target : ManagedMethod) (hook : Hook) (c d : Core)
    (installed : Bool) : Prop where
  placed : installed = true ↔ ¬d.Unpatched hook
  located : Located metadata target hook d
  clean : ∀ address, d.patched address = some hook → c.patched address = none

theorem KeptBut.located {hooks : List Hook} {c d : Core} (kept : KeptBut hooks c d)
    {target : ManagedMethod} {hook : Hook} (outside : hook ∉ hooks)
    (located : Located metadata target hook c) : Located metadata target hook d :=
  fun address carried => located address (((kept hook outside).2 address).mp carried)

theorem KeptBut.unpatched_iff {hooks : List Hook} {c d : Core} (kept : KeptBut hooks c d) {hook : Hook}
    (outside : hook ∉ hooks) : d.Unpatched hook ↔ c.Unpatched hook :=
  forall_congr' fun address => not_congr ((kept hook outside).2 address)

/-- An install that leaves its hook nowhere in place. -/
theorem Placement.failed {target : ManagedMethod} {hook : Hook} {c d : Core} (free : d.Unpatched hook) :
    Placement metadata target hook c d false :=
  ⟨⟨nofun, fun placed => absurd free placed⟩, fun address carried => absurd carried (free address),
    fun address carried => absurd carried (free address)⟩

theorem KeptBut.setSlot (c : Core) (hook : Hook) (trampoline : Option Ptr) :
    KeptBut [hook] c { c with slot := Function.update c.slot hook trampoline } := by
  intro other outside
  exact ⟨Function.update_of_ne (by simpa using outside) _ _, fun _ => Iff.rfl⟩

theorem KeptBut.hooked {c : Core} {address : Ptr} (clean : c.patched address = none) (hook : Hook)
    (answer : HookAnswer) : KeptBut [hook] c (c.hooked address hook hook answer) := by
  intro other outside
  have different : other ≠ hook := by simpa using outside
  refine ⟨Function.update_of_ne different _ _, fun site => ?_⟩
  by_cases here : site = address
  · subst here
    simp [Core.hooked, clean, different.symm]
  · simp [Core.hooked, here]

theorem KeptBut.unhooked {c : Core} {address : Ptr} {hook : Hook}
    (carried : c.patched address = some hook) :
    KeptBut [hook] c { c with patched := Function.update c.patched address none } := by
  intro other outside
  have different : other ≠ hook := by simpa using outside
  refine ⟨rfl, fun site => ?_⟩
  by_cases here : site = address
  · subst here
    simp [carried, different.symm]
  · simp [here]

/-- Steps that concern one hook add up to a step that concerns it. -/
theorem KeptBut.again {hook : Hook} {c d e : Core} (first : KeptBut [hook] c d)
    (second : KeptBut [hook] d e) : KeptBut [hook] c e := by
  intro other outside
  exact (first.trans second) other (by simpa using outside)

/-- A step that changes nothing is passed over. -/
theorem wp_seq {α β : Type} {p : Native α} {f : α → Native β} {post : Core → β → Prop} {c : Core}
    (first : p.wp (startup metadata) (fun d _ => d = c) c)
    (second : ∀ a, (f a).wp (startup metadata) post c) : (p >>= f).wp (startup metadata) post c :=
  first.bind fun _ a same => same ▸ second a

theorem perform_wp {β : Type} {op : NativeOp} {f : op.Ans → Native β} {post : Core → β → Prop}
    {c : Core} (may : c.startupMay op)
    (rest : ∀ answer, (startup metadata).allow c op answer →
      (f answer).wp (startup metadata) post (c.next op answer)) :
    ((Prog.ask op .done : Native op.Ans) >>= f).wp (startup metadata) post c :=
  ⟨may, rest⟩

/-- The engine either refuses and has done nothing, or the hook is in place
at an address that carried none. -/
theorem hook_wp {β : Type} {address : Ptr} {hook : Hook} {f : HookAnswer → Native β}
    {post : Core → β → Prop} {c : Core} (may : c.startupMay (.shadowhookHook address hook hook))
    (failed : ∀ answer : HookAnswer, answer.stub = 0 → (f answer).wp (startup metadata) post c)
    (placed : ∀ answer : HookAnswer, answer.stub ≠ 0 → c.patched address = none →
      (∀ target, answer.trampoline = some target → target = address) →
        (f answer).wp (startup metadata) post (c.hooked address hook hook answer)) :
    ((Prog.ask (.shadowhookHook address hook hook) .done : Native HookAnswer) >>= f).wp
      (startup metadata) post c := by
  refine perform_wp may fun answer given => ?_
  by_cases refused : answer.stub = 0
  · rw [next, if_pos refused]
    exact failed answer refused
  · rw [next, if_neg refused]
    exact placed answer refused (by_contra fun carried => refused (given.1.1 carried)) given.1.2

theorem log_wp (priority : Priority) (format : String) (args : List Arg) (c : Core) :
    (log priority format args).wp (startup metadata) (fun d _ => d = c) c :=
  ⟨trivial, fun _ _ => rfl⟩

theorem same_wp {α : Type} {rel : α → α → Prop} {p : Native α} {c : Core}
    (twin : Twin (lockstep .unrestricted none 0) rel p p) (bound : c.Bound) :
    p.wp (startup metadata) (fun d _ => d = c) c :=
  (wp_of_lockstep twin bound).mono fun _ _ both => both.1

theorem answers {m : Metadata} {c : Core} (bound : c.Bound) : m.Answers (startup (some m)) c where
  apiPtr f := ⟨trivial, fun _ read => ⟨rfl, fun needed => read.1 ▸ bound f needed⟩⟩
  call _ _ known present question := ⟨present, fun _ told => ⟨rfl, told.2 m rfl known question⟩⟩
  methodPointer _ := ⟨trivial, fun _ told => ⟨rfl, told.2 m rfl⟩⟩

theorem ensureEngine_wp (c : Core) : ensureEngine.wp (startup metadata) (fun d _ => d = c) c := by
  refine ⟨trivial, fun started _ => .ite (fun _ => rfl) fun _ => ?_⟩
  refine ⟨trivial, fun rc _ => ⟨trivial, fun _ _ => .ite (fun _ => ?_) fun _ => ?_⟩⟩
  · exact ⟨trivial, fun version _ => log_wp _ _ _ _⟩
  · exact ⟨trivial, fun message _ => log_wp _ _ _ _⟩

/-- What patching an address leaves behind. -/
def Patched (c : Core) (hook : Hook) (address : Ptr) (d : Core) (installed : Bool) : Prop :=
  d.Bound ∧ d.Coherent ∧ KeptBut [hook] c d ∧
    (∀ site, d.patched site = some hook ↔ installed = true ∧ site = address) ∧
    (installed = true → c.patched address = none)

/-- The hook is nowhere else than at the address just patched. -/
theorem patched_hooked {c : Core} {hook : Hook} (free : c.Unpatched hook) (address : Ptr)
    (answer : HookAnswer) (site : Ptr) :
    (c.hooked address hook hook answer).patched site = some hook ↔ site = address := by
  by_cases here : site = address
  · simp [Core.hooked, here]
  · simp [Core.hooked, here, free site]

theorem coherent_cleared {c : Core} {hook : Hook} (coherent : c.Coherent) (free : c.Unpatched hook) :
    Coherent { c with slot := Function.update c.slot hook none } := by
  intro site other carried
  exact (Function.update_of_ne (free.ne carried) _ _).trans (coherent site other carried)

theorem coherent_hooked {c : Core} {hook : Hook} {address : Ptr} {answer : HookAnswer}
    (coherent : c.Coherent) (free : c.Unpatched hook) (led : answer.trampoline = some address) :
    (c.hooked address hook hook answer).Coherent := by
  intro site other carried
  by_cases here : site = address
  · subst here
    obtain rfl : hook = other := by simpa [Core.hooked] using carried
    simpa [Core.hooked] using led
  · have before : c.patched site = some other := by simpa [Core.hooked, here] using carried
    exact (Function.update_of_ne (free.ne before) _ _).trans (coherent site other before)

theorem coherent_unhooked {c : Core} {hook : Hook} {address : Ptr} {answer : HookAnswer}
    (coherent : c.Coherent) (free : c.Unpatched hook) :
    Coherent { c.hooked address hook hook answer with
      patched := Function.update (c.hooked address hook hook answer).patched address none } := by
  intro site other carried
  have elsewhere : site ≠ address := by
    rintro rfl
    simp at carried
  have before : c.patched site = some other := by simpa [Core.hooked, elsewhere] using carried
  exact (Function.update_of_ne (free.ne before) _ _).trans (coherent site other before)

theorem patchAddress_wp (target : ManagedMethod) (address : Ptr) {hook : Hook} {c : Core} (bound : c.Bound)
    (coherent : c.Coherent) (busy : c.installing = true) (free : c.Unpatched hook) :
    (patchAddress target address hook hook).wp (startup metadata) (Patched c hook address) c := by
  have cleared := coherent_cleared coherent free
  have kept := KeptBut.setSlot c hook none
  refine perform_wp ⟨busy, free⟩ fun _ _ => hook_wp ⟨busy, rfl, free, bound⟩ (fun answer failed => ?_)
    fun answer placed clean leads => ?_
  · refine .ite (fun _ => ?_) (absurd failed)
    refine perform_wp trivial fun err _ => perform_wp trivial fun message _ =>
      wp_seq (log_wp _ _ _ _) fun _ => ?_
    exact ⟨bound, cleared, kept, fun site => ⟨fun carried => absurd carried (free site), nofun⟩, nofun⟩
  refine .ite (fun failed => absurd failed placed) fun _ => perform_wp trivial fun trampoline read => ?_
  have slot : trampoline = answer.trampoline := read.1.trans (Function.update_self ..)
  have placedKept := kept.again (.hooked clean hook answer)
  let d := Core.hooked { c with slot := Function.update c.slot hook none } address hook hook answer
  have stood : d.stubs answer.stub = address := Function.update_self ..
  refine .ite (fun missing => ?_) fun present => ?_
  · have empty : answer.trampoline = none := slot.symm.trans missing
    refine wp_seq (log_wp _ _ _ _) fun _ => perform_wp ⟨busy, fun other carried => ?_⟩ fun _ _ => ?_
    · obtain rfl : hook = other := by simpa [next, hooked] using carried
      simpa [next, hooked] using empty
    show Patched c hook address { d with patched := Function.update d.patched (d.stubs answer.stub) none } false
    rw [stood]
    refine ⟨bound, coherent_unhooked cleared free,
      placedKept.again (.unhooked (Function.update_self ..)), ?_, nofun⟩
    refine fun site => ⟨fun carried => ?_, nofun⟩
    by_cases here : site = address
    · simp [here] at carried
    · have before : d.patched site = some hook := by simpa [here] using carried
      exact absurd ((patched_hooked (c := { c with slot := _ }) free address answer site).mp before) here
  · obtain ⟨t, leads_to⟩ := Option.ne_none_iff_exists'.mp present
    have here : t = address := leads t (slot.symm.trans leads_to)
    refine wp_seq (log_wp _ _ _ _) fun _ => ⟨bound, coherent_hooked cleared free ?_, placedKept, fun site =>
      ?_, fun _ => clean⟩
    · rw [← slot, leads_to, here]
    · exact (patched_hooked free address answer site).trans (by simp)

theorem findMethodInfo_wp (target : ManagedMethod) {c : Core} (bound : c.Bound) :
    (Il2cpp.findMethodInfo target.namespaze target.klass target.method target.argsCount).wp (startup metadata)
      (fun d info => d = c ∧ ∀ m ∈ metadata, info = m.methodInfo target) c := by
  cases metadata with
  | none => exact (wp_of_lockstep (findMethodInfo_lockstep ..) bound).mono fun _ _ both => ⟨both.1, nofun⟩
  | some m =>
    refine ((answers bound).findMethodInfo_wp target).mono ?_
    rintro _ _ ⟨rfl, rfl⟩
    exact ⟨rfl, by simp⟩

theorem methodPointer_wp (info : Ptr) {c : Core} (bound : c.Bound) :
    (Il2cpp.methodPointer info).wp (startup metadata)
      (fun d fn => d = c ∧ ∀ m ∈ metadata, fn = if info = 0 then 0 else m.code info) c := by
  cases metadata with
  | none => exact (wp_of_lockstep (methodPointer_lockstep _) bound).mono fun _ _ both => ⟨both.1, nofun⟩
  | some m =>
    refine ((answers bound).methodPointer_wp info).mono ?_
    rintro _ _ ⟨rfl, rfl⟩
    exact ⟨rfl, by simp⟩

theorem installTarget_wp (target : ManagedMethod) (required : Bool) {hook : Hook} {c : Core}
    (bound : c.Bound) (coherent : c.Coherent) (busy : c.installing = true) (free : c.Unpatched hook) :
    (installTarget target hook hook required).wp (startup metadata) (fun d installed =>
      d.Bound ∧ d.Coherent ∧ KeptBut [hook] c d ∧ Placement metadata target hook c d installed) c := by
  have unchanged : c.Bound ∧ c.Coherent ∧ KeptBut [hook] c c ∧ Placement metadata target hook c c false :=
    ⟨bound, coherent, .refl _ c, .failed free⟩
  refine wp_seq (ensureEngine_wp c) fun _ => perform_wp trivial fun ready _ =>
    .ite (fun _ => ?_) fun _ => ?_
  · exact wp_seq (log_wp _ _ _ _) fun _ => unchanged
  refine (findMethodInfo_wp target bound).bind ?_
  rintro _ methodInfo ⟨rfl, found⟩
  refine .ite (fun _ => ?_) fun _ => ?_
  · refine .ite (fun _ => ?_) fun _ => ?_
    · exact wp_seq (log_wp _ _ _ _) fun _ => unchanged
    · exact wp_seq (log_wp _ _ _ _) fun _ => unchanged
  refine (methodPointer_wp methodInfo bound).bind ?_
  rintro _ address ⟨rfl, pointed⟩
  refine .ite (fun _ => ?_) fun present => ?_
  · exact wp_seq (log_wp _ _ _ _) fun _ => unchanged
  refine (patchAddress_wp target address bound coherent busy free).mono ?_
  rintro d installed ⟨bound, coherent, kept, placed, clean⟩
  refine ⟨bound, coherent, kept, ⟨fun done nowhere => ?_, fun somewhere => ?_⟩, fun site carried => ?_,
    fun site carried => ?_⟩
  · exact nowhere address ((placed address).mpr ⟨done, rfl⟩)
  · obtain ⟨site, carried⟩ := not_forall_not.mp somewhere
    exact ((placed site).mp carried).1
  · obtain ⟨_, rfl⟩ := (placed site).mp carried
    refine ⟨present, fun m given => ?_⟩
    rw [pointed m given, found m given, Metadata.codeOf]
  · obtain ⟨done, rfl⟩ := (placed site).mp carried
    exact clean done

/-- One install, for a hook that is nowhere in place. -/
theorem install_wp (target : ManagedMethod) (required : Bool) {hook : Hook} {c : Core} (ready : c.Ready)
    (free : c.Unpatched hook) :
    (install target (some hook) (some hook) required).wp (startup metadata) (fun d installed => d.Ready ∧
      KeptBut [hook] c d ∧ Placement metadata target hook c d installed) c := by
  refine perform_wp trivial fun _ _ => ?_
  refine (installTarget_wp target required (c := { c with installing := true })
    ready.bound ready.coherent rfl free).bind ?_
  rintro d installed ⟨bound, coherent, kept, placed⟩
  exact perform_wp coherent fun _ _ => ⟨⟨bound, coherent, rfl⟩, kept, placed.placed,
    placed.located, placed.clean⟩

/-- What a sequence of optional installs leaves behind: the count has gone up
exactly if one of the hooks is in place. -/
structure Placements (metadata : Option Metadata) (targets : List (ManagedMethod × Hook)) (d : Core)
    (before total : Nat) : Prop where
  counted : before ≤ total
  more : before < total ↔ ∃ entry ∈ targets, ¬d.Unpatched entry.2
  located : ∀ entry ∈ targets, Located metadata entry.1 entry.2 d

theorem installOptional_wp (target : ManagedMethod) (installed : Nat) {hook : Hook} {c : Core}
    (ready : c.Ready) (free : c.Unpatched hook) :
    (installOptional target hook installed).wp (startup metadata) (fun d total =>
        d.Ready ∧ KeptBut [hook] c d ∧ Placements metadata [(target, hook)] d installed total) c := by
  refine (install_wp target false ready free).bind ?_
  rintro d placed ⟨ready, kept, placement⟩
  have located : ∀ entry ∈ [(target, hook)], Located metadata entry.1 entry.2 d := by
    simpa using placement.located
  refine .ite (fun done => ⟨ready, kept, installed.le_succ, ?_, located⟩) fun failed =>
    ⟨ready, kept, le_refl _, ?_, located⟩
  · simp [← placement.placed, done]
  · simp [← placement.placed, failed]

/-- A sequence of optional installs of hooks that are nowhere in place. -/
theorem installOptionals_wp (targets : List (ManagedMethod × Hook)) (installed : Nat) {c : Core}
    (ready : c.Ready) (distinct : (targets.map Prod.snd).Nodup)
    (free : ∀ hook ∈ targets.map Prod.snd, c.Unpatched hook) :
    (installOptionals targets installed).wp (startup metadata) (fun d total =>
      d.Ready ∧ KeptBut (targets.map Prod.snd) c d ∧ Placements metadata targets d installed total) c := by
  induction targets generalizing c installed with
  | nil => exact ⟨ready, .refl _ c, le_refl _, by simp, nofun⟩
  | cons first rest ih =>
    obtain ⟨target, hook⟩ := first
    obtain ⟨absent, distinct⟩ := List.nodup_cons.mp distinct
    refine (installOptional_wp target installed ready (free hook (List.mem_cons_self ..))).bind ?_
    rintro d count ⟨ready, kept, one⟩
    refine (ih count ready distinct fun other member => ?_).mono ?_
    · refine kept.unpatched ?_ (free other (List.mem_cons_of_mem _ member))
      rintro same
      obtain rfl := List.mem_singleton.mp same
      exact absent member
    · rintro e total ⟨ready, others, more⟩
      have here : e.Unpatched hook ↔ d.Unpatched hook := others.unpatched_iff absent
      have first : installed < count ↔ ¬e.Unpatched hook := by simpa [here] using one.more
      refine ⟨ready, kept.trans others, one.counted.trans more.counted, ?_,
        List.forall_mem_cons.mpr ⟨?_, more.located⟩⟩
      · rw [List.exists_mem_cons_iff, ← first, ← more.more]
        have := one.counted
        have := more.counted
        omega
      · exact others.located absent (one.located _ (List.mem_cons_self ..))

end Opg3d.Core
