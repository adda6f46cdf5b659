import Mathlib.Data.List.Basic
import Opg3d.Native.World

namespace Opg3d.InitThread

open Kit Native

/-- What the surroundings answer `init_thread`, each question the i-th time it
is asked: a symbol by its export, an image by its name. -/
structure Environment where
  library : Nat → Option Ptr
  symbol : Api → Nat → Ptr
  domain : Nat → Ptr
  assemblies : Nat → Assemblies
  thread : Ptr
  image : String → Nat → Ptr
  photon : Bool
  guard : Bool

inductive Event where
  | attach (thread : Ptr)
  | walk
  | photonInstallHooks
  | guardInstallHooks
  | detach (thread : Ptr)
  deriving DecidableEq, Repr

def Event.isInstall : Event → Bool
  | .photonInstallHooks | .guardInstallHooks => true
  | _ => false

def Event.isDetach : Event → Bool
  | .detach _ => true
  | _ => false

/-- The assembly array is walked: by `find_image`, or by `find_class` in an installation. -/
def Event.isWalk : Event → Bool
  | .walk | .photonInstallHooks | .guardInstallHooks => true
  | _ => false

/-- The exports bound so far, how often each question has been asked, and
what has happened. -/
structure Progress where
  api : Api → Ptr
  libraries : Nat
  symbols : Api → Nat
  domains : Nat
  counts : Nat
  images : Nat
  events : List Event

def Progress.start : Progress := ⟨fun _ => 0, 0, fun _ => 0, 0, 0, 0, []⟩

def Progress.record (p : Progress) (event : Event) : Progress := { p with events := p.events ++ [event] }

def exports : List Api := Il2cpp.required ++ [.threadDetach]

/-- The export of a name. -/
def exported (name : String) : Option Api := exports.find? fun f => f.symbol = name

theorem exported_symbol (f : Api) : exported f.symbol = some f := by
  cases f <;> decide

/-- Only an export that is unbound is bound. -/
def Unbound (p : Progress) : NativeOp ⊕ Component → Prop
  | .inl (.bindApi f _) => p.api f = 0
  | _ => True

namespace Environment

def answer (env : Environment) (p : Progress) : (op : NativeOp ⊕ Component) → InitOp.Ans op × Progress
  | .inl (.apiPtr f) => (p.api f, p)
  | .inl (.bindApi f fn) => ((), { p with api := Function.update p.api f fn })
  | .inl .findLibrary => (env.library p.libraries, { p with libraries := p.libraries + 1 })
  | .inl (.findSymbol name) =>
    match exported name with
    | some f => (env.symbol f (p.symbols f), { p with symbols := Function.update p.symbols f (p.symbols f + 1) })
    | none => ((0 : Ptr), p)
  | .inl (.call _ .domainGet) => (env.domain p.domains, { p with domains := p.domains + 1 })
  | .inl (.call _ (.domainGetAssemblies _)) => (env.assemblies p.counts, { p with counts := p.counts + 1 })
  | .inl (.call _ (.assemblyGetImage _)) => ((0 : Ptr), p.record .walk)
  | .inl (.call _ (.classFromName _ _ _)) => ((0 : Ptr), p.record .walk)
  | .inl (.call _ (.threadAttach _)) => (env.thread, p.record (.attach env.thread))
  | .inl (.call _ (.threadDetach thread)) => ((), p.record (.detach thread))
  | .inl op => (op.nothing, p)
  | .inr (.findImage name) => (env.image name p.images, { p.record .walk with images := p.images + 1 })
  | .inr .photonInstallHooks => (env.photon, p.record .photonInstallHooks)
  | .inr .cloudGuardInstallHooks => (env.guard, p.record .guardInstallHooks)

/-- Nothing but a binding changes what an export is bound to. -/
theorem answer_api {env : Environment} {p : Progress} {op : NativeOp ⊕ Component} {f : Api}
    (only : Unbound p op) (bound : p.api f ≠ 0) : (env.answer p op).2.api f = p.api f := by
  cases op with
  | inl op =>
    cases op with
    | bindApi g fn =>
      have other : f ≠ g := fun same => bound (same ▸ only)
      exact Function.update_of_ne other fn p.api
    | findSymbol name => simp only [answer]; split <;> rfl
    | call fn c => cases c <;> rfl
    | _ => rfl
  | inr c => cases c <;> rfl

/-- The number of assemblies that a sample of the settling loop sees. -/
def count (env : Environment) (i : Nat) : Nat :=
  if (env.assemblies i).count > 8192 then 0 else (env.assemblies i).count

/-- An export is bound by the first so many calls of `resolve`: one of them found it. -/
def BoundBy (env : Environment) (n : Nat) (f : Api) : Prop := ∃ i < n, env.symbol f i ≠ 0

def ResolvedBy (env : Environment) (n : Nat) : Prop := ∀ f ∈ Il2cpp.required, env.BoundBy n f

/-- The first answer for an export that is not null, among the first so many calls of `resolve`. -/
def firstSymbol (env : Environment) (f : Api) : Nat → Ptr
  | 0 => 0
  | n + 1 => if env.firstSymbol f n = 0 then env.symbol f n else env.firstSymbol f n

/-- The assembly list has one size, not zero, in 26 samples in a row. -/
def Settles (env : Environment) : Prop :=
  ∃ j, j + kStableChecks < kWaitSteps ∧ env.count j ≠ 0 ∧ ∀ k ≤ kStableChecks,
    env.count (j + k) = env.count j

/-- So many times `resolve` is called: not without the library, and otherwise
until it succeeds or the steps are used up. -/
structure Resolves (env : Environment) (n : Nat) : Prop where
  absent : (∀ i < kWaitSteps, env.library i = none) → n = 0
  present : ∀ i < kWaitSteps, env.library i ≠ none → env.ResolvedBy n ∨ n = kWaitSteps
  within : n ≤ kWaitSteps
  first : ∀ m < n, ¬env.ResolvedBy m

/-- Every stage before the attach succeeds within its limit. -/
structure Ready (env : Environment) : Prop where
  library : ∃ i < kWaitSteps, env.library i ≠ none
  exports : ∃ n ≤ kWaitSteps, env.ResolvedBy n
  domain : ∃ i < kWaitSteps, env.domain i ≠ 0
  settled : env.Settles

def Attached (env : Environment) : Prop := env.Ready ∧ env.thread ≠ 0

/-- Every stage succeeds. -/
def Reaches (env : Environment) : Prop :=
  env.Attached ∧ ∃ i < kWaitSteps, env.image "Assembly-CSharp.dll" i ≠ 0

/-- The last call of `resolve` leaves `thread_detach` bound. -/
def Detaches (env : Environment) : Prop :=
  ∃ n, env.ResolvedBy n ∧ (∀ m < n, ¬env.ResolvedBy m) ∧ env.BoundBy n .threadDetach

/-- The monitor that follows the progress of `init_thread`. -/
def follow (env : Environment) : Monitor initSignature Progress where
  allow p op answer := answer = (env.answer p op).1
  ok p op := Unbound p op
  next p op _ := (env.answer p op).2

def followNative (env : Environment) : Monitor nativeSignature Progress where
  allow p op answer := answer = (env.answer p (.inl op)).1
  ok p op := Unbound p (.inl op)
  next p op _ := (env.answer p (.inl op)).2

variable {env : Environment} {α : Type}

theorem native_wp {p : Native α} {post : Progress → α → Prop} {s : Progress}
    (run : p.wp env.followNative post s) : (native p).wp env.follow post s := by
  induction p generalizing s with
  | done value => exact run
  | ask op next ih => exact ⟨run.1, fun answer given => ih answer (run.2 answer given)⟩

theorem log_wp (priority : Priority) (format : String) (args : List Arg) (p : Progress) :
    (native (log priority format args)).wp env.follow (fun q _ => q = p) p :=
  native_wp ⟨trivial, fun _ _ => rfl⟩

theorem usleep_wp (microseconds : Nat) (p : Progress) :
    (native (usleep microseconds)).wp env.follow (fun q _ => q = p) p :=
  native_wp ⟨trivial, fun _ _ => rfl⟩

theorem pause_wp (p : Progress) : pause.wp env.follow (fun q _ => q = p) p := usleep_wp kWaitStepUs p

theorem awaitLibrary_wp (p : Progress) (fresh : p.libraries = 0) :
    awaitLibrary.wp env.follow (fun q found =>
      (found.isSome ↔ ∃ i < kWaitSteps, env.library i ≠ none) ∧ ∃ i, q = { p with libraries := i }) p := by
  obtain ⟨api, _, symbols, domains, counts, images, events⟩ := p
  obtain rfl : _ = 0 := fresh
  refine Prog.wp.mono (Prog.wp_poll_asked env.library (fun i =>
    ⟨api, i, symbols, domains, counts, images, events⟩)
    (fun i => ?_) pause_wp kWaitSteps) fun q found after => ?_
  · exact ⟨trivial, fun _ told => ⟨rfl, told⟩⟩
  · exact ⟨after.1, after.2.2⟩

theorem firstSymbol_ne_zero {n : Nat} {f : Api} : env.firstSymbol f n ≠ 0 ↔ env.BoundBy n f := by
  induction n with
  | zero => exact ⟨fun bound => absurd rfl bound, fun ⟨i, below, _⟩ => absurd below i.not_lt_zero⟩
  | succ n ih =>
    unfold firstSymbol
    split
    · rename_i missed
      refine ⟨fun found => ⟨n, n.lt_succ_self, found⟩, ?_⟩
      rintro ⟨i, below, found⟩
      rcases Nat.lt_succ_iff_lt_or_eq.mp below with before | rfl
      · exact absurd missed (ih.mpr ⟨i, before, found⟩)
      · exact found
    · rename_i bound
      refine ⟨fun _ => ?_, fun _ => bound⟩
      obtain ⟨i, below, found⟩ := ih.mp bound
      exact ⟨i, below.trans n.lt_succ_self, found⟩

/-- After so many calls of `resolve` an export is bound to the first address
that one of them found, and if it is unbound each of them has asked. -/
def Tracks (env : Environment) (n : Nat) (f : Api) (p : Progress) : Prop :=
  p.api f = env.firstSymbol f n ∧ (p.api f = 0 → p.symbols f = n)

theorem Tracks.bound {n : Nat} {f : Api} {p : Progress} (tracks : env.Tracks n f p) :
    p.api f ≠ 0 ↔ env.BoundBy n f := by
  rw [tracks.1]
  exact firstSymbol_ne_zero

/-- Only what `resolve` changes may differ. -/
def BindsOnly (p q : Progress) : Prop := q = { p with api := q.api, symbols := q.symbols }

theorem BindsOnly.trans {p q r : Progress} (first : BindsOnly p q) (second : BindsOnly q r) :
    BindsOnly p r := by
  unfold BindsOnly at first second ⊢
  rw [second, first]

theorem findSymbol_wp (f : Api) (p : Progress) : (findSymbol f.symbol).wp env.followNative (fun q found =>
    q = { p with symbols := Function.update p.symbols f (p.symbols f + 1) } ∧
      found = env.symbol f (p.symbols f)) p := by
  have told : env.answer p (.inl (.findSymbol f.symbol)) =
      (env.symbol f (p.symbols f), { p with symbols := Function.update p.symbols f (p.symbols f + 1) }) := by
    simp only [answer, exported_symbol]
  exact ⟨trivial, fun found given => ⟨congrArg Prod.snd told, given.trans (congrArg Prod.fst told)⟩⟩

theorem bind_wp (n : Nat) (f : Api) (p : Progress) (tracks : env.Tracks n f p) :
    (Il2cpp.bind f).wp env.followNative (fun q bound => env.Tracks (n + 1) f q ∧ BindsOnly p q ∧
      (∀ g, g ≠ f → q.api g = p.api g ∧ q.symbols g = p.symbols g) ∧ (bound = true ↔ q.api f ≠ 0)) p := by
  refine ⟨trivial, fun fn read => .ite (fun found => ?_) fun missing => ?_⟩
  · obtain rfl : fn = p.api f := read
    refine ⟨⟨?_, fun unbound => absurd unbound found⟩, rfl, fun g _ => ⟨rfl, rfl⟩, fun _ =>
      found, fun _ => rfl⟩
    exact tracks.1.trans (if_neg (tracks.1 ▸ found)).symm
  obtain rfl : fn = p.api f := read
  have unbound : p.api f = 0 := not_not.mp missing
  refine (findSymbol_wp f p).seq ⟨unbound, fun _ _ => ?_⟩
  rw [tracks.2 unbound]
  have bound : Function.update p.api f (env.symbol f n) f = env.symbol f n := Function.update_self ..
  refine ⟨⟨bound.trans (if_pos (tracks.1 ▸ unbound)).symm, fun _ => Function.update_self ..⟩, rfl,
    fun g other => ?_, ?_⟩
  · exact ⟨Function.update_of_ne other _ _, Function.update_of_ne other _ _⟩
  · exact decide_eq_true_iff.trans (iff_of_eq (congrArg (· ≠ 0) bound.symm))

theorem bindAll_wp (n : Nat) (fs : List Api) (distinct : fs.Nodup) (p : Progress)
    (tracks : ∀ f ∈ fs, env.Tracks n f p) :
    (Il2cpp.bindAll fs).wp env.followNative (fun q ok =>
      (∀ f ∈ fs, env.Tracks (n + 1) f q) ∧ BindsOnly p q ∧
      (∀ g, g ∉ fs → q.api g = p.api g ∧ q.symbols g = p.symbols g) ∧
        (ok = true ↔ ∀ f ∈ fs, q.api f ≠ 0)) p := by
  induction fs generalizing p with
  | nil => exact ⟨nofun, rfl, fun _ _ => ⟨rfl, rfl⟩, by simp⟩
  | cons f rest ih =>
    obtain ⟨absent, distinct⟩ := List.nodup_cons.mp distinct
    refine (bind_wp n f p (tracks f (List.mem_cons_self ..))).bind ?_
    rintro q bound ⟨here, only, others, found⟩
    have kept {g : Api} {m : Nat} {p q : Progress} (same : q.api g = p.api g ∧ q.symbols g = p.symbols g)
        (tracks : env.Tracks m g p) : env.Tracks m g q := by
      unfold Tracks
      rwa [same.1, same.2]
    refine (ih distinct q fun g member => kept (others g fun same => absent (same ▸ member))
      (tracks g (.tail _ member))).bind ?_
    rintro r ok ⟨tracks', only', others', found'⟩
    refine ⟨?_, only.trans only', fun g outside => ?_, ?_⟩
    · rintro g (_ | ⟨_, member⟩)
      · exact kept (others' f absent) here
      · exact tracks' g member
    · obtain ⟨other, later⟩ := not_or.mp (mt List.mem_cons.mpr outside)
      exact ⟨(others' g later).1.trans (others g other).1, (others' g later).2.trans (others g other).2⟩
    · show (bound && ok) = true ↔ _
      rw [Bool.and_eq_true, found, found', List.forall_mem_cons, (others' f absent).1]

theorem resolve_wp (n : Nat) (p : Progress) (tracks : ∀ f, env.Tracks n f p) :
    Il2cpp.resolve.wp env.followNative (fun q ok => (∀ f, env.Tracks (n + 1) f q) ∧ BindsOnly p q ∧
      (ok = true ↔ env.ResolvedBy (n + 1))) p := by
  refine (bindAll_wp n Il2cpp.required (by decide) p fun f _ => tracks f).bind ?_
  rintro q ok ⟨tracked, only, others, found⟩
  have optional : env.Tracks n .threadDetach q := by
    have same := others .threadDetach (by decide)
    unfold Tracks
    rw [same.1, same.2]
    exact tracks _
  refine (bind_wp n .threadDetach q optional).bind ?_
  rintro r bound ⟨last, only', others', _⟩
  have all (f : Api) : env.Tracks (n + 1) f r := by
    by_cases same : f = .threadDetach
    · exact same ▸ last
    · have kept := others' f same
      unfold Tracks
      rw [kept.1, kept.2]
      exact tracked f (Il2cpp.required_of_ne f same)
  refine ⟨all, only.trans only', found.trans ?_⟩
  refine forall₂_congr fun f member => ?_
  rw [← (tracked f member).bound]

/-- Nothing is bound before the first call of `resolve`. -/
theorem not_resolvedBy_zero : ¬env.ResolvedBy 0 := by
  intro resolved
  obtain ⟨i, below, _⟩ := resolved .stringNew (by decide)
  exact absurd below i.not_lt_zero

/-- Every export is bound to the first answer for it that was not null. -/
def Bindings (env : Environment) (p : Progress) : Prop :=
  ∃ n, env.Resolves n ∧ ∀ f, p.api f = env.firstSymbol f n

theorem awaitExports_wp (p : Progress) (library : ∃ i < kWaitSteps, env.library i ≠ none)
    (unbound : p.api = fun _ => 0) (unasked : p.symbols = fun _ => 0) :
    awaitExports.wp env.follow (fun q resolved => BindsOnly p q ∧ env.Bindings q ∧
      (resolved.isSome ↔ ∃ n ≤ kWaitSteps, env.ResolvedBy n) ∧
      (resolved.isSome → (∀ f, f ≠ .threadDetach → q.api f ≠ 0) ∧
        (q.api .threadDetach ≠ 0 ↔ env.Detaches))) p := by
  let inv (i : Nat) (q : Progress) : Prop :=
    (∀ f, env.Tracks i f q) ∧ BindsOnly p q ∧ ∀ m ≤ i, ¬env.ResolvedBy m
  let hit (i : Nat) (q : Progress) (_ : Unit) : Prop :=
    (∀ f, env.Tracks (i + 1) f q) ∧ BindsOnly p q ∧ env.ResolvedBy (i + 1) ∧ ∀ m ≤ i, ¬env.ResolvedBy m
  have start : inv 0 p := by
    refine ⟨fun f => ⟨congrFun unbound f, fun _ => congrFun unasked f⟩, rfl, ?_⟩
    rintro m low
    obtain rfl := Nat.le_zero.mp low
    exact not_resolvedBy_zero
  refine (Prog.wp_poll_count inv hit ?_ ?_ kWaitSteps start).mono ?_
  · rintro i s ⟨tracks, only, early⟩
    refine (native_wp (resolve_wp i s tracks)).bind ?_
    rintro t ok ⟨tracks', only', resolved⟩
    cases ok with
    | true => exact ⟨tracks', only.trans only', resolved.mp rfl, early⟩
    | false =>
      refine ⟨tracks', only.trans only', fun m low => ?_⟩
      rcases Nat.le_succ_iff.mp low with before | rfl
      · exact early m before
      · exact fun done => nomatch resolved.mpr done
  · exact fun i s kept => (pause_wp s).mono fun t _ same => same ▸ kept
  · intro q resolved after
    cases resolved with
    | none =>
      obtain ⟨tracks, only, never⟩ := after
      have calls : env.Resolves kWaitSteps :=
        ⟨fun absent => absurd library (by simpa using absent), fun _ _ _ => .inr rfl, le_refl _,
          fun m low => never m low.le⟩
      refine ⟨only, ⟨_, calls, fun f => (tracks f).1⟩, ⟨nofun, ?_⟩, nofun⟩
      exact fun ⟨n, low, done⟩ => absurd done (never n low)
    | some value =>
      obtain ⟨i, below, tracks, only, done, early⟩ := after
      have calls : env.Resolves (i + 1) :=
        ⟨fun absent => absurd library (by simpa using absent), fun _ _ _ => .inl done, below,
          fun m low => early m (Nat.lt_succ_iff.mp low)⟩
      refine ⟨only, ⟨_, calls, fun f => (tracks f).1⟩, ⟨fun _ => ⟨i + 1, below, done⟩, fun _ => rfl⟩,
        fun _ => ⟨fun f needed => ?_, ?_⟩⟩
      · exact (tracks f).bound.mpr (done f (Il2cpp.required_of_ne f needed))
      · rw [(tracks _).bound]
        constructor
        · exact fun bound => ⟨i + 1, done, fun m low => early m (Nat.lt_succ_iff.mp low), bound⟩
        · rintro ⟨n, first, minimal, bound⟩
          obtain rfl : n = i + 1 := by
            rcases Nat.lt_trichotomy n (i + 1) with less | same | more
            · exact absurd first (early n (Nat.lt_succ_iff.mp less))
            · exact same
            · exact absurd done (minimal _ more)
          exact bound

theorem nonNull_eq_some {p q : Ptr} : nonNull p = some q ↔ p = q ∧ q ≠ 0 := by
  unfold nonNull
  split
  · rename_i null
    simp only [reduceCtorEq, false_iff, not_and, not_not]
    exact fun same => same ▸ null
  · rename_i present
    simp only [Option.some.injEq]
    exact ⟨fun same => ⟨same, same ▸ present⟩, fun both => both.1⟩

theorem nonNull_ne_none {p : Ptr} : nonNull p ≠ none ↔ p ≠ 0 := by
  unfold nonNull
  split <;> simp_all

theorem awaitDomain_wp (p : Progress) (fresh : p.domains = 0) : awaitDomain.wp env.follow (fun q found =>
    (found.isSome ↔ ∃ i < kWaitSteps, env.domain i ≠ 0) ∧ (∀ domain ∈ found, domain ≠ 0) ∧
      ∃ i, q = { p with domains := i }) p := by
  obtain ⟨api, libraries, symbols, _, counts, images, events⟩ := p
  obtain rfl : _ = 0 := fresh
  refine Prog.wp.mono (Prog.wp_poll_asked (fun i => nonNull (env.domain i))
    (fun i => ⟨api, libraries, symbols, i, counts, images, events⟩)
    (fun i => ?_) pause_wp kWaitSteps) fun q found after => ?_
  · exact ⟨trivial, fun fn _ => ⟨trivial, fun domain told => ⟨rfl, congrArg nonNull told⟩⟩⟩
  · simp only [nonNull_ne_none] at after
    refine ⟨after.1, fun domain member => ?_, after.2.2⟩
    obtain ⟨i, told⟩ := after.2.1 domain member
    exact (nonNull_eq_some.mp told).2

/-- `stable`, `last` and the number of samples as the loop leaves them. -/
def settling (counts : Nat → Nat) : Nat → Nat → Nat → Nat → Nat × Nat × Nat
  | 0, i, stable, last => (stable, last, i)
  | steps + 1, i, stable, last =>
    if stable < kStableChecks then settling counts steps (i + 1) (nextStable stable last (counts i)) (counts i)
    else (stable, last, i)

/-- What the counter stands for after some samples. -/
structure Streak (counts : Nat → Nat) (i stable last : Nat) : Prop where
  first : i = 0 → last = 0
  previous : 0 < i → last = counts (i - 1)
  equal : 0 < stable → stable < i ∧ last ≠ 0 ∧ ∀ k ≤ stable, counts (i - 1 - k) = last

theorem Streak.next {counts : Nat → Nat} {i stable last : Nat} (streak : Streak counts i stable last) :
    Streak counts (i + 1) (nextStable stable last (counts i)) (counts i) := by
  refine ⟨nofun, fun _ => rfl, fun positive => ?_⟩
  unfold nextStable at positive ⊢
  split at positive
  · rename_i continued
    rw [if_pos continued]
    obtain ⟨some, same⟩ := continued
    have started : 0 < i := by
      rcases Nat.eq_zero_or_pos i with zero | more
      · exact absurd (same.trans (streak.first zero)) some
      · exact more
    refine ⟨?_, some, fun k low => ?_⟩
    · rcases Nat.eq_zero_or_pos stable with zero | more
      · omega
      · have := (streak.equal more).1
        omega
    · rcases k with _ | k
      · rfl
      rw [show i + 1 - 1 - (k + 1) = i - 1 - k by omega, same]
      rcases Nat.eq_zero_or_pos stable with zero | more
      · obtain rfl : k = 0 := by omega
        exact (streak.previous started).symm
      · exact (streak.equal more).2.2 k (by omega)
  · exact absurd positive (Nat.lt_irrefl 0)

theorem Streak.plateau {counts : Nat → Nat} {i stable last : Nat} (streak : Streak counts i stable last)
    (full : kStableChecks ≤ stable) :
    ∃ j, i = j + kStableChecks + 1 ∧ last = counts j ∧ counts j ≠ 0 ∧ ∀ k ≤ kStableChecks,
      counts (j + k) = counts j := by
  have positive : 0 < stable := Nat.lt_of_lt_of_le (by decide) full
  obtain ⟨below, some, equal⟩ := streak.equal positive
  have first := equal kStableChecks full
  refine ⟨i - 1 - kStableChecks, by omega, first.symm, first ▸ some, fun k low => ?_⟩
  rw [show i - 1 - kStableChecks + k = i - 1 - (kStableChecks - k) by omega, equal _ (by omega), first]

/-- Where the loop stops by itself, a plateau has just ended. -/
theorem settling_ended {counts : Nat → Nat} (steps : Nat) {i stable last : Nat}
    (streak : Streak counts i stable last)
    (settled : kStableChecks ≤ (settling counts steps i stable last).1) :
    ∃ j, (settling counts steps i stable last).2.2 = j + kStableChecks + 1 ∧
      (settling counts steps i stable last).2.1 = counts j ∧
      counts j ≠ 0 ∧ ∀ k ≤ kStableChecks, counts (j + k) = counts j := by
  induction steps generalizing i stable last with
  | zero => exact streak.plateau settled
  | succ steps ih =>
    rw [settling] at settled ⊢
    split at settled
    · rename_i unfinished
      rw [if_pos unfinished]
      exact ih streak.next settled
    · rename_i full
      rw [if_neg full]
      exact streak.plateau (not_lt.mp full)

theorem settling_index_le {counts : Nat → Nat} (steps i stable last : Nat) :
    (settling counts steps i stable last).2.2 ≤ i + steps := by
  induction steps generalizing i stable last with
  | zero => exact le_refl _
  | succ steps ih =>
    rw [settling]
    split
    · have later := ih (i + 1) (nextStable stable last (counts i)) (counts i)
      omega
    · exact Nat.le_add_right ..

/-- A plateau within the steps left is not missed, begun or still to come. -/
theorem settling_complete {counts : Nat → Nat} {j : Nat} (some : counts j ≠ 0)
    (plateau : ∀ k ≤ kStableChecks, counts (j + k) = counts j) (steps : Nat) {i stable last : Nat}
    (begun : i ≤ j ∨ ∃ m ≤ kStableChecks, i = j + m + 1 ∧ m ≤ stable ∧ last = counts j)
    (within : j + kStableChecks < i + steps) : kStableChecks ≤ (settling counts steps i stable last).1 := by
  induction steps generalizing i stable last with
  | zero =>
    rcases begun with before | ⟨m, low, rfl, reached, _⟩
    · omega
    · show kStableChecks ≤ stable
      omega
  | succ steps ih =>
    rw [settling]
    split
    · rename_i unfinished
      refine ih ?_ (by omega)
      rcases begun with before | ⟨m, low, rfl, reached, rfl⟩
      · rcases Nat.lt_or_eq_of_le before with less | rfl
        · exact .inl less
        · exact .inr ⟨0, Nat.zero_le _, rfl, Nat.zero_le _, rfl⟩
      · have again : counts (j + m + 1) = counts j := plateau (m + 1) (by omega)
        refine .inr ⟨m + 1, by omega, rfl, ?_, again⟩
        rw [nextStable, if_pos ⟨again ▸ some, again⟩]
        exact Nat.succ_le_succ reached
    · rename_i full
      exact not_lt.mp full

theorem Streak.start (counts : Nat → Nat) : Streak counts 0 0 0 := ⟨fun _ => rfl, nofun, nofun⟩

theorem settling_iff : kStableChecks ≤ (settling env.count kWaitSteps 0 0 0).1 ↔ env.Settles := by
  constructor
  · intro settled
    obtain ⟨j, stopped, _, plateau⟩ := settling_ended kWaitSteps (.start env.count) settled
    have within := @settling_index_le env.count kWaitSteps 0 0 0
    exact ⟨j, by omega, plateau⟩
  · rintro ⟨j, below, some, plateau⟩
    exact settling_complete some plateau kWaitSteps (.inl j.zero_le) (by omega)

theorem assemblyCount_wp {domain : Ptr} (present : domain ≠ 0) (p : Progress)
    (bound : p.api .domainGetAssemblies ≠ 0) :
    (native (assemblyCount domain)).wp env.follow
      (fun q n => q = { p with counts := p.counts + 1 } ∧ n = env.count p.counts) p := by
  have unbound : (anyNull [.domainGetAssemblies]).wp env.followNative (fun q null => q = p ∧ null = false) p := by
    refine ⟨trivial, fun fn read => .ite (fun null => ?_) fun _ => ⟨rfl, rfl⟩⟩
    exact absurd (Eq.trans (Eq.symm read) null) bound
  refine native_wp (.ite (absurd · present) fun _ => unbound.seq (.ite nofun fun _ => ?_))
  refine ⟨trivial, fun fn _ => ⟨trivial, fun assemblies told => ?_⟩⟩
  obtain rfl : assemblies = env.assemblies p.counts := told
  exact ⟨rfl, rfl⟩

theorem settle_wp {domain : Ptr} (present : domain ≠ 0) (steps stable last : Nat) (p : Progress)
    (bound : p.api .domainGetAssemblies ≠ 0) :
    (settle domain steps stable last).wp env.follow (fun q r =>
        ∃ i, (r.1, r.2, i) = settling env.count steps p.counts stable last ∧
          q = { p with counts := i }) p := by
  induction steps generalizing stable last p with
  | zero => exact ⟨p.counts, rfl, rfl⟩
  | succ steps ih =>
    rw [settling]
    split
    · rename_i unfinished
      refine .ite (fun _ => ?_) (absurd unfinished)
      refine (assemblyCount_wp present p bound).seq ((pause_wp _).bind ?_)
      rintro _ _ rfl
      exact ih _ _ { p with counts := p.counts + 1 } bound
    · rename_i full
      exact .ite (absurd · full) fun _ => ⟨p.counts, rfl, rfl⟩

/-- The attached thread is detached if `thread_detach` is bound. -/
def Detached (env : Environment) (last : List Event) : Prop :=
  (env.Detaches → last = [.detach env.thread]) ∧ (¬env.Detaches → last = [])

inductive Outcome (env : Environment) : List Event → Prop
  | unready : ¬env.Ready → Outcome env []
  | refused : env.thread = 0 → Outcome env [.attach env.thread]
  | imageless {walks last} : env.Attached → ¬env.Reaches → env.Detached last →
      Outcome env (.attach env.thread :: List.replicate walks .walk ++ last)
  | installed {walks last} : env.Reaches → env.Detached last →
      Outcome env (.attach env.thread :: List.replicate walks .walk ++
        [.photonInstallHooks, .guardInstallHooks] ++ last)

/-- The last log line of a path changes nothing. -/
theorem report_wp {post : Progress → Unit → Prop} (priority : Priority) (format : String)
    (args : List Arg) {p : Progress} (holds : post p ()) :
    (native (log priority format args)).wp env.follow post p :=
  (log_wp priority format args p).mono fun _ _ same => same ▸ holds

theorem log_seq {β : Type} {f : Unit → Init β} {post : Progress → β → Prop} {priority : Priority}
    {format : String} {args : List Arg} {p : Progress} (rest : (f ()).wp env.follow post p) :
    (native (log priority format args) >>= f).wp env.follow post p :=
  (log_wp priority format args p).bind fun _ _ same => same ▸ rest

theorem threadAttach_wp (domain : Ptr) (p : Progress) : (native (api (.threadAttach domain))).wp env.follow
    (fun q thread => q = p.record (.attach env.thread) ∧ thread = env.thread) p :=
  native_wp ⟨trivial, fun _ _ => ⟨trivial, fun _ told => ⟨rfl, told⟩⟩⟩

theorem detach_wp {p : Progress} (tied : p.api .threadDetach ≠ 0 ↔ env.Detaches) :
    (native (detach env.thread)).wp env.follow
      (fun q _ => q.api = p.api ∧ ∃ last, env.Detached last ∧ q.events = p.events ++ last) p := by
  refine native_wp ⟨trivial, fun fn read => ?_⟩
  obtain rfl : fn = p.api .threadDetach := read
  refine .ite (fun bound => ⟨trivial, fun _ _ => ?_⟩) fun unbound => ?_
  · exact ⟨rfl, _, ⟨fun _ => rfl, fun never => absurd (tied.mp bound) never⟩, rfl⟩
  · exact ⟨rfl, [], ⟨fun detaches => absurd (tied.mpr detaches) unbound, fun _ => rfl⟩,
      (List.append_nil _).symm⟩

theorem awaitImage_wp (p : Progress) (fresh : p.images = 0) : awaitImage.wp env.follow (fun q found =>
    (found.isSome ↔ ∃ i < kWaitSteps, env.image "Assembly-CSharp.dll" i ≠ 0) ∧ q.api = p.api ∧
      ∃ walks, q.events = p.events ++ List.replicate walks .walk) p := by
  obtain ⟨api, libraries, symbols, domains, counts, _, events⟩ := p
  obtain rfl : _ = 0 := fresh
  rw [show events = events ++ List.replicate 0 Event.walk from (List.append_nil _).symm]
  refine Prog.wp.mono (Prog.wp_poll_asked (fun i => nonNull (env.image "Assembly-CSharp.dll" i))
    (fun i => ⟨api, libraries, symbols, domains, counts, i, events ++ List.replicate i .walk⟩)
    (fun i => ?_) pause_wp kWaitSteps) fun q found after => ?_
  · refine ⟨trivial, fun image told => ⟨?_, congrArg nonNull told⟩⟩
    simp [follow, answer, Progress.record, List.replicate_succ']
  · simp only [nonNull_ne_none] at after
    obtain ⟨asked, _, i, rfl⟩ := after
    exact ⟨asked, rfl, i, by simp⟩

theorem installAndReport_wp (p : Progress) : installAndReport.wp env.follow (fun q _ =>
    q = { p with events := p.events ++ [.photonInstallHooks, .guardInstallHooks] }) p := by
  have both : (p.record .photonInstallHooks).record .guardInstallHooks =
      { p with events := p.events ++ [.photonInstallHooks, .guardInstallHooks] } := by
    simp [Progress.record]
  refine ⟨trivial, fun photon _ => ⟨trivial, fun guard _ => ?_⟩⟩
  refine .ite (fun _ => report_wp _ _ _ both) fun _ => ?_
  refine .ite (fun _ => log_seq ?_) fun _ => ?_
  · exact .ite (fun _ => report_wp _ _ _ both) fun _ => both
  · exact .ite (fun _ => report_wp _ _ _ both) fun _ => both

theorem attachedPhase_wp (p : Progress) (attached : env.Attached)
    (tied : p.api .threadDetach ≠ 0 ↔ env.Detaches) (fresh : p.images = 0)
    (events : p.events = [.attach env.thread]) :
    (attachedPhase env.thread).wp env.follow (fun q _ => Outcome env q.events ∧ q.api = p.api) p := by
  refine log_seq ((awaitImage_wp p fresh).bind ?_)
  rintro q found ⟨asked, api, walks, walked⟩
  rw [events] at walked
  have tied : q.api .threadDetach ≠ 0 ↔ env.Detaches := api ▸ tied
  cases found with
  | none =>
    refine log_seq ((detach_wp tied).mono ?_)
    rintro r _ ⟨kept, last, detached, total⟩
    rw [total, walked]
    exact ⟨.imageless attached (fun reaches => nomatch asked.mpr reaches.2) detached, kept.trans api⟩
  | some image =>
    refine log_seq ((installAndReport_wp q).bind ?_)
    rintro _ _ rfl
    refine (detach_wp
      (p := { q with events := q.events ++ [.photonInstallHooks, .guardInstallHooks] }) tied).bind ?_
    rintro r _ ⟨kept, last, detached, total⟩
    refine report_wp _ _ _ ?_
    rw [total, walked]
    exact ⟨.installed ⟨attached, asked.mp rfl⟩ detached, kept.trans api⟩

theorem domainPhase_wp (p : Progress) {domain : Ptr} (present : domain ≠ 0)
    (library : ∃ i < kWaitSteps, env.library i ≠ none) (exports : ∃ n ≤ kWaitSteps, env.ResolvedBy n)
    (found : ∃ i < kWaitSteps, env.domain i ≠ 0) (bound : ∀ f, f ≠ .threadDetach → p.api f ≠ 0)
    (tied : p.api .threadDetach ≠ 0 ↔ env.Detaches) (counts : p.counts = 0) (images : p.images = 0)
    (events : p.events = []) :
    (domainPhase domain).wp env.follow (fun q _ => Outcome env q.events ∧ q.api = p.api) p := by
  refine log_seq ((settle_wp present kWaitSteps 0 0 p (bound _ nofun)).bind ?_)
  rintro q ⟨stable, last⟩ ⟨i, same, rfl⟩
  have settled : kStableChecks ≤ stable ↔ env.Settles := by
    rw [show stable = _ from congrArg Prod.fst same, counts]
    exact settling_iff
  refine .ite (fun unsettled => report_wp _ _ _ ?_) fun enough => ?_
  · have never : ¬env.Ready := fun ready => absurd (settled.mpr ready.settled) (not_le.mpr unsettled)
    rw [events]
    exact ⟨.unready never, rfl⟩
  have ready : env.Ready := ⟨library, exports, found, settled.mp (not_lt.mp enough)⟩
  refine log_seq ((usleep_wp kSettleUs _).bind ?_)
  rintro _ _ rfl
  refine (threadAttach_wp domain _).seq (.ite (fun refused => report_wp _ _ _ ?_) fun attached => ?_)
  · refine ⟨?_, rfl⟩
    simpa [Progress.record, events] using Outcome.refused refused
  · exact attachedPhase_wp _ ⟨ready, attached⟩ tied images (by simp [Progress.record, events])

theorem initThread_wp :
    initThread.wp env.follow (fun q _ => Outcome env q.events ∧ env.Bindings q) .start := by
  refine log_seq ((awaitLibrary_wp .start rfl).bind ?_)
  rintro _ library ⟨library_iff, i, rfl⟩
  cases library with
  | none =>
    have never : ¬env.Ready := fun ready => nomatch library_iff.mpr ready.library
    have absent (i : Nat) (below : i < kWaitSteps) : env.library i = none :=
      not_not.mp fun found => nomatch library_iff.mpr ⟨i, below, found⟩
    have calls : env.Resolves 0 :=
      ⟨fun _ => rfl, fun i below found => absurd (absent i below) found, Nat.zero_le _, nofun⟩
    exact report_wp _ _ _ ⟨.unready never, 0, calls, fun _ => rfl⟩
  | some base =>
    refine log_seq ((awaitExports_wp _ (library_iff.mp rfl) rfl rfl).bind ?_)
    rintro q resolved ⟨only, bindings, resolved_iff, bound⟩
    have events : q.events = [] := by rw [only]; rfl
    have domains : q.domains = 0 := by rw [only]; rfl
    have counts : q.counts = 0 := by rw [only]; rfl
    have images : q.images = 0 := by rw [only]; rfl
    cases resolved with
    | none =>
      have never : ¬env.Ready := fun ready => nomatch resolved_iff.mpr ready.exports
      exact report_wp _ _ _ ⟨events ▸ .unready never, bindings⟩
    | some _ =>
      obtain ⟨bound, tied⟩ := bound rfl
      refine log_seq ((awaitDomain_wp q domains).bind ?_)
      rintro _ domain ⟨domain_iff, present, j, rfl⟩
      cases domain with
      | none =>
        have never : ¬env.Ready := fun ready => nomatch domain_iff.mpr ready.domain
        exact report_wp _ _ _ ⟨events ▸ .unready never, bindings⟩
      | some domain =>
        obtain ⟨n, calls, first⟩ := bindings
        have phase := domainPhase_wp { q with domains := j } (present domain rfl) (library_iff.mp rfl)
          (resolved_iff.mp rfl) (domain_iff.mp rfl) bound tied counts images events
        refine phase.mono fun r _ after => ⟨after.1, ?_⟩
        exact ⟨n, calls, fun f => (congrFun after.2 f).trans (first f)⟩

theorem Detached.plain (test : Event → Bool) {last : List Event} (detached : env.Detached last)
    (passed : test (.detach env.thread) = false) : last.filter test = [] := by
  by_cases detaches : env.Detaches
  · simp [detached.1 detaches, passed]
  · simp [detached.2 detaches]

theorem filter_walks {test : Event → Bool} (passed : test .walk = false) (walks : Nat) :
    (List.replicate walks .walk).filter test = [] := by
  rw [List.filter_replicate, if_neg (by simp [passed])]

theorem Detached.kept {last : List Event} (detached : env.Detached last) :
    last.filter Event.isDetach = last := by
  by_cases detaches : env.Detaches
  · simp [detached.1 detaches, Event.isDetach]
  · simp [detached.2 detaches]

theorem Outcome.installs {events : List Event} (outcome : env.Outcome events) :
    (env.Reaches → events.filter Event.isInstall = [.photonInstallHooks, .guardInstallHooks]) ∧
      (¬env.Reaches → events.filter Event.isInstall = []) := by
  have first : ¬(Event.attach env.thread).isInstall = true := nofun
  cases outcome with
  | unready never => exact ⟨fun reaches => absurd reaches.1.1 never, fun _ => rfl⟩
  | refused null => exact ⟨fun reaches => absurd null reaches.1.2, fun _ => rfl⟩
  | imageless attached never detached =>
    refine ⟨fun reaches => absurd reaches never, fun _ => ?_⟩
    rw [List.filter_append, List.filter_cons_of_neg first, filter_walks rfl,
      detached.plain Event.isInstall rfl]
    rfl
  | installed reaches detached =>
    refine ⟨fun _ => ?_, fun never => absurd reaches never⟩
    rw [List.filter_append, List.filter_append, List.filter_cons_of_neg first, filter_walks rfl,
      detached.plain Event.isInstall rfl]
    rfl

theorem Outcome.detaches {events : List Event} (outcome : env.Outcome events) :
    (env.Attached ∧ env.Detaches → events.filter Event.isDetach = [.detach env.thread]) ∧
      (¬(env.Attached ∧ env.Detaches) → events.filter Event.isDetach = []) := by
  have last {last : List Event} (attached : env.Attached) (detached : env.Detached last) :
      (env.Attached ∧ env.Detaches → last = [.detach env.thread]) ∧
        (¬(env.Attached ∧ env.Detaches) → last = []) :=
    ⟨fun both => detached.1 both.2, fun neither => detached.2 fun detaches => neither ⟨attached, detaches⟩⟩
  cases outcome with
  | unready never => exact ⟨fun both => absurd both.1.1 never, fun _ => rfl⟩
  | refused null => exact ⟨fun both => absurd null both.1.2, fun _ => rfl⟩
  | imageless attached _ detached => simpa [Event.isDetach, detached.kept] using last attached detached
  | installed reaches detached => simpa [Event.isDetach, detached.kept] using last reaches.1 detached

theorem mem_of_cons_eq {first e : Event} {rest before after : List Event}
    (same : first :: rest = before ++ e :: after) (other : e ≠ first) : first ∈ before := by
  cases before with
  | nil => exact absurd (List.cons.inj same).1.symm other
  | cons head tail => exact (List.cons.inj same).1 ▸ List.mem_cons_self ..

theorem Outcome.walks {events before after : List Event} {e : Event} (outcome : env.Outcome events)
    (split : events = before ++ e :: after) (walk : e.isWalk = true) :
    .attach env.thread ∈ before ∧ env.thread ≠ 0 := by
  have other : e ≠ .attach env.thread := by
    rintro rfl
    cases walk
  cases outcome with
  | unready => cases before <;> cases split
  | refused null =>
    cases before with
    | nil =>
      cases split
      cases walk
    | cons head tail => cases tail <;> cases split
  | imageless attached _ _ => exact ⟨mem_of_cons_eq split other, attached.2⟩
  | installed reaches _ => exact ⟨mem_of_cons_eq split other, reaches.1.2⟩

/-- An export that is bound stays bound to the same address. -/
theorem api_kept {α : Type} {p : Init α} {s : Progress}
    (only : ∀ entry ∈ p.trace env.answer s, Unbound entry.state entry.op) {f : Api}
    (bound : s.api f ≠ 0) : (p.eval env.answer s).2.api f = s.api f := by
  induction p generalizing s with
  | done value => rfl
  | ask op next ih =>
    obtain ⟨here, later⟩ := List.forall_mem_cons.mp only
    have kept : (env.answer s op).2.api f = s.api f := answer_api here bound
    exact (ih _ later (kept ▸ bound)).trans kept

theorem trace_api_kept {α : Type} {p : Init α} {s : Progress}
    (only : ∀ entry ∈ p.trace env.answer s, Unbound entry.state entry.op) {f : Api} :
    ∀ entry ∈ p.trace env.answer s, entry.state.api f ≠ 0 →
      (p.eval env.answer s).2.api f = entry.state.api f := by
  induction p generalizing s with
  | done value => exact nofun
  | ask op next ih =>
    intro entry member bound
    rcases List.mem_cons.mp member with rfl | later
    · exact api_kept only bound
    · exact ih _ (List.forall_mem_cons.mp only).2 entry later bound

end Environment

/-- For every sequence of answers: the hooks are installed once, Photon's
first, exactly if every stage succeeds within its limit; the assembly array is
not walked before a successful attach; the attached thread is detached once,
if `thread_detach` is bound, and nothing else ever is; and an export that is
bound stays bound to the same address, the first that a call of `resolve`
found for it. -/
theorem init_protocol (env : Environment) :
    let final := (initThread.eval env.answer Progress.start).2
    ((env.Reaches → final.events.filter Event.isInstall = [.photonInstallHooks, .guardInstallHooks]) ∧
      (¬env.Reaches → final.events.filter Event.isInstall = [])) ∧
    (∀ before e after, final.events = before ++ e :: after → e.isWalk = true →
      .attach env.thread ∈ before ∧ env.thread ≠ 0) ∧
    ((env.Attached ∧ env.Detaches → final.events.filter Event.isDetach = [.detach env.thread]) ∧
      (¬(env.Attached ∧ env.Detaches) → final.events.filter Event.isDetach = [])) ∧
    (∃ calls, env.Resolves calls ∧ ∀ f, final.api f = env.firstSymbol f calls) ∧
    ∀ entry ∈ initThread.trace env.answer Progress.start, ∀ f, entry.state.api f ≠ 0 →
      final.api f = entry.state.api f := by
  intro final
  obtain ⟨outcome, bindings⟩ := env.initThread_wp.eval id fun _ _ => ⟨rfl, rfl⟩
  have unbound := env.initThread_wp.trace id fun _ _ => ⟨rfl, rfl⟩
  refine ⟨outcome.installs, fun _ _ _ split walk => outcome.walks split walk,
    outcome.detaches, bindings, ?_⟩
  exact fun entry member f bound => Environment.trace_api_kept unbound entry member bound

end Opg3d.InitThread
