import Mathlib.Logic.Basic

namespace Kit

/-- The operations a program may perform, each with the type of the answer
its surroundings give. -/
structure Signature where
  Op : Type
  Ans : Op → Type

/-- A program: it either has finished with a value, or performs one
operation and goes on with whatever it is answered. -/
inductive Prog (S : Signature) (α : Type) : Type where
  | done (value : α)
  | ask (op : S.Op) (next : S.Ans op → Prog S α)

namespace Prog

variable {S T : Signature} {α β γ σ : Type}

def bind : Prog S α → (α → Prog S β) → Prog S β
  | .done value, f => f value
  | .ask op next, f => .ask op fun answer => (next answer).bind f

instance : Monad (Prog S) where
  pure := .done
  bind := bind

@[simp] theorem pure_eq (value : α) : (Pure.pure value : Prog S α) = .done value := rfl

@[simp] theorem bind_eq (p : Prog S α) (f : α → Prog S β) : p >>= f = p.bind f := rfl

@[simp] theorem done_bind (value : α) (f : α → Prog S β) : (Prog.done value).bind f = f value := rfl

@[simp] theorem ask_bind (op : S.Op) (next : S.Ans op → Prog S α) (f : α → Prog S β) :
    (Prog.ask op next).bind f = .ask op fun answer => (next answer).bind f := rfl

theorem bind_assoc (p : Prog S α) (f : α → Prog S β) (g : β → Prog S γ) :
    (p.bind f).bind g = p.bind fun a => (f a).bind g := by
  induction p with
  | done value => rfl
  | ask op next ih => exact congrArg (Prog.ask op) (funext ih)

@[simp] theorem bind_done (p : Prog S α) : p.bind .done = p := by
  induction p with
  | done value => rfl
  | ask op next ih => exact congrArg (Prog.ask op) (funext ih)

/-- Linking: every operation of one signature is replaced by a program over
another, and the answers are handed on. -/
def interp (link : (op : S.Op) → Prog T (S.Ans op)) : Prog S α → Prog T α
  | .done value => .done value
  | .ask op next => (link op).bind fun answer => (next answer).interp link

@[simp] theorem interp_done (link : (op : S.Op) → Prog T (S.Ans op)) (value : α) :
    (Prog.done value).interp link = .done value := rfl

@[simp] theorem interp_ask (link : (op : S.Op) → Prog T (S.Ans op)) (op : S.Op)
    (next : S.Ans op → Prog S α) :
    (Prog.ask op next).interp link = (link op).bind fun answer => (next answer).interp link :=
  rfl

theorem interp_bind (link : (op : S.Op) → Prog T (S.Ans op)) (p : Prog S α) (f : α → Prog S β) :
    (p.bind f).interp link = (p.interp link).bind fun a => (f a).interp link := by
  induction p with
  | done value => rfl
  | ask op next ih => simp only [ask_bind, interp_ask, ih, bind_assoc]

/-- A bounded polling loop: sample until there is a result, pausing after
each sample without one. -/
def poll (sample : Prog S (Option α)) (pause : Prog S Unit) : Nat → Prog S (Option α)
  | 0 => .done none
  | steps + 1 => sample.bind fun
    | some result => .done (some result)
    | none => pause.bind fun _ => poll sample pause steps

theorem interp_poll (link : (op : S.Op) → Prog T (S.Ans op)) (sample : Prog S (Option α))
    (pause : Prog S Unit) (n : Nat) :
    (poll sample pause n).interp link = poll (sample.interp link) (pause.interp link) n := by
  induction n with
  | zero => rfl
  | succ n ih =>
    simp only [poll, interp_bind]
    congr 1
    funext result
    cases result with
    | none => simp only [interp_bind, ih]
    | some result => rfl

def eval (answer : σ → (op : S.Op) → S.Ans op × σ) : Prog S α → σ → α × σ
  | .done value, s => (value, s)
  | .ask op next, s => (next (answer s op).1).eval answer (answer s op).2

@[simp] theorem eval_done (answer : σ → (op : S.Op) → S.Ans op × σ) (value : α) (s : σ) :
    (Prog.done value).eval answer s = (value, s) := rfl

@[simp] theorem eval_ask (answer : σ → (op : S.Op) → S.Ans op × σ) (op : S.Op)
    (next : S.Ans op → Prog S α) (s : σ) :
    (Prog.ask op next).eval answer s = (next (answer s op).1).eval answer (answer s op).2 :=
  rfl

@[simp] theorem eval_bind (answer : σ → (op : S.Op) → S.Ans op × σ) (p : Prog S α) (f : α → Prog S β)
    (s : σ) : (p.bind f).eval answer s = (f (p.eval answer s).1).eval answer (p.eval answer s).2 := by
  induction p generalizing s with
  | done value => rfl
  | ask op next ih => exact ih _ _

/-- A first part that computes a value hands it on. -/
theorem eval_seq {answer : σ → (op : S.Op) → S.Ans op × σ} {p : Prog S α} {f : α → Prog S β} {s t : σ}
    {value : α} (first : p.eval answer s = (value, t)) :
    (p >>= f).eval answer s = (f value).eval answer t := by
  rw [bind_eq, eval_bind, first]

theorem eval_pos {answer : σ → (op : S.Op) → S.Ans op × σ} {c : Prop} [Decidable c] {p q : Prog S α} {s : σ}
    (holds : c) : (if c then p else q).eval answer s = p.eval answer s := by
  rw [if_pos holds]

theorem eval_neg {answer : σ → (op : S.Op) → S.Ans op × σ} {c : Prop} [Decidable c] {p q : Prog S α} {s : σ}
    (fails : ¬c) : (if c then p else q).eval answer s = q.eval answer s := by
  rw [if_neg fails]

end Prog

/-- One operation of a run, with the state it was performed in. -/
structure Performed (S : Signature) (σ : Type) where
  state : σ
  op : S.Op

namespace Prog

variable {S : Signature} {α β σ : Type}

/-- The operations a program performs under such a surrounding, in order. -/
def trace (answer : σ → (op : S.Op) → S.Ans op × σ) : Prog S α → σ → List (Performed S σ)
  | .done _, _ => []
  | .ask op next, s => ⟨s, op⟩ :: (next (answer s op).1).trace answer (answer s op).2

@[simp] theorem trace_done (answer : σ → (op : S.Op) → S.Ans op × σ) (value : α) (s : σ) :
    (Prog.done value).trace answer s = [] := rfl

@[simp] theorem trace_ask (answer : σ → (op : S.Op) → S.Ans op × σ) (op : S.Op)
    (next : S.Ans op → Prog S α) (s : σ) :
    (Prog.ask op next).trace answer s = ⟨s, op⟩ :: (next (answer s op).1).trace answer (answer s op).2 :=
  rfl

@[simp] theorem trace_bind (answer : σ → (op : S.Op) → S.Ans op × σ) (p : Prog S α) (f : α → Prog S β)
    (s : σ) :
    (p.bind f).trace answer s = p.trace answer s ++ (f (p.eval answer s).1).trace answer (p.eval answer s).2 := by
  induction p generalizing s with
  | done value => rfl
  | ask op next ih => simp only [ask_bind, trace_ask, eval_ask, ih, List.cons_append]

end Prog

/-- The finished runs of a program in surroundings given by a step relation.
The list holds the program's own operations in order, none of the steps that
its surroundings take to answer them. -/
inductive Exec {S : Signature} {α σ : Type} (step : σ → (op : S.Op) → S.Ans op → σ → Prop) :
    Prog S α → σ → List (Performed S σ) → α → σ → Prop
  | done {value s} : Exec step (.done value) s [] value s
  | ask {op next s answer t trace value u} : step s op answer t → Exec step (next answer) t trace value u →
      Exec step (.ask op next) s (⟨s, op⟩ :: trace) value u

/-- A finished run of a sequence is a run of its first part and then one of the rest. -/
theorem Exec.bind_cases {S : Signature} {α β σ : Type} {step : σ → (op : S.Op) → S.Ans op → σ → Prop}
    {p : Prog S α} {f : α → Prog S β} {s u : σ} {trace : List (Performed S σ)} {value : β}
    (run : Exec step (p >>= f) s trace value u) :
    ∃ first a t second, Exec step p s first a t ∧ Exec step (f a) t second value u ∧
      trace = first ++ second := by
  induction p generalizing s trace with
  | done a => exact ⟨[], a, s, trace, .done, run, rfl⟩
  | ask op next ih =>
    cases run with
    | ask given rest =>
      obtain ⟨first, a, t, second, here, there, rfl⟩ := ih _ rest
      exact ⟨_, a, t, second, .ask given here, there, rfl⟩

namespace Prog

variable {S : Signature} {α σ : Type}

/-- Whether the answers of such a surrounding pass a test all along. -/
def check (answer : σ → (op : S.Op) → S.Ans op × σ) (test : σ → S.Op → Bool) : Prog S α → σ → Bool
  | .done _, _ => true
  | .ask op next, s => test s op && (next (answer s op).1).check answer test (answer s op).2

/-- A surrounding whose answers are steps gives a finished run. -/
theorem exec_of_check {step : σ → (op : S.Op) → S.Ans op → σ → Prop}
    {answer : σ → (op : S.Op) → S.Ans op × σ} {test : σ → S.Op → Bool}
    (sound : ∀ s op, test s op = true → step s op (answer s op).1 (answer s op).2) {p : Prog S α}
    {s : σ} (passed : p.check answer test s = true) :
    Exec step p s (p.trace answer s) (p.eval answer s).1 (p.eval answer s).2 := by
  induction p generalizing s with
  | done value => exact .done
  | ask op next ih =>
    obtain ⟨here, later⟩ := (Bool.and_eq_true _ _).mp passed
    exact .ask (sound s op here) (ih _ later)

end Prog

/-- A monitor watches the operations of a program. In each of its states it
constrains the answers that have to be considered and says which operations
are allowed, and it moves on with every answer. -/
structure Monitor (S : Signature) (σ : Type) where
  allow : σ → (op : S.Op) → S.Ans op → Prop
  ok : σ → S.Op → Prop
  next : σ → (op : S.Op) → S.Ans op → σ

namespace Prog

variable {S : Signature} {α β σ τ : Type}

/-- On every path of the program the monitor accepts each operation, and the
value returned satisfies the postcondition in the monitor's last state. -/
def wp (M : Monitor S σ) : Prog S α → (σ → α → Prop) → σ → Prop
  | .done value, post, s => post s value
  | .ask op next, post, s => M.ok s op ∧ ∀ answer,
    M.allow s op answer → (next answer).wp M post (M.next s op answer)

@[simp] theorem wp_done (M : Monitor S σ) (value : α) (post : σ → α → Prop) (s : σ) :
    (Prog.done value).wp M post s ↔ post s value := Iff.rfl

@[simp] theorem wp_ask (M : Monitor S σ) (op : S.Op) (next : S.Ans op → Prog S α) (post : σ → α → Prop)
    (s : σ) :
    (Prog.ask op next).wp M post s ↔
      M.ok s op ∧ ∀ answer, M.allow s op answer → (next answer).wp M post (M.next s op answer) := Iff.rfl

theorem wp_bind (M : Monitor S σ) (p : Prog S α) (f : α → Prog S β) (post : σ → β → Prop) (s : σ) :
    (p.bind f).wp M post s ↔ p.wp M (fun t a => (f a).wp M post t) s := by
  induction p generalizing s with
  | done value => rfl
  | ask op next ih => simp only [ask_bind, wp_ask, ih]

theorem wp.mono {M : Monitor S σ} {p : Prog S α} {post post' : σ → α → Prop} {s : σ}
    (run : p.wp M post s) (weaken : ∀ t a, post t a → post' t a) : p.wp M post' s := by
  induction p generalizing s with
  | done value => exact weaken s value run
  | ask op next ih => exact ⟨run.1, fun answer given => ih answer (run.2 answer given)⟩

theorem wp.bind {M : Monitor S σ} {p : Prog S α} {f : α → Prog S β} {mid : σ → α → Prop}
    {post : σ → β → Prop} {s : σ} (first : p.wp M mid s) (second : ∀ t a, mid t a → (f a).wp M post t) :
    (p >>= f).wp M post s :=
  (wp_bind M p f post s).mpr (first.mono second)

theorem wp.ite {M : Monitor S σ} {c : Prop} [Decidable c] {p q : Prog S α} {post : σ → α → Prop} {s : σ}
    (yes : c → p.wp M post s) (no : ¬c → q.wp M post s) : (if c then p else q).wp M post s := by
  split
  · rename_i holds
    exact yes holds
  · rename_i fails
    exact no fails

/-- A polling loop keeps what its sample, on a failure, and its pause keep. -/
theorem wp_poll {M : Monitor S σ} {sample : Prog S (Option α)} {pause : Prog S Unit}
    {post : σ → Option α → Prop} (sampled : ∀ s, post s none → sample.wp M post s)
    (paused : ∀ s, post s none → pause.wp M (fun t _ => post t none) s) (n : Nat) {s : σ}
    (start : post s none) : (poll sample pause n).wp M post s := by
  induction n generalizing s with
  | zero => exact start
  | succ n ih =>
    simp only [poll, wp_bind]
    refine (sampled s start).mono fun t result after => ?_
    cases result with
    | some result => exact after
    | none =>
      simp only [wp_bind]
      exact (paused t after).mono fun u _ again => ih again

/-- The same with a count: `inv i` holds after `i` samples without a result,
and `hit i` where the sample after them has one. -/
theorem wp_poll_count {M : Monitor S σ} {sample : Prog S (Option α)} {pause : Prog S Unit}
    (inv : Nat → σ → Prop) (hit : Nat → σ → α → Prop)
    (sampled : ∀ i s, inv i s → sample.wp M (fun t result => result.elim (inv (i + 1) t) (hit i t)) s)
    (paused : ∀ i s, inv i s → pause.wp M (fun t _ => inv i t) s) (n : Nat) {s : σ} (start : inv 0 s) :
    (poll sample pause n).wp M (fun t result => result.elim (inv n t) fun value =>
      ∃ i < n, hit i t value) s := by
  induction n generalizing inv hit s with
  | zero => exact start
  | succ n ih =>
    simp only [poll, wp_bind]
    refine (sampled 0 s start).mono fun t result after => ?_
    cases result with
    | some value => exact ⟨0, n.succ_pos, after⟩
    | none =>
      simp only [wp_bind]
      refine (paused 1 t after).mono fun u _ again => ?_
      refine (ih (fun i => inv (i + 1)) (fun i => hit (i + 1)) (fun i => sampled (i + 1))
        (fun i => paused (i + 1)) again).mono fun v result found => ?_
      cases result with
      | none => exact found
      | some value =>
        obtain ⟨i, below, hit⟩ := found
        exact ⟨i + 1, Nat.succ_lt_succ below, hit⟩

/-- The same where the samples answer one question again and again. -/
theorem wp_poll_asked {M : Monitor S σ} {sample : Prog S (Option α)} {pause : Prog S Unit}
    (ask : Nat → Option α) (state : Nat → σ)
    (sampled : ∀ i, sample.wp M (fun t result => t = state (i + 1) ∧ result = ask i) (state i))
    (paused : ∀ s, pause.wp M (fun t _ => t = s) s) (n : Nat) :
    (poll sample pause n).wp M (fun t result => (result.isSome ↔ ∃ i < n, ask i ≠ none) ∧
      (∀ value ∈ result, ∃ i, ask i = some value) ∧ ∃ i, t = state i) (state 0) := by
  let inv (i : Nat) (t : σ) : Prop := t = state i ∧ ∀ k < i, ask k = none
  let hit (i : Nat) (t : σ) (value : α) : Prop := t = state (i + 1) ∧ ask i = some value
  have sampled' (i : Nat) (s : σ) (kept : inv i s) :
      sample.wp M (fun t result => result.elim (inv (i + 1) t) (hit i t)) s := by
    obtain ⟨rfl, failed⟩ := kept
    refine (sampled i).mono ?_
    rintro _ _ ⟨rfl, rfl⟩
    cases asked : ask i with
    | some value => exact ⟨rfl, asked⟩
    | none =>
      refine ⟨rfl, fun k below => ?_⟩
      rcases Nat.lt_succ_iff_lt_or_eq.mp below with before | rfl
      · exact failed k before
      · exact asked
  have paused' (i : Nat) (s : σ) (kept : inv i s) : pause.wp M (fun t _ => inv i t) s :=
    (paused s).mono fun t _ same => same ▸ kept
  refine (wp_poll_count inv hit sampled' paused' n ⟨rfl, nofun⟩).mono fun t result after => ?_
  cases result with
  | none =>
    obtain ⟨at_, failed⟩ := after
    exact ⟨⟨nofun, fun ⟨i, below, answered⟩ => absurd (failed i below) answered⟩, nofun, n, at_⟩
  | some value =>
    obtain ⟨i, below, at_, answered⟩ := after
    refine ⟨⟨fun _ => ⟨i, below, answered ▸ nofun⟩, fun _ => rfl⟩, ?_, i + 1, at_⟩
    rintro _ ⟨⟩
    exact ⟨i, answered⟩

/-- A first part that ends in one state of the monitor with one value. -/
theorem wp.seq {M : Monitor S σ} {p : Prog S α} {f : α → Prog S β} {post : σ → β → Prop} {s t : σ}
    {value : α} (first : p.wp M (fun u a => u = t ∧ a = value) s) (second : (f value).wp M post t) :
    (p >>= f).wp M post s := by
  refine first.bind ?_
  rintro t a ⟨rfl, rfl⟩
  exact second

/-- The same for evaluation: the monitor follows what the surroundings answer. -/
theorem wp.eval {M : Monitor S τ} {answer : σ → (op : S.Op) → S.Ans op × σ} (view : σ → τ)
    {p : Prog S α} {post : τ → α → Prop} {s : σ}
    (follows : ∀ s op, M.allow (view s) op (answer s op).1 ∧
      view (answer s op).2 = M.next (view s) op (answer s op).1)
    (verified : p.wp M post (view s)) : post (view (p.eval answer s).2) (p.eval answer s).1 := by
  induction p generalizing s with
  | done value => exact verified
  | ask op next ih =>
    obtain ⟨allowed, moved⟩ := follows s op
    exact ih _ (moved ▸ verified.2 _ allowed)

/-- What the monitor accepts is all that such a program performs. -/
theorem wp.trace {M : Monitor S τ} {answer : σ → (op : S.Op) → S.Ans op × σ} (view : σ → τ)
    {p : Prog S α} {post : τ → α → Prop} {s : σ}
    (follows : ∀ s op, M.allow (view s) op (answer s op).1 ∧
      view (answer s op).2 = M.next (view s) op (answer s op).1)
    (verified : p.wp M post (view s)) : ∀ entry ∈ p.trace answer s, M.ok (view entry.state) entry.op := by
  induction p generalizing s with
  | done value => exact nofun
  | ask op next ih =>
    obtain ⟨allowed, moved⟩ := follows s op
    intro entry member
    rcases List.mem_cons.mp member with rfl | later
    · exact verified.1
    · exact ih _ (moved ▸ verified.2 _ allowed) entry later

/-- A finished run whose steps the monitor follows ends where the verified
postcondition says. -/
theorem wp.exec {M : Monitor S τ} {step : σ → (op : S.Op) → S.Ans op → σ → Prop} (view : σ → τ)
    {p : Prog S α} {post : τ → α → Prop} {s t : σ} {trace : List (Performed S σ)} {value : α}
    (run : Exec step p s trace value t)
    (follows : ∀ s op answer u, step s op answer u → M.allow (view s) op answer ∧
      view u = M.next (view s) op answer)
    (verified : p.wp M post (view s)) : post (view t) value := by
  induction run with
  | done => exact verified
  | ask first _ ih =>
    obtain ⟨allowed, moved⟩ := follows _ _ _ _ first
    exact ih (moved ▸ verified.2 _ allowed)

end Prog

end Kit
