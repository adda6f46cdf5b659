import Opg3d.Kit.Ledger

namespace Kit

variable {S : Signature} {σ τ Site W α : Type}

/-- The exchanges of the program beside, in the order of a run. -/
def asides : List (Label S Site W) → List (Exchange S)
  | [] => []
  | .beside op answer :: labels => ⟨op, answer⟩ :: asides labels
  | _ :: labels => asides labels

namespace Prog

/-- The program does not leave a property of a monitor's states. -/
def Keeps (M : Monitor S τ) (inv : τ → Prop) (p : Prog S α) : Prop :=
  ∀ t, inv t → p.wp M (fun u _ => inv u) t

theorem Keeps.seq {β : Type} {M : Monitor S τ} {inv : τ → Prop} {p : Prog S α} {f : α → Prog S β}
    (first : Keeps M inv p) (second : ∀ a, Keeps M inv (f a)) : Keeps M inv (p >>= f) :=
  fun t holds => (first t holds).bind fun u a again => second a u again

theorem wp.both {M : Monitor S τ} {p : Prog S α} {post post' : τ → α → Prop} {t : τ} (first : p.wp M post t)
    (second : p.wp M post' t) : p.wp M (fun u a => post u a ∧ post' u a) t := by
  induction p generalizing t with
  | done value => exact ⟨first, second⟩
  | ask op next ih =>
    exact ⟨first.1, fun answer given =>
      ih answer (first.2 answer given) (second.2 answer given)⟩

/-- Operations of one kind that keep it. -/
theorem Only.keeps {M : Monitor S τ} {inv : τ → Prop} {told : (op : S.Op) → S.Ans op → Prop}
    {may : S.Op → Prop} {p : Prog S α} (only : Only told may p)
    (kept : ∀ t op, inv t → may op → M.ok t op ∧ ∀ answer,
      M.allow t op answer → told op answer ∧ inv (M.next t op answer)) :
    Keeps M inv p := by
  intro t holds
  induction p generalizing t with
  | done value => exact holds
  | ask op next ih =>
    obtain ⟨ok, later⟩ := kept t op holds only.1
    refine ⟨ok, fun answer given => ?_⟩
    obtain ⟨told, again⟩ := later answer given
    exact ih answer (only.2 answer told) _ again

end Prog

namespace Machine

variable {M : Machine S σ Site W}

/-- A monitor of the program beside with a state of its own: how that is tied
to the shared state, in a form that every step of anyone preserves. -/
structure Aside (D : M.Discipline) (watch : Monitor S τ) where
  tied : σ → τ → Prop
  opening : ∀ {s t}, tied s t → tied (M.opening s) t
  answered : ∀ {s t site op next answer}, D.holds s site (.ask op next) → M.admits s op answer → tied s t →
    tied (M.after s op answer) t
  followed : ∀ {s t op answer}, tied s t → watch.ok t op → M.admits s op answer →
    watch.allow t op answer ∧ tied (M.after s op answer) (watch.next t op answer)

variable {D : M.Discipline} {watch : Monitor S τ} {fits : Config S σ Site W → Label S Site W → Prop}

/-- The monitor goes on accepting the program beside along every run, and its
state is what that program's exchanges have made of it. -/
theorem Aside.run (A : Aside D watch) (fit : ∀ c label, fits c label → M.EntersBy D.fit c label)
    {c d : Config S σ Site W} {labels : List (Label S Site W)} (run : M.RunWhere fits c labels d)
    (kept : D.Kept c) {t : τ} (tied : A.tied c.shared t) {post : τ → Unit → Prop}
    (verified : c.beside.wp watch post t) :
    A.tied d.shared ((asides labels).foldl (fun u e => watch.next u e.op e.answer) t) ∧
      d.beside.wp watch post ((asides labels).foldl (fun u e => watch.next u e.op e.answer) t) := by
  induction run generalizing t with
  | stop => exact ⟨tied, verified⟩
  | @step c d e label labels fits' first _ ih =>
    have again := D.step kept (fit _ _ fits') first
    cases first with
    | @call s stack beside site args host quiet =>
      cases stack with
      | nil => exact ih again (A.opening tied) verified
      | cons => exact ih again tied verified
    | finish | leap | leave => exact ih again tied verified
    | answer _ given => exact ih again (A.answered (kept.2.2 _ _ (List.mem_cons_self ..)) given tied) verified
    | beside _ given =>
      obtain ⟨allowed, still⟩ := A.followed tied verified.1 given
      exact ih again still (verified.2 _ allowed)

/-- A property of the shared state that no step of a disciplined run takes away. -/
structure Discipline.Stays (D : M.Discipline) (stays : σ → Prop) : Prop where
  opening : ∀ {s}, stays s → stays (M.opening s)
  answered : ∀ {s site op next answer}, D.inv s → D.holds s site (.ask op next) → M.outgoing op = none →
    M.admits s op answer → stays s → stays (M.after s op answer)
  asideAnswered : ∀ {s op next answer}, D.inv s → D.aside s (.ask op next) → M.outgoing op = none →
    M.admits s op answer → stays s → stays (M.after s op answer)

theorem Discipline.Stays.step {stays : σ → Prop} (lasting : D.Stays stays) {c d : Config S σ Site W}
    {label : Label S Site W}
    (kept : D.Kept c) (holds : stays c.shared) (step : M.Step c label d) : stays d.shared := by
  obtain ⟨inv, aside, held⟩ := kept
  cases step with
  | @call s stack beside site args host quiet =>
    cases stack with
    | nil => exact lasting.opening holds
    | cons => exact holds
  | finish | leap | leave => exact holds
  | answer here given => exact lasting.answered inv (held _ _ (List.mem_cons_self ..)) here given holds
  | beside here given => exact lasting.asideAnswered inv aside here given holds

/-- What has come about once holds from then on. -/
theorem Discipline.Stays.run {stays : σ → Prop} (lasting : D.Stays stays)
    (fit : ∀ c label, fits c label → M.EntersBy D.fit c label)
    {c d : Config S σ Site W} {labels : List (Label S Site W)} (kept : D.Kept c) (holds : stays c.shared)
    (run : M.RunWhere fits c labels d) : stays d.shared := by
  induction run with
  | stop => exact holds
  | step fits first _ ih => exact ih (D.step kept (fit _ _ fits) first) (lasting.step kept holds first)

end Machine

end Kit
