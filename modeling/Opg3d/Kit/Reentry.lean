import Opg3d.Kit.Program

namespace Kit

/-- An operation that leaves a program for a piece of code: through its entry,
whatever has been put there, or past it to the code itself. -/
structure Exit (S : Signature) (Site W : Type) (op : S.Op) where
  site : Site
  args : List W
  past : Bool
  handBack : W → S.Ans op

/-- Host code with patched entries. Host code calls entries as it likes; a
patched entry starts a program, which may call back into the host. The
remaining operations of a program are answered by its surroundings. Entries
are taken in quiet states only. -/
structure Machine (S : Signature) (σ Site W : Type) where
  admits : σ → (op : S.Op) → S.Ans op → Prop
  after : σ → (op : S.Op) → S.Ans op → σ
  outgoing : (op : S.Op) → Option (Exit S Site W op)
  patch : σ → Site → List W → Option (Prog S W)
  opening : σ → σ
  quiet : σ → Prop

inductive Frame (S : Signature) (Site W : Type) where
  | body (site : Site)
  | code (site : Site) (rest : Prog S W)

/-- The state all code shares, the active calls with the innermost first, and
a program that runs beside them. -/
structure Config (S : Signature) (σ Site W : Type) where
  shared : σ
  stack : List (Frame S Site W)
  beside : Prog S Unit

/-- Every choice that the programs do not make themselves. -/
inductive Label (S : Signature) (Site W : Type) where
  | call (site : Site) (args : List W)
  | finish (result : W)
  | answer (op : S.Op) (answer : S.Ans op)
  | leap
  | leave
  | beside (op : S.Op) (answer : S.Ans op)

namespace Machine

variable {S : Signature} {σ Site W : Type} (M : Machine S σ Site W)

/-- The host is in control when no call is active or a body is innermost. -/
def InHost : List (Frame S Site W) → Prop
  | [] => True
  | .body _ :: _ => True
  | .code _ _ :: _ => False

def enter (s : σ) (site : Site) (args : List W) : Frame S Site W :=
  match M.patch s site args with
  | some program => .code site program
  | none => .body site

def opened (s : σ) (stack : List (Frame S Site W)) : σ :=
  match stack with
  | [] => M.opening s
  | _ => s

def leap (s : σ) {op : S.Op} (exit : Exit S Site W op) : Frame S Site W :=
  if exit.past then .body exit.site else M.enter s exit.site exit.args

/-- A result arrives at the call below, which goes on if it waits for one. -/
def deliver (result : W) : List (Frame S Site W) → List (Frame S Site W)
  | .code site (.ask op next) :: rest =>
    match M.outgoing op with
    | some exit => .code site (next (exit.handBack result)) :: rest
    | none => .code site (.ask op next) :: rest
  | stack => stack

inductive Step : Config S σ Site W → Label S Site W → Config S σ Site W → Prop
  | call {s stack beside site args} : InHost stack → M.quiet s →
      Step ⟨s, stack, beside⟩ (.call site args)
        ⟨M.opened s stack, M.enter (M.opened s stack) site args :: stack, beside⟩
  | finish {s site stack beside result} :
      Step ⟨s, .body site :: stack, beside⟩ (.finish result) ⟨s, M.deliver result stack, beside⟩
  | answer {s site op next stack beside answer} : M.outgoing op = none → M.admits s op answer →
      Step ⟨s, .code site (.ask op next) :: stack, beside⟩ (.answer op answer)
        ⟨M.after s op answer, .code site (next answer) :: stack, beside⟩
  | leap {s site op next stack beside exit} : M.outgoing op = some exit → exit.past = true ∨ M.quiet s →
      Step ⟨s, .code site (.ask op next) :: stack, beside⟩ .leap
        ⟨s, M.leap s exit :: .code site (.ask op next) :: stack, beside⟩
  | leave {s site result stack beside} :
      Step ⟨s, .code site (.done result) :: stack, beside⟩ .leave ⟨s, M.deliver result stack, beside⟩
  | beside {s stack op next answer} : M.outgoing op = none → M.admits s op answer →
      Step ⟨s, stack, .ask op next⟩ (.beside op answer) ⟨M.after s op answer, stack, next answer⟩

/-- Runs whose every step is taken with a label that fits its configuration. -/
inductive RunWhere (fits : Config S σ Site W → Label S Site W → Prop) :
    Config S σ Site W → List (Label S Site W) → Config S σ Site W → Prop
  | stop {c} : RunWhere fits c [] c
  | step {c d e label labels} : fits c label → M.Step c label d → RunWhere fits d labels e →
      RunWhere fits c (label :: labels) e

abbrev Run : Config S σ Site W → List (Label S Site W) → Config S σ Site W → Prop :=
  M.RunWhere fun _ _ => True

/-- A body starts at a site: the step pushes it as the innermost call. -/
def Starts (c d : Config S σ Site W) (site : Site) : Prop := d.stack = .body site :: c.stack

theorem deliver_some {result : W} {site : Site} {op : S.Op} {next : S.Ans op → Prog S W}
    {exit : Exit S Site W op} {rest : List (Frame S Site W)} (leaves : M.outgoing op = some exit) :
    M.deliver result (.code site (.ask op next) :: rest) = .code site (next (exit.handBack result)) :: rest := by
  simp only [deliver, leaves]

theorem deliver_none {result : W} {site : Site} {op : S.Op} {next : S.Ans op → Prog S W}
    {rest : List (Frame S Site W)} (stays : M.outgoing op = none) :
    M.deliver result (.code site (.ask op next) :: rest) = .code site (.ask op next) :: rest := by
  simp only [deliver, stays]

theorem length_deliver (result : W) (stack : List (Frame S Site W)) :
    (M.deliver result stack).length = stack.length := by
  unfold deliver
  split
  · split <;> rfl
  · rfl

variable {M} in
/-- A body starts by a call of an entry that is not patched, or by a leap to
such an entry or past one. -/
theorem Step.starts_cases {c d : Config S σ Site W} {label : Label S Site W} {site : Site}
    (step : M.Step c label d) (starts : Starts c d site) :
    (∃ args, label = .call site args ∧ M.quiet c.shared ∧ d.shared = M.opened c.shared c.stack ∧
      M.patch d.shared site args = none) ∨
    (∃ at_ op next rest, ∃ exit : Exit S Site W op,
      label = .leap ∧ c.stack = .code at_ (.ask op next) :: rest ∧
      M.outgoing op = some exit ∧ exit.site = site ∧ d.shared = c.shared ∧
      (exit.past = false → M.patch c.shared site exit.args = none)) := by
  have grows : d.stack.length = c.stack.length + 1 := by rw [starts, List.length_cons]
  have unpatched {s : σ} {target : Site} {args : List W} (same : M.enter s target args = .body site) :
      target = site ∧ M.patch s target args = none := by
    unfold Machine.enter at same
    split at same
    · cases same
    · rename_i free
      cases same
      exact ⟨rfl, free⟩
  cases step with
  | @call s stack beside target args host quiet =>
    obtain ⟨rfl, free⟩ := unpatched (List.cons.inj starts).1
    exact .inl ⟨args, rfl, quiet, rfl, free⟩
  | @leap s at_ op next stack beside exit leaves quiet =>
    have first : M.leap s exit = .body site := (List.cons.inj starts).1
    unfold Machine.leap at first
    split at first
    · rename_i past
      cases first
      exact .inr ⟨at_, op, next, stack, exit, rfl, rfl, leaves, rfl, rfl, fun through =>
        absurd past (by simp [through])⟩
    · obtain ⟨rfl, free⟩ := unpatched first
      exact .inr ⟨at_, op, next, stack, exit, rfl, rfl, leaves, rfl, rfl, fun _ => free⟩
  | finish => simp only [length_deliver, List.length_cons] at grows; omega
  | leave => simp only [length_deliver, List.length_cons] at grows; omega
  | answer => simp only [List.length_cons] at grows; omega
  | beside => exact absurd grows (by simp)

/-- A step that takes an entry takes one that fits the state it is taken in. -/
def EntersBy (fit : σ → Site → List W → Prop) (c : Config S σ Site W) : Label S Site W → Prop
  | .call site args => fit (M.opened c.shared c.stack) site args
  | .leap => ∀ site op next rest exit, c.stack = .code site (.ask op next) :: rest →
      M.outgoing op = some exit → exit.past = false → fit c.shared exit.site exit.args
  | _ => True

variable {M} in
theorem RunWhere.weaken {fits fits' : Config S σ Site W → Label S Site W → Prop} {c d : Config S σ Site W}
    {labels : List (Label S Site W)} (run : M.RunWhere fits c labels d)
    (imply : ∀ c label, fits c label → fits' c label) : M.RunWhere fits' c labels d := by
  induction run with
  | stop => exact .stop
  | step fit first _ ih => exact .step (imply _ _ fit) first ih

variable {M} in
/-- A property that one fitting step keeps holds in every configuration reached. -/
theorem RunWhere.invariant {fits : Config S σ Site W → Label S Site W → Prop}
    {kept : Config S σ Site W → Prop} {c d : Config S σ Site W} {labels : List (Label S Site W)}
    (run : M.RunWhere fits c labels d)
    (keeps : ∀ c label d, kept c → fits c label → M.Step c label d → kept d) (start : kept c) : kept d := by
  induction run with
  | stop => exact start
  | step fit first _ ih => exact ih (keeps _ _ _ start fit first)

variable {M} in
theorem RunWhere.trans {fits : Config S σ Site W → Label S Site W → Prop} {c d e : Config S σ Site W}
    {labels more : List (Label S Site W)} (run : M.RunWhere fits c labels d)
    (rest : M.RunWhere fits d more e) : M.RunWhere fits c (labels ++ more) e := by
  induction run with
  | stop => exact rest
  | step fit first _ ih => exact .step fit first (ih rest)

/-- What is known of the shared state and of each unfinished program, in a
form that every step of anyone preserves, as long as the entries that are
taken fit. -/
structure Discipline where
  fit : σ → Site → List W → Prop
  inv : σ → Prop
  later : σ → σ → Prop
  holds : σ → Site → Prog S W → Prop
  aside : σ → Prog S Unit → Prop
  later_keeps : ∀ {s t site p}, later s t → holds s site p → holds t site p
  opening_inv : ∀ {s}, inv s → M.quiet s → inv (M.opening s) ∧ M.quiet (M.opening s)
  opening_aside : ∀ {s p}, aside s p → aside (M.opening s) p
  entered : ∀ {s site args p}, inv s → M.quiet s → fit s site args →
    M.patch s site args = some p → holds s site p
  answered : ∀ {s site op next answer}, inv s → holds s site (.ask op next) → M.outgoing op = none →
    M.admits s op answer → inv (M.after s op answer) ∧ later s (M.after s op answer) ∧
      holds (M.after s op answer) site (next answer) ∧ ∀ {p}, aside s p → aside (M.after s op answer) p
  returned : ∀ {s site op next exit result}, holds s site (.ask op next) → M.outgoing op = some exit →
    holds s site (next (exit.handBack result))
  asideAnswered : ∀ {s op next answer}, inv s → aside s (.ask op next) → M.outgoing op = none →
    M.admits s op answer → inv (M.after s op answer) ∧ later s (M.after s op answer) ∧
      aside (M.after s op answer) (next answer)

variable {M}

def Discipline.Kept (D : M.Discipline) (c : Config S σ Site W) : Prop :=
  D.inv c.shared ∧ D.aside c.shared c.beside ∧ ∀ site p, .code site p ∈ c.stack → D.holds c.shared site p

theorem Discipline.enter_holds (D : M.Discipline) {s : σ} {target site : Site} {args : List W}
    {p : Prog S W} (inv : D.inv s) (quiet : M.quiet s) (fit : D.fit s target args)
    (same : Frame.code site p = M.enter s target args) : D.holds s site p := by
  unfold Machine.enter at same
  split at same
  · rename_i program patched
    cases same
    exact D.entered inv quiet fit patched
  · cases same

theorem Discipline.leap_holds (D : M.Discipline) {s : σ} {op : S.Op} {exit : Exit S Site W op} {site : Site}
    {p : Prog S W} (inv : D.inv s) (quiet : exit.past = true ∨ M.quiet s)
    (fit : exit.past = false → D.fit s exit.site exit.args) (same : Frame.code site p = M.leap s exit) :
    D.holds s site p := by
  unfold Machine.leap at same
  split at same
  · cases same
  · rename_i through
    exact D.enter_holds inv (quiet.resolve_left through) (fit (Bool.eq_false_iff.mpr through)) same

theorem Discipline.deliver_holds (D : M.Discipline) {s : σ} {stack : List (Frame S Site W)} (result : W)
    (held : ∀ site p, .code site p ∈ stack → D.holds s site p) :
    ∀ site p, .code site p ∈ M.deliver result stack → D.holds s site p := by
  unfold Machine.deliver
  split
  · rename_i site op next rest
    split
    · rename_i exit leaves
      intro site' p member
      rcases List.mem_cons.mp member with same | deeper
      · cases same
        exact D.returned (held site _ (List.mem_cons_self ..)) leaves
      · exact held site' p (List.mem_cons_of_mem _ deeper)
    · exact held
  · exact held

theorem Discipline.step (D : M.Discipline) {c d : Config S σ Site W} {label : Label S Site W}
    (kept : D.Kept c) (fits : M.EntersBy D.fit c label) (step : M.Step c label d) : D.Kept d := by
  obtain ⟨inv, aside, held⟩ := kept
  cases step with
  | @call s stack beside site args host quiet =>
    have opened : (D.inv (M.opened s stack) ∧ M.quiet (M.opened s stack)) ∧
        D.aside (M.opened s stack) beside ∧
        ∀ site p, .code site p ∈ stack → D.holds (M.opened s stack) site p := by
      cases stack with
      | nil => exact ⟨D.opening_inv inv quiet, D.opening_aside aside, by simp⟩
      | cons => exact ⟨⟨inv, quiet⟩, aside, held⟩
    refine ⟨opened.1.1, opened.2.1, fun site' p member => ?_⟩
    rcases List.mem_cons.mp member with same | deeper
    · exact D.enter_holds opened.1.1 opened.1.2 fits same
    · exact opened.2.2 site' p deeper
  | @finish s site stack beside result =>
    exact ⟨inv, aside, D.deliver_holds result fun site p member =>
      held site p (List.mem_cons_of_mem _ member)⟩
  | @leave s site result stack beside =>
    exact ⟨inv, aside, D.deliver_holds result fun site p member =>
      held site p (List.mem_cons_of_mem _ member)⟩
  | @answer s site op next stack beside answer here given =>
    obtain ⟨inv', later, rest, asideKept⟩ := D.answered inv (held site _ (List.mem_cons_self ..)) here given
    refine ⟨inv', asideKept aside, fun site' p member => ?_⟩
    rcases List.mem_cons.mp member with same | deeper
    · cases same
      exact rest
    · exact D.later_keeps later (held site' p (List.mem_cons_of_mem _ deeper))
  | @leap s site op next stack beside exit leaves quiet =>
    refine ⟨inv, aside, fun site' p member => ?_⟩
    rcases List.mem_cons.mp member with same | deeper
    · exact D.leap_holds inv quiet (fits site op next stack exit rfl leaves) same
    · exact held site' p deeper
  | @beside s stack op next answer here given =>
    obtain ⟨inv', later, rest⟩ := D.asideAnswered inv aside here given
    exact ⟨inv', rest, fun site p member => D.later_keeps later (held site p member)⟩

/-- The discipline of one step carries over to whole runs, whatever the host
calls, however deep, and however the program beside it is interleaved. -/
theorem Discipline.run (D : M.Discipline) {c d : Config S σ Site W} {labels : List (Label S Site W)}
    (kept : D.Kept c) (run : M.RunWhere (M.EntersBy D.fit) c labels d) : D.Kept d :=
  run.invariant (fun _ _ _ kept fits step => D.step kept fits step) kept

/-- A discipline that lets any entry be taken needs no condition on runs. -/
theorem Discipline.run_any (D : M.Discipline) (free : ∀ s site args, D.fit s site args)
    {c d : Config S σ Site W} {fits : Config S σ Site W → Label S Site W → Prop}
    {labels : List (Label S Site W)} (kept : D.Kept c) (run : M.RunWhere fits c labels d) : D.Kept d := by
  refine D.run kept (run.weaken fun c label _ => ?_)
  cases label with
  | call site args => exact free _ _ _
  | leap => exact fun _ _ _ _ _ _ _ _ => free _ _ _
  | _ => trivial

end Machine

end Kit
