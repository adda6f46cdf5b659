import Opg3d.Kit.Reentry

namespace Kit.Machine

/-- What the host does in a scripted run, and how many steps the programs
take in between. -/
inductive Move (Site W : Type) where
  | call (site : Site) (args : List W)
  | finish (result : W)
  | go (steps : Nat)

section Play

variable {S : Signature} {σ Site W : Type} (M : Machine S σ Site W)
  (answer : (s : σ) → (op : S.Op) → Option (S.Ans op)) (enters : σ → Site → List W → Bool)

/-- The next step of the innermost program or, without any call, of the
program beside, if it does not leave through an entry. -/
def ownStep : Config S σ Site W → Option (Config S σ Site W)
  | ⟨s, .code site (.ask op next) :: rest, beside⟩ =>
    match M.outgoing op with
    | none => (answer s op).map fun a => ⟨M.after s op a, .code site (next a) :: rest, beside⟩
    | some exit =>
      if exit.past || enters s exit.site exit.args
      then some ⟨s, M.leap s exit :: .code site (.ask op next) :: rest, beside⟩ else none
  | ⟨s, .code _ (.done result) :: rest, beside⟩ => some ⟨s, M.deliver result rest, beside⟩
  | ⟨s, [], .ask op next⟩ =>
    match M.outgoing op with
    | none => (answer s op).map fun a => ⟨M.after s op a, [], next a⟩
    | some _ => none
  | _ => none

def ownSteps : Nat → Config S σ Site W → Option (Config S σ Site W)
  | 0, c => some c
  | n + 1, c => (M.ownStep answer enters c).bind (ownSteps n)

def move : Move Site W → Config S σ Site W → Option (Config S σ Site W)
  | .call site args, ⟨s, [], beside⟩ =>
    if enters (M.opening s) site args then some ⟨M.opening s,
      [M.enter (M.opening s) site args], beside⟩ else none
  | .call site args, ⟨s, .body at_ :: rest, beside⟩ =>
    if enters s site args then some ⟨s, M.enter s site args :: .body at_ :: rest, beside⟩ else none
  | .finish result, ⟨s, .body _ :: rest, beside⟩ => some ⟨s, M.deliver result rest, beside⟩
  | .go steps, c => M.ownSteps answer enters steps c
  | _, _ => none

def play : List (Move Site W) → Config S σ Site W → Option (Config S σ Site W)
  | [], c => some c
  | first :: rest, c => (M.move answer enters first c).bind (play rest)

end Play

section Run

variable {S : Signature} {σ Site W : Type} {M : Machine S σ Site W}
  {answer : (s : σ) → (op : S.Op) → Option (S.Ans op)} {enters : σ → Site → List W → Bool}
  (fit : σ → Site → List W → Prop) {c d : Config S σ Site W}

theorem ownStep_step (admitted : ∀ s op a, answer s op = some a → M.admits s op a)
    (entering : ∀ s site args, enters s site args = true → M.quiet s ∧ fit s site args)
    (moved : M.ownStep answer enters c = some d) : ∃ label, M.EntersBy fit c label ∧ M.Step c label d := by
  unfold ownStep at moved
  split at moved
  · rename_i s site op next rest beside
    split at moved
    · rename_i here
      obtain ⟨a, given, rfl⟩ := Option.map_eq_some_iff.mp moved
      exact ⟨.answer op a, trivial, .answer here (admitted s op a given)⟩
    · rename_i exit leaves
      split at moved
      · rename_i allowed
        cases moved
        have allowed : exit.past = true ∨ enters s exit.site exit.args = true := by simpa using allowed
        refine ⟨.leap, ?_, .leap leaves (allowed.imp_right fun taken => (entering _ _ _ taken).1)⟩
        rintro _ _ _ _ _ ⟨⟩ same through
        obtain rfl := Option.some.inj (leaves.symm.trans same)
        exact (entering _ _ _ (allowed.resolve_left (by simp [through]))).2
      · cases moved
  · cases moved
    exact ⟨.leave, trivial, .leave⟩
  · rename_i s op next
    split at moved
    · rename_i here
      obtain ⟨a, given, rfl⟩ := Option.map_eq_some_iff.mp moved
      exact ⟨.beside op a, trivial, .beside here (admitted s op a given)⟩
    · cases moved
  · cases moved

theorem ownSteps_run (admitted : ∀ s op a, answer s op = some a → M.admits s op a)
    (entering : ∀ s site args, enters s site args = true → M.quiet s ∧ fit s site args) {steps : Nat}
    (moved : M.ownSteps answer enters steps c = some d) :
    ∃ labels, M.RunWhere (M.EntersBy fit) c labels d := by
  induction steps generalizing c with
  | zero =>
    cases moved
    exact ⟨[], .stop⟩
  | succ steps ih =>
    obtain ⟨mid, first, rest⟩ := Option.bind_eq_some_iff.mp moved
    obtain ⟨label, fits, step⟩ := ownStep_step fit admitted entering first
    obtain ⟨labels, run⟩ := ih rest
    exact ⟨label :: labels, .step fits step run⟩

theorem move_run (admitted : ∀ s op a, answer s op = some a → M.admits s op a)
    (entering : ∀ s site args, enters s site args = true → M.quiet s ∧ fit s site args)
    (opening : ∀ s, M.quiet (M.opening s) → M.quiet s) {first : Move Site W}
    (moved : M.move answer enters first c = some d) : ∃ labels, M.RunWhere (M.EntersBy fit) c labels d := by
  unfold move at moved
  split at moved
  · split at moved
    · rename_i taken
      cases moved
      have both := entering _ _ _ taken
      exact ⟨[.call _ _], .step both.2 (.call trivial (opening _ both.1)) .stop⟩
    · cases moved
  · split at moved
    · rename_i taken
      cases moved
      have both := entering _ _ _ taken
      exact ⟨[.call _ _], .step both.2 (.call trivial both.1) .stop⟩
    · cases moved
  · cases moved
    exact ⟨[.finish _], .step trivial .finish .stop⟩
  · exact ownSteps_run fit admitted entering moved
  · cases moved

/-- What a script plays is a run. -/
theorem play_run (admitted : ∀ s op a, answer s op = some a → M.admits s op a)
    (entering : ∀ s site args, enters s site args = true → M.quiet s ∧ fit s site args)
    (opening : ∀ s, M.quiet (M.opening s) → M.quiet s) {script : List (Move Site W)}
    (played : M.play answer enters script c = some d) :
    ∃ labels, M.RunWhere (M.EntersBy fit) c labels d := by
  induction script generalizing c with
  | nil =>
    cases played
    exact ⟨[], .stop⟩
  | cons first rest ih =>
    obtain ⟨mid, moved, later⟩ := Option.bind_eq_some_iff.mp played
    obtain ⟨labels, run⟩ := move_run fit admitted entering opening moved
    obtain ⟨more, run'⟩ := ih later
    exact ⟨labels ++ more, run.trans run'⟩

end Run

end Kit.Machine
