import Mathlib.Data.List.Forall2
import Opg3d.Kit.Reentry

namespace Kit

/-- An operation of a program with the answer it got. -/
structure Exchange (S : Signature) where
  op : S.Op
  answer : S.Ans op

namespace Prog

variable {S : Signature} {α β σ : Type}

/-- The program that is left once a program has been given such answers. -/
inductive Path : Prog S α → List (Exchange S) → Prog S α → Prop
  | stop {p} : Path p [] p
  | step {p exchanged op next answer} : Path p exchanged (.ask op next) →
      Path p (exchanged ++ [⟨op, answer⟩]) (next answer)

theorem Path.of_done {a : α} {q : Prog S α} {exchanged : List (Exchange S)}
    (path : Path (.done a) exchanged q) : exchanged = [] ∧ q = .done a := by
  induction path with
  | stop => exact ⟨rfl, rfl⟩
  | step _ ih => cases ih.2

/-- A path of what an answer leaves, behind that answer. -/
theorem Path.behind {op : S.Op} {next : S.Ans op → Prog S α} {q : Prog S α}
    {exchanged : List (Exchange S)} (answer : S.Ans op) (path : Path (next answer) exchanged q) :
    Path (.ask op next) (⟨op, answer⟩ :: exchanged) q := by
  induction path with
  | stop => exact .step .stop
  | step _ ih => exact .step ih

/-- A path begins with the first operation of its program. -/
theorem Path.of_ask {op : S.Op} {next : S.Ans op → Prog S α} {q : Prog S α} {exchanged : List (Exchange S)}
    (path : Path (.ask op next) exchanged q) : (exchanged = [] ∧ q = .ask op next) ∨
      ∃ answer rest, exchanged = ⟨op, answer⟩ :: rest ∧ Path (next answer) rest q := by
  induction path with
  | stop => exact .inl ⟨rfl, rfl⟩
  | @step exchanged op' next' answer _ ih =>
    rcases ih with ⟨rfl, same⟩ | ⟨first, rest, rfl, path⟩
    · cases same
      exact .inr ⟨answer, [], rfl, .stop⟩
    · exact .inr ⟨first, rest ++ [⟨op', answer⟩], by simp, .step path⟩

theorem Path.ask_done {op : S.Op} {next : S.Ans op → Prog S α} {value : α} {exchanged : List (Exchange S)}
    (path : Path (.ask op next) exchanged (.done value)) :
    ∃ answer rest, exchanged = ⟨op, answer⟩ :: rest ∧ Path (next answer) rest (.done value) := by
  rcases path.of_ask with ⟨_, same⟩ | first
  · cases same
  · exact first

theorem Path.done_done {a b : α} {exchanged : List (Exchange S)}
    (path : Path (.done a) exchanged (.done b)) : exchanged = [] ∧ b = a := by
  obtain ⟨rfl, same⟩ := path.of_done
  exact ⟨rfl, Prog.done.inj same⟩

/-- A finished path of a sequence is one of its first part and then one of the rest. -/
theorem Path.bind_cases {p : Prog S α} {f : α → Prog S β} {exchanged : List (Exchange S)} {value : β}
    (path : Path (p >>= f) exchanged (.done value)) :
    ∃ asked a rest, exchanged = asked ++ rest ∧ Path p asked (.done a) ∧ Path (f a) rest (.done value) := by
  induction p generalizing exchanged with
  | done a => exact ⟨[], a, exchanged, rfl, .stop, path⟩
  | ask op next ih =>
    obtain ⟨answer, later, rfl, tail⟩ := path.ask_done
    obtain ⟨asked, a, rest, rfl, first, second⟩ := ih answer tail
    exact ⟨⟨op, answer⟩ :: asked, a, rest, rfl, first.behind answer, second⟩

/-- What a monitor has seen at the end of a path it allows. -/
theorem wp.path {M : Monitor S σ} {p q : Prog S α} {exchanged : List (Exchange S)} {post : σ → α → Prop}
    {s : σ} (path : Path p exchanged q) (allowed : ∀ e ∈ exchanged, ∀ t, M.allow t e.op e.answer)
    (verified : p.wp M post s) : q.wp M post (exchanged.foldl (fun t e => M.next t e.op e.answer) s) := by
  induction path with
  | stop => exact verified
  | @step exchanged op next answer _ ih =>
    have before := ih fun e member => allowed e (List.mem_append_left _ member)
    rw [List.foldl_append]
    exact before.2 answer (allowed ⟨op, answer⟩ (by simp) _)

/-- Keeps the exchanges that pass a test. -/
def recorder (told : (op : S.Op) → S.Ans op → Prop) (test : S.Op → Bool) :
    Monitor S (List (Exchange S)) where
  allow _ := told
  ok _ _ := True
  next seen op answer := if test op then seen ++ [⟨op, answer⟩] else seen

theorem recorder_keeps {told : (op : S.Op) → S.Ans op → Prop} {test : S.Op → Bool} {op : S.Op}
    (passed : test op = true) (seen : List (Exchange S)) (answer : S.Ans op) :
    (recorder told test).next seen op answer = seen ++ [⟨op, answer⟩] :=
  if_pos passed

theorem recorder_skips {told : (op : S.Op) → S.Ans op → Prop} {test : S.Op → Bool} {op : S.Op}
    (failed : test op = false)
    (seen : List (Exchange S)) (answer : S.Ans op) : (recorder told test).next seen op answer = seen :=
  if_neg (by simp [failed])

theorem foldl_recorder {told : (op : S.Op) → S.Ans op → Prop} (test : S.Op → Bool)
    (exchanged seen : List (Exchange S)) :
    exchanged.foldl (fun t e => (recorder told test).next t e.op e.answer) seen =
      seen ++ exchanged.filter fun e => test e.op := by
  induction exchanged generalizing seen with
  | nil => simp
  | cons e rest ih =>
    rw [List.foldl_cons, ih]
    cases kept : test e.op with
    | true => simp [recorder_keeps kept, kept]
    | false => simp [recorder_skips kept, kept]

/-- The exchanges of a finished path that pass the test are as verified. -/
theorem wp.recorded {told : (op : S.Op) → S.Ans op → Prop} {test : S.Op → Bool} {p : Prog S α}
    {exchanged : List (Exchange S)} {post : List (Exchange S) → α → Prop} {value : α}
    (path : Path p exchanged (.done value)) (allowed : ∀ e ∈ exchanged, told e.op e.answer)
    (verified : p.wp (recorder told test) post []) : post (exchanged.filter fun e => test e.op) value := by
  have seen := wp.path path (fun e member _ => allowed e member) verified
  rw [foldl_recorder, List.nil_append] at seen
  exact seen

/-- Follows all that a program is answered, and asks of each operation that
what came before it allows it. -/
def history (told : (op : S.Op) → S.Ans op → Prop) (may : List (Exchange S) → S.Op → Prop) :
    Monitor S (List (Exchange S)) where
  allow _ := told
  ok := may
  next seen op answer := seen ++ [⟨op, answer⟩]

@[simp] theorem history_next {told : (op : S.Op) → S.Ans op → Prop} {may : List (Exchange S) → S.Op → Prop}
    (seen : List (Exchange S)) (op : S.Op) (answer : S.Ans op) :
    (history told may).next seen op answer = seen ++ [⟨op, answer⟩] := rfl

theorem foldl_history {told : (op : S.Op) → S.Ans op → Prop} {may : List (Exchange S) → S.Op → Prop}
    (exchanged seen : List (Exchange S)) :
    exchanged.foldl (fun t e => (history told may).next t e.op e.answer) seen = seen ++ exchanged := by
  induction exchanged generalizing seen with
  | nil => simp
  | cons e rest ih => rw [List.foldl_cons, ih, history_next, List.append_assoc, List.singleton_append]

/-- What comes next on a path is allowed by what was exchanged on it. -/
theorem wp.allowed {told : (op : S.Op) → S.Ans op → Prop} {may : List (Exchange S) → S.Op → Prop}
    {p : Prog S α} {exchanged : List (Exchange S)} {op : S.Op} {next : S.Ans op → Prog S α}
    {post : List (Exchange S) → α → Prop} (path : Path p exchanged (.ask op next))
    (given : ∀ e ∈ exchanged, told e.op e.answer) (verified : p.wp (history told may) post []) :
    may exchanged op := by
  have seen := wp.path path (fun e member _ => given e member) verified
  rw [foldl_history, List.nil_append] at seen
  exact seen.1

/-- What has been exchanged is not forgotten. -/
theorem wp.grows {told : (op : S.Op) → S.Ans op → Prop} {may : List (Exchange S) → S.Op → Prop}
    {p : Prog S α} {post : List (Exchange S) → α → Prop} {seen : List (Exchange S)}
    (verified : p.wp (history told may) post seen) :
    p.wp (history told may) (fun after a => seen ⊆ after ∧ post after a) seen := by
  induction p generalizing seen with
  | done value => exact ⟨fun _ => id, verified⟩
  | ask op next ih =>
    refine ⟨verified.1, fun answer given => (ih answer (verified.2 answer given)).mono fun after a both =>
      ⟨?_, both.2⟩⟩
    exact fun e member => both.1 (List.mem_append_left _ member)

/-- The program keeps to operations of one kind, as long as it is told such answers. -/
def Only (told : (op : S.Op) → S.Ans op → Prop) (may : S.Op → Prop) (p : Prog S α) : Prop :=
  p.wp ⟨fun _ : Unit => told, fun _ => may, fun _ _ _ => ()⟩ (fun _ _ => True) ()

namespace Only

variable {told : (op : S.Op) → S.Ans op → Prop} {may may' : S.Op → Prop} {p : Prog S α}

theorem done (value : α) : Only told may (.done value : Prog S α) := trivial

theorem ask {op : S.Op} {next : S.Ans op → Prog S α} (allowed : may op)
    (rest : ∀ answer, told op answer → Only told may (next answer)) : Only told may (.ask op next) :=
  ⟨allowed, rest⟩

theorem perform {op : S.Op} (allowed : may op) : Only told may (Prog.ask op .done) :=
  ⟨allowed, fun _ _ => trivial⟩

theorem seq {f : α → Prog S β} (first : Only told may p) (second : ∀ a, Only told may (f a)) :
    Only told may (p >>= f) :=
  wp.bind first fun _ a _ => second a

theorem ite {c : Prop} [Decidable c] {q : Prog S α} (yes : c → Only told may p)
    (no : ¬c → Only told may q) : Only told may (if c then p else q) :=
  wp.ite yes no

/-- A monitor that accepts the kind in all of its states accepts the program. -/
theorem accepted {M : Monitor S σ} (only : Only told may p) (ok : ∀ s op, may op → M.ok s op)
    (given : ∀ s op answer, M.allow s op answer → told op answer) (s : σ) : p.wp M (fun _ _ => True) s := by
  induction p generalizing s with
  | done value => trivial
  | ask op next ih =>
    exact ⟨ok s op only.1, fun answer allowed => ih answer (only.2 answer (given s op answer allowed)) _⟩

theorem mono (only : Only told may p) (weaken : ∀ op, may op → may' op) : Only told may' p := by
  induction p with
  | done value => trivial
  | ask op next ih => exact ⟨weaken op only.1, fun answer given => ih answer (only.2 answer given)⟩

/-- Nothing else is exchanged on any path. -/
theorem along {exchanged : List (Exchange S)} {q : Prog S α} (only : Only told may p)
    (path : Path p exchanged q) (given : ∀ e ∈ exchanged, told e.op e.answer) :
    ∀ e ∈ exchanged, may e.op := by
  induction path with
  | stop => exact nofun
  | @step exchanged op next answer path ih =>
    have before (e : Exchange S) (member : e ∈ exchanged) : told e.op e.answer :=
      given e (List.mem_append_left _ member)
    intro e member
    rcases List.mem_append.mp member with earlier | last
    · exact ih before e earlier
    · obtain rfl := List.mem_singleton.mp last
      exact (wp.path path (fun e member _ => before e member) only).1

/-- A monitor that the kind leaves in one of its states stays there. -/
theorem still {M : Monitor S σ} {s : σ} (only : Only told may p) (ok : ∀ op, may op → M.ok s op)
    (given : ∀ op answer, M.allow s op answer → told op answer)
    (same : ∀ op answer, may op → M.next s op answer = s) : p.wp M (fun t _ => t = s) s := by
  induction p with
  | done value => rfl
  | ask op next ih =>
    refine ⟨ok op only.1, fun answer allowed => ?_⟩
    rw [same op answer only.1]
    exact ih answer (only.2 answer (given op answer allowed))

/-- A recorder that overlooks the kind records nothing. -/
theorem records {test : S.Op → Bool} (only : Only told may p) (overlooked : ∀ op, may op → test op = false)
    (seen : List (Exchange S)) : p.wp (recorder told test) (fun after _ => after = seen) seen :=
  only.still (fun _ _ => trivial) (fun _ _ => id) fun op answer within =>
    recorder_skips (overlooked op within) seen answer

end Only

end Prog

/-- An active call: where it entered, with which arguments, and what its
program has exchanged so far. -/
structure Call (S : Signature) (Site W : Type) where
  site : Site
  args : List W
  exchanged : List (Exchange S)

def Call.add {S : Signature} {Site W : Type} (call : Call S Site W) (op : S.Op) (answer : S.Ans op) :
    Call S Site W :=
  { call with exchanged := call.exchanged ++ [⟨op, answer⟩] }

namespace Machine

variable {S : Signature} {σ Site W : Type} (M : Machine S σ Site W)

/-- A result that arrives at a call is the answer to what its program waits for. -/
def credit (result : W) (stack : List (Frame S Site W)) (calls : List (Call S Site W)) :
    List (Call S Site W) :=
  match stack, calls with
  | .code _ (.ask op _) :: _, call :: rest =>
    match M.outgoing op with
    | some exit => call.add op (exit.handBack result) :: rest
    | none => call :: rest
  | _, calls => calls

/-- The active calls after a step, the innermost first. -/
def record (c : Config S σ Site W) (calls : List (Call S Site W)) : Label S Site W → List (Call S Site W)
  | .call site args => ⟨site, args, []⟩ :: calls
  | .finish result => M.credit result c.stack.tail calls.tail
  | .answer op answer =>
    match calls with
    | call :: rest => call.add op answer :: rest
    | [] => []
  | .leap =>
    match c.stack with
    | .code _ (.ask op _) :: _ =>
      match M.outgoing op with
      | some exit => ⟨exit.site, exit.args, []⟩ :: calls
      | none => calls
    | _ => calls
  | .leave =>
    match c.stack with
    | .code _ (.done result) :: rest => M.credit result rest calls.tail
    | _ => calls
  | .beside _ _ => calls

/-- A run with the account of its active calls. -/
inductive Records (fits : Config S σ Site W → Label S Site W → Prop) :
    Config S σ Site W → List (Call S Site W) → List (Label S Site W) → Config S σ Site W →
      List (Call S Site W) → Prop
  | stop {c calls} : Records fits c calls [] c calls
  | step {c calls d label labels e final} : fits c label → M.Step c label d →
      Records fits d (M.record c calls label) labels e final →
        Records fits c calls (label :: labels) e final

variable {M}

/-- Every run has its account. -/
theorem RunWhere.records {fits : Config S σ Site W → Label S Site W → Prop} {c d : Config S σ Site W}
    {labels : List (Label S Site W)} (run : M.RunWhere fits c labels d) (calls : List (Call S Site W)) :
    ∃ final, M.Records fits c calls labels d final := by
  induction run generalizing calls with
  | stop => exact ⟨calls, .stop⟩
  | step fit first _ ih =>
    obtain ⟨final, rest⟩ := ih (M.record _ calls _)
    exact ⟨final, .step fit first rest⟩

/-- The program beside keeps to its kind whatever runs in between. -/
theorem RunWhere.beside {fits : Config S σ Site W → Label S Site W → Prop} {c d : Config S σ Site W}
    {labels : List (Label S Site W)} {may : S.Op → Prop} (run : M.RunWhere fits c labels d)
    (only : Prog.Only (fun _ _ => True) may c.beside) : Prog.Only (fun _ _ => True) may d.beside := by
  induction run with
  | stop => exact only
  | step _ first _ ih =>
    refine ih ?_
    cases first with
    | beside _ _ => exact only.2 _ trivial
    | _ => exact only

/-- The run that an account is of. -/
theorem Records.run {fits : Config S σ Site W → Label S Site W → Prop} {c d : Config S σ Site W}
    {labels : List (Label S Site W)} {calls final : List (Call S Site W)}
    (records : M.Records fits c calls labels d final) : M.RunWhere fits c labels d := by
  induction records with
  | stop => exact .stop
  | step fit first _ ih => exact .step fit first ih

/-- What is known of an active call besides what a discipline says of its
frame: which program entered and what its exchanges can have been, in a form
that lasts. -/
structure Accounting (D : M.Discipline) (fits : Config S σ Site W → Label S Site W → Prop) where
  origin : σ → Site → List W → Prog S W → Prop
  told : σ → Site → Exchange S → Prop
  fit : ∀ c label, fits c label → M.EntersBy D.fit c label
  entered : ∀ {s site args p}, D.inv s → M.quiet s → M.patch s site args = some p → origin s site args p
  originLater : ∀ {s t site args p}, D.later s t → origin s site args p → origin t site args p
  toldLater : ∀ {s t site e}, D.later s t → told s site e → told t site e
  answered : ∀ {c site op next rest answer}, D.Kept c → c.stack = .code site (.ask op next) :: rest →
    fits c (.answer op answer) → M.outgoing op = none → M.admits c.shared op answer →
      told c.shared site ⟨op, answer⟩
  returned : ∀ {c frame site op next rest exit result},
    D.Kept c → c.stack = frame :: .code site (.ask op next) :: rest →
    M.outgoing op = some exit → told c.shared site ⟨op, exit.handBack result⟩

variable {D : M.Discipline} {fits : Config S σ Site W → Label S Site W → Prop}

/-- The account of a call fits its frame: the frame's program is what its
answers have left of the one that entered. -/
inductive Accounting.Belongs (A : Accounting D fits) (s : σ) : Frame S Site W → Call S Site W → Prop
  | body {site args} : A.Belongs s (.body site) ⟨site, args, []⟩
  | code {site args program p exchanged} : A.origin s site args program → program.Path exchanged p →
      (∀ e ∈ exchanged, A.told s site e) → A.Belongs s (.code site p) ⟨site, args, exchanged⟩

namespace Accounting

variable {A : Accounting D fits} {s t : σ}

theorem Belongs.later {frame : Frame S Site W} {call : Call S Site W} (belongs : A.Belongs s frame call)
    (later : D.later s t) : A.Belongs t frame call := by
  cases belongs with
  | body => exact .body
  | code origin path proper =>
    exact .code (A.originLater later origin) path fun e member => A.toldLater later (proper e member)

theorem Belongs.add {site : Site} {op : S.Op} {next : S.Ans op → Prog S W} {call : Call S Site W}
    {answer : S.Ans op} (belongs : A.Belongs s (.code site (.ask op next)) call)
    (proper : A.told s site ⟨op, answer⟩) :
    A.Belongs s (.code site (next answer)) (call.add op answer) := by
  cases belongs with
  | code origin path before =>
    refine .code origin (.step path) fun e member => ?_
    rcases List.mem_append.mp member with earlier | last
    · exact before e earlier
    · obtain rfl := List.mem_singleton.mp last
      exact proper

theorem enter_belongs (inv : D.inv s) (quiet : M.quiet s) (site : Site) (args : List W) :
    A.Belongs s (M.enter s site args) ⟨site, args, []⟩ := by
  unfold Machine.enter
  split
  · rename_i program patched
    exact .code (A.entered inv quiet patched) .stop (by simp)
  · exact .body

theorem leap_belongs (inv : D.inv s) {op : S.Op} {exit : Exit S Site W op}
    (quiet : exit.past = true ∨ M.quiet s) : A.Belongs s (M.leap s exit) ⟨exit.site, exit.args, []⟩ := by
  unfold Machine.leap
  split
  · exact .body
  · rename_i through
    exact enter_belongs inv (quiet.resolve_left through) _ _

theorem deliver_belongs {stack : List (Frame S Site W)} {calls : List (Call S Site W)}
    (both : List.Forall₂ (A.Belongs s) stack calls) {result : W}
    (proper : ∀ site op next rest exit, stack = .code site (.ask op next) :: rest →
      M.outgoing op = some exit → A.told s site ⟨op, exit.handBack result⟩) :
    List.Forall₂ (A.Belongs s) (M.deliver result stack) (M.credit result stack calls) := by
  cases both with
  | nil => exact .nil
  | @cons frame call rest others first later =>
    cases frame with
    | body site => exact .cons first later
    | code site p =>
      cases p with
      | done value => exact .cons first later
      | ask op next =>
        cases leaves : M.outgoing op with
        | none =>
          simp only [deliver, credit, leaves]
          exact .cons first later
        | some exit =>
          simp only [deliver, credit, leaves]
          exact .cons (first.add (proper site op next rest exit rfl leaves)) later

/-- One step: each active call still belongs to its frame. -/
theorem step (A : Accounting D fits) {c d : Config S σ Site W} {label : Label S Site W}
    {calls : List (Call S Site W)} (kept : D.Kept c) (fit : fits c label) (step : M.Step c label d)
    (both : List.Forall₂ (A.Belongs c.shared) c.stack calls) :
    List.Forall₂ (A.Belongs d.shared) d.stack (M.record c calls label) := by
  cases step with
  | @call s stack beside site args host quiet =>
    cases both with
    | nil =>
      obtain ⟨inv, still⟩ := D.opening_inv kept.1 quiet
      exact .cons (enter_belongs inv still site args) .nil
    | cons first others => exact .cons (enter_belongs kept.1 quiet site args) (.cons first others)
  | @finish s site stack beside result =>
    cases both with
    | cons _ others =>
      exact deliver_belongs others fun at_ op next rest exit top leaves =>
        A.returned kept (congrArg _ top) leaves
  | @leave s site result stack beside =>
    cases both with
    | cons _ others =>
      exact deliver_belongs others fun at_ op next rest exit top leaves =>
        A.returned kept (congrArg _ top) leaves
  | @answer s site op next stack beside answer here admitted =>
    cases both with
    | cons first others =>
      have later := (D.answered kept.1 (kept.2.2 site _ (List.mem_cons_self ..)) here admitted).2.1
      have added := first.add (A.answered kept rfl fit here admitted)
      exact .cons (added.later later) (others.imp fun _ _ belongs => belongs.later later)
  | @leap s site op next stack beside exit leaves quiet =>
    simp only [record, leaves]
    exact .cons (leap_belongs kept.1 quiet) both
  | @beside s stack op next answer here admitted =>
    have later := (D.asideAnswered kept.1 kept.2.1 here admitted).2.1
    exact both.imp fun _ _ belongs => belongs.later later

/-- Whole runs: at any time each active call belongs to its frame. -/
theorem run (A : Accounting D fits) {c d : Config S σ Site W} {labels : List (Label S Site W)}
    {calls final : List (Call S Site W)} (records : M.Records fits c calls labels d final) (kept : D.Kept c)
    (both : List.Forall₂ (A.Belongs c.shared) c.stack calls) :
    D.Kept d ∧ List.Forall₂ (A.Belongs d.shared) d.stack final := by
  induction records with
  | stop => exact ⟨kept, both⟩
  | step fit first _ ih => exact ih (D.step kept (A.fit _ _ fit) first) (A.step kept fit first both)

/-- What is known of the innermost call when its program is in control. -/
theorem innermost (A : Accounting D fits) {c d : Config S σ Site W} {labels : List (Label S Site W)}
    {calls : List (Call S Site W)} (records : M.Records fits c [] labels d calls) (kept : D.Kept c)
    (empty : c.stack = []) {site : Site} {p : Prog S W} {rest : List (Frame S Site W)}
    (top : d.stack = .code site p :: rest) :
    ∃ call others program, calls = call :: others ∧ call.site = site ∧
      A.origin d.shared site call.args program ∧
      program.Path call.exchanged p ∧ ∀ e ∈ call.exchanged, A.told d.shared site e := by
  have start : List.Forall₂ (A.Belongs c.shared) c.stack [] := empty ▸ .nil
  have both := (A.run records kept start).2
  rw [top] at both
  cases both with
  | cons first _ =>
    cases first with
    | code origin path proper => exact ⟨_, _, _, rfl, rfl, origin, path, proper⟩

end Accounting

end Machine

end Kit
