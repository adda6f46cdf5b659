import Opg3d.Kit.Steps
import Opg3d.Native.LogThreads

namespace Opg3d.Logger

open Kit

namespace LogState

variable {Number : Type}

inductive Moved [Add Number] [One Number] (s : LogState Number) : LogEvent → LogState Number → Prop
  | tick {clock} : s.clock.Before clock → Moved s (.tick clock) { s with clock := clock }
  | call {thread call} : s.threads thread = .idle →
      Moved s (.call thread call) (s.move thread (.entered call))
  | clockOnce {thread call} (read : Bool) : s.threads thread = .entered call →
      Moved s (.clockOnce thread read)
        { s.move thread (.begun call) with origin := some (s.origin.getD (s.reading read)) }
  | readClock {thread call} (read : Bool) : s.threads thread = .begun call →
      Moved s (.readClock thread read) (s.move thread (.timed call (s.reading read) (s.origin.getD 0)))
  | fetchAdd {thread call now origin} : s.threads thread = .timed call now origin →
      Moved s (.fetchAdd thread)
        { s.move thread (.numbered call now origin (s.sequence + 1)) with sequence := s.sequence + 1 }
  | write {thread call now origin sequence} : s.threads thread = .numbered call now origin sequence →
      Moved s (.write thread)
        { s.move thread .idle with lines := s.lines ++ [⟨call, thread, now, origin, sequence⟩] }

theorem moved_of_step [Add Number] [One Number] {s t : LogState Number} {event : LogEvent}
    (taken : s.step event = some t) : Moved s event t := by
  cases event with
  | tick clock =>
    obtain ⟨later, same⟩ := Option.ite_none_right_eq_some.mp taken
    obtain rfl := Option.some.inj same
    exact .tick later
  | call thread call =>
    simp only [step] at taken
    split at taken
    · obtain rfl := Option.some.inj taken
      exact .call ‹_›
    · cases taken
  | clockOnce thread read =>
    simp only [step] at taken
    split at taken
    · obtain rfl := Option.some.inj taken
      exact .clockOnce read ‹_›
    · cases taken
  | readClock thread read =>
    simp only [step] at taken
    split at taken
    · obtain rfl := Option.some.inj taken
      exact .readClock read ‹_›
    · cases taken
  | fetchAdd thread =>
    simp only [step] at taken
    split at taken
    · obtain rfl := Option.some.inj taken
      exact .fetchAdd ‹_›
    · cases taken
  | write thread =>
    simp only [step] at taken
    split at taken
    · obtain rfl := Option.some.inj taken
      exact .write ‹_›
    · cases taken

@[simp] theorem move_self (s : LogState Number) (thread : Int32) (progress : Progress Number) :
    (s.move thread progress).threads thread = progress := Function.update_self ..

theorem move_other {thread other : Int32} (apart : other ≠ thread) (s : LogState Number)
    (progress : Progress Number) : (s.move thread progress).threads other = s.threads other :=
  Function.update_of_ne apart ..

end LogState

def Progress.map {Number Other : Type} (f : Number → Other) : Progress Number → Progress Other
  | .idle => .idle
  | .entered call => .entered call
  | .begun call => .begun call
  | .timed call now origin => .timed call now origin
  | .numbered call now origin sequence => .numbered call now origin (f sequence)

section

variable {Number Other : Type} (f : Number → Other) (call : PrintCall) (now origin : UInt64) (sequence : Number)

@[simp] theorem Progress.map_idle : (Progress.idle : Progress Number).map f = .idle := rfl

@[simp] theorem Progress.map_entered : (Progress.entered call).map f = .entered call := rfl

@[simp] theorem Progress.map_begun : (Progress.begun call).map f = .begun call := rfl

@[simp] theorem Progress.map_timed : (Progress.timed call now origin).map f = .timed call now origin := rfl

@[simp] theorem Progress.map_numbered :
    (Progress.numbered call now origin sequence).map f = .numbered call now origin (f sequence) := rfl

end

def Line.map {Number Other : Type} (f : Number → Other) (line : Line Number) : Line Other :=
  ⟨line.call, line.thread, line.now, line.origin, f line.sequence⟩

/-- The same log with the numbers seen through a map. -/
def LogState.map {Number Other : Type} (f : Number → Other) (s : LogState Number) : LogState Other :=
  ⟨s.clock, f s.sequence, s.origin, fun thread => (s.threads thread).map f, s.lines.map (Line.map f)⟩

theorem update_map {Number Other : Type} (f : Number → Other) (threads : Int32 → Progress Number)
    (thread : Int32) (progress : Progress Number) :
    (fun other => (Function.update threads thread progress other).map f) =
        Function.update (fun other => (threads other).map f) thread (progress.map f) := by
  funext other
  by_cases same : other = thread
  · subst same
    simp
  · simp [Function.update_of_ne same]

/-- The numbers of 32 bits are the last bits of numbers that never run out. -/
theorem LogState.step_map (s : LogState Nat) (event : LogEvent) :
    (s.map UInt32.ofNat).step event = (s.step event).map (LogState.map UInt32.ofNat) := by
  cases event with
  | tick clock =>
    simp only [step]
    by_cases later : s.clock.Before clock <;> simp [later, map]
  | call thread call =>
    simp only [step, map]
    cases s.threads thread <;> simp [move, map, update_map]
  | clockOnce thread read =>
    simp only [step, map]
    cases s.threads thread <;> simp [move, map, update_map, reading]
  | readClock thread read =>
    simp only [step, map]
    cases s.threads thread <;> simp [move, map, update_map, reading]
  | fetchAdd thread =>
    simp only [step, map]
    cases s.threads thread <;> simp [move, map, update_map, UInt32.ofNat_add]
  | write thread =>
    simp only [step, map]
    cases s.threads thread <;> simp [move, map, update_map, Line.map]

namespace LogState

/-- The thread has taken the number and has not written its line. -/
def Holds (s : LogState Nat) (thread : Int32) (n : Nat) : Prop :=
  ∃ call now origin, s.threads thread = .numbered call now origin n

/-- Every number up to the last is that of one line, or held by one thread. -/
structure Numbered (s : LogState Nat) : Prop where
  written : ∀ line ∈ s.lines, 0 < line.sequence ∧ line.sequence ≤ s.sequence
  distinct : (s.lines.map Line.sequence).Nodup
  held : ∀ thread n, s.Holds thread n → 0 < n ∧ n ≤ s.sequence ∧ ∀ line ∈ s.lines, line.sequence ≠ n
  apart : ∀ thread other n, s.Holds thread n → s.Holds other n → thread = other
  complete : ∀ n, 0 < n → n ≤ s.sequence → (∃ line ∈ s.lines, line.sequence = n) ∨ ∃ thread,
    s.Holds thread n

theorem holds_move {s : LogState Nat} {thread other : Int32} {progress : Progress Nat} {n : Nat} :
    (s.move thread progress).Holds other n ↔
      if other = thread then ∃ call now origin, progress = .numbered call now origin n else s.Holds other n := by
  by_cases same : other = thread
  · subst same
    simp [Holds]
  · simp [Holds, same, move_other same]

/-- A step that takes no number and writes no line. -/
theorem Numbered.same {s t : LogState Nat} (numbered : s.Numbered) (lines : t.lines = s.lines)
    (sequence : t.sequence = s.sequence)
    (holds : ∀ thread n, t.Holds thread n ↔ s.Holds thread n) : t.Numbered where
  written := by rw [lines, sequence]; exact numbered.written
  distinct := by rw [lines]; exact numbered.distinct
  held thread n takes := by rw [lines, sequence]; exact numbered.held thread n ((holds thread n).mp takes)
  apart thread other n one two := numbered.apart thread other n ((holds thread n).mp one) ((holds other n).mp two)
  complete n := by simpa only [lines, sequence, holds] using numbered.complete n

theorem holds_same {s : LogState Nat} {thread : Int32} {progress : Progress Nat}
    (before : ∀ call now origin n, s.threads thread ≠ .numbered call now origin n)
    (after : ∀ call now origin n, progress ≠ .numbered call now origin n) (other : Int32) (n : Nat) :
    (s.move thread progress).Holds other n ↔ s.Holds other n := by
  rw [holds_move]
  split
  · rename_i same
    subst same
    exact iff_of_false (fun ⟨_, _, _, has⟩ => after _ _ _ _ has) fun ⟨_, _, _, has⟩ => before _ _ _ _ has
  · rfl

theorem holds_fetchAdd {s : LogState Nat} {thread other : Int32} {call : PrintCall}
    {now origin : UInt64} {n : Nat} :
    Holds { s.move thread (.numbered call now origin (s.sequence + 1)) with sequence := s.sequence + 1 } other n ↔
      if other = thread then n = s.sequence + 1 else s.Holds other n := by
  refine holds_move.trans ?_
  simp [eq_comm]

theorem holds_write {s : LogState Nat} {thread other : Int32} {lines : List (Line Nat)} {n : Nat} :
    Holds { s.move thread .idle with lines := lines } other n ↔ other ≠ thread ∧ s.Holds other n := by
  refine holds_move.trans ?_
  split <;> simp_all

theorem Numbered.fetchAdd {s : LogState Nat} (numbered : s.Numbered) {thread : Int32} {call : PrintCall}
    {now origin : UInt64} (at_ : s.threads thread = .timed call now origin) :
    Numbered { s.move thread (.numbered call now origin (s.sequence + 1)) with sequence := s.sequence + 1 } := by
  have free (n : Nat) : ¬s.Holds thread n := fun ⟨_, _, _, has⟩ => by simp [at_] at has
  constructor
  · exact fun line among => ⟨(numbered.written line among).1,
      (numbered.written line among).2.trans (Nat.le_succ _)⟩
  · exact numbered.distinct
  · intro other n takes
    rw [holds_fetchAdd] at takes
    split at takes
    · subst takes
      exact ⟨Nat.succ_pos _, le_rfl, fun line among =>
        (Nat.lt_succ_of_le (numbered.written line among).2).ne⟩
    · obtain ⟨positive, bound, absent⟩ := numbered.held other n takes
      exact ⟨positive, bound.trans (Nat.le_succ _), absent⟩
  · intro one two n first second
    rw [holds_fetchAdd] at first second
    split at first <;> split at second
    · exact ‹one = thread›.trans ‹two = thread›.symm
    · exact absurd (numbered.held two n second).2.1 (by omega)
    · exact absurd (numbered.held one n first).2.1 (by omega)
    · exact numbered.apart one two n first second
  · intro n positive bound
    simp only [holds_fetchAdd]
    rcases Nat.lt_or_ge s.sequence n with last | before
    · exact .inr ⟨thread, by rw [if_pos rfl]; exact le_antisymm bound last⟩
    · refine (numbered.complete n positive before).imp_right fun ⟨other, takes⟩ => ⟨other, ?_⟩
      rw [if_neg]
      · exact takes
      · rintro rfl
        exact free n takes

theorem Numbered.write {s : LogState Nat} (numbered : s.Numbered) {thread : Int32} {call : PrintCall}
    {now origin : UInt64} {sequence : Nat} (at_ : s.threads thread = .numbered call now origin sequence) :
    Numbered { s.move thread .idle with lines := s.lines ++ [⟨call, thread, now, origin, sequence⟩] } := by
  have own : s.Holds thread sequence := ⟨call, now, origin, at_⟩
  obtain ⟨positive, bound, absent⟩ := numbered.held thread sequence own
  constructor
  · intro line among
    rcases List.mem_append.mp among with before | last
    · exact numbered.written line before
    · obtain rfl := List.mem_singleton.mp last
      exact ⟨positive, bound⟩
  · rw [List.map_append, List.nodup_append]
    refine ⟨numbered.distinct, List.nodup_singleton _, fun n before m last => ?_⟩
    obtain ⟨line, among, rfl⟩ := List.mem_map.mp before
    obtain rfl := List.mem_singleton.mp last
    exact absent line among
  · intro other n takes
    obtain ⟨apart, takes⟩ := holds_write.mp takes
    obtain ⟨positive, bound, absent⟩ := numbered.held other n takes
    refine ⟨positive, bound, fun line among => ?_⟩
    rcases List.mem_append.mp among with before | last
    · exact absent line before
    · obtain rfl := List.mem_singleton.mp last
      rintro rfl
      exact apart (numbered.apart other thread _ takes own)
  · exact fun one two n first second => numbered.apart one two n (holds_write.mp first).2
      (holds_write.mp second).2
  · intro n positive bound
    rcases numbered.complete n positive bound with ⟨line, among, same⟩ | ⟨other, takes⟩
    · exact .inl ⟨line, List.mem_append_left _ among, same⟩
    · by_cases same : other = thread
      · subst same
        obtain ⟨_, _, _, has⟩ := takes
        refine .inl ⟨_, List.mem_append_right _ (List.mem_singleton_self _), ?_⟩
        exact (Progress.numbered.inj (at_.symm.trans has)).2.2.2
      · exact .inr ⟨other, holds_write.mpr ⟨same, takes⟩⟩

theorem Numbered.step {s t : LogState Nat} {event : LogEvent} (numbered : s.Numbered)
    (moved : Moved s event t) : t.Numbered := by
  cases moved with
  | tick => exact numbered.same rfl rfl fun _ _ => Iff.rfl
  | call at_ => exact numbered.same rfl rfl (holds_same (by simp [at_]) (by simp))
  | clockOnce read at_ => exact numbered.same rfl rfl (holds_same (by simp [at_]) (by simp))
  | readClock read at_ => exact numbered.same rfl rfl (holds_same (by simp [at_]) (by simp))
  | fetchAdd at_ => exact numbered.fetchAdd at_
  | write at_ => exact numbered.write at_

/-- The line that an event adds to the log. -/
def added (s : LogState Nat) : LogEvent → List (Line Nat)
  | .write thread =>
    match s.threads thread with
    | .numbered call now origin sequence => [⟨call, thread, now, origin, sequence⟩]
    | _ => []
  | _ => []

/-- What has happened between two states: the lines are more, and a thread that
was in no call takes greater numbers than the last before. -/
structure Since (s t : LogState Nat) (new : List (Line Nat)) : Prop where
  lines : t.lines = s.lines ++ new
  counted : s.sequence ≤ t.sequence
  taken : ∀ thread n, s.threads thread = .idle → t.Holds thread n → s.sequence < n
  written : ∀ line ∈ new, s.threads line.thread = .idle → s.sequence < line.sequence

theorem Since.start (s : LogState Nat) : Since s s [] where
  lines := (List.append_nil _).symm
  counted := le_rfl
  taken thread n idle takes := by
    obtain ⟨_, _, _, has⟩ := takes
    rw [idle] at has
    cases has
  written _ none_ := absurd none_ List.not_mem_nil

theorem Since.same {s t u : LogState Nat} {new : List (Line Nat)} (since : Since s t new)
    (lines : u.lines = t.lines) (sequence : u.sequence = t.sequence)
    (holds : ∀ thread n, u.Holds thread n ↔ t.Holds thread n) : Since s u new where
  lines := lines.trans since.lines
  counted := sequence ▸ since.counted
  taken thread n idle takes := since.taken thread n idle ((holds thread n).mp takes)
  written := since.written

theorem Since.step {s t u : LogState Nat} {new : List (Line Nat)} {event : LogEvent} (since : Since s t new)
    (moved : Moved t event u) : Since s u (new ++ t.added event) := by
  cases moved with
  | tick => exact (List.append_nil new).symm ▸ since.same rfl rfl fun _ _ => Iff.rfl
  | call at_ => exact (List.append_nil new).symm ▸ since.same rfl rfl (holds_same (by simp [at_]) (by simp))
  | clockOnce read at_ =>
    exact (List.append_nil new).symm ▸ since.same rfl rfl
      (holds_same (by simp [at_]) (by simp))
  | readClock read at_ =>
    exact (List.append_nil new).symm ▸ since.same rfl rfl
      (holds_same (by simp [at_]) (by simp))
  | fetchAdd at_ =>
    refine (List.append_nil new).symm ▸ ?_
    refine ⟨since.lines, since.counted.trans (Nat.le_succ _), fun other n idle takes => ?_, since.written⟩
    rw [holds_fetchAdd] at takes
    split at takes
    · exact takes ▸ Nat.lt_succ_of_le since.counted
    · exact since.taken other n idle takes
  | @write thread call now origin sequence at_ =>
    simp only [added, at_]
    refine ⟨?_, since.counted, fun other n idle takes => ?_, fun line among idle => ?_⟩
    · exact (congrArg (· ++ _) since.lines).trans (List.append_assoc ..)
    · exact since.taken other n idle (holds_write.mp takes).2
    · rcases List.mem_append.mp among with before | last
      · exact since.written line before idle
      · obtain rfl := List.mem_singleton.mp last
        exact since.taken thread sequence idle ⟨call, now, origin, at_⟩

theorem toNat_monotonicMs (value : Timespec) :
    (monotonicMs (some value)).toNat = value.sec * 1000 + value.nsec / 1000000 := by
  obtain ⟨sec, nsec, bounded⟩ := value
  have seconds : (UInt64.ofNat sec).toNat = sec :=
    UInt64.toNat_ofNat_of_lt' (Nat.lt_trans bounded.1 (by decide))
  have nanoseconds : (UInt64.ofNat nsec).toNat = nsec :=
    UInt64.toNat_ofNat_of_lt' (Nat.lt_trans bounded.2 (by decide))
  simp only [monotonicMs, UInt64.toNat_add, UInt64.toNat_mul, UInt64.toNat_div, seconds, nanoseconds,
    UInt64.reduceToNat]
  omega

theorem monotonicMs_le {a b : Timespec} (before : a.Before b) :
    monotonicMs (some a) ≤ monotonicMs (some b) := by
  rw [UInt64.le_iff_toNat_le, toNat_monotonicMs, toNat_monotonicMs]
  have bound := a.bounded.2
  rcases before with earlier | ⟨same, within⟩
  · omega
  · rw [same]
    exact Nat.add_le_add_left (Nat.div_le_div_right within) _

/-- The thread has read the clock and has not written its line. -/
def ReadAt (s : LogState Nat) (thread : Int32) (now origin : UInt64) : Prop :=
  (∃ call, s.threads thread = .timed call now origin) ∨ ∃ call n,
    s.threads thread = .numbered call now origin n

/-- All times are between the one origin and the present. -/
structure Timed (s : LogState Nat) : Prop where
  started : ∀ origin ∈ s.origin, origin ≤ s.reading true
  begun : ∀ thread call, s.threads thread = .begun call → s.origin ≠ none
  read : ∀ thread now origin, s.ReadAt thread now origin → s.origin = some origin ∧ origin ≤ now ∧
    now ≤ s.reading true
  written : ∀ line ∈ s.lines, s.origin = some line.origin ∧ line.origin ≤ line.now ∧
    line.now ≤ s.reading true

/-- A call that begins after a state reads no earlier time than that state's. -/
structure Later (s t : LogState Nat) (new : List (Line Nat)) : Prop where
  clock : s.reading true ≤ t.reading true
  read : ∀ thread now origin, s.threads thread = .idle → t.ReadAt thread now origin → s.reading true ≤ now
  written : ∀ line ∈ new, s.threads line.thread = .idle → s.reading true ≤ line.now

theorem readAt_move {s : LogState Nat} {thread other : Int32} {progress : Progress Nat}
    {now origin : UInt64} :
    (s.move thread progress).ReadAt other now origin ↔
      if other = thread then (∃ call, progress = .timed call now origin) ∨ ∃ call n,
        progress = .numbered call now origin n
      else s.ReadAt other now origin := by
  by_cases same : other = thread
  · subst same
    simp [ReadAt]
  · simp [ReadAt, same, move_other same]

end LogState

/-- Where the event reads the clock, the reading succeeds. -/
def LogEvent.Reads : LogEvent → Prop
  | .clockOnce _ read | .readClock _ read => read = true
  | _ => True

namespace LogState

theorem Timed.move {s : LogState Nat} (timed : s.Timed) (thread : Int32) {progress : Progress Nat}
    (begun : ∀ call, progress = .begun call → s.origin ≠ none)
    (read : ∀ now origin, ((∃ call, progress = .timed call now origin) ∨ ∃ call n,
      progress = .numbered call now origin n) →
      s.origin = some origin ∧ origin ≤ now ∧ now ≤ s.reading true) : (s.move thread progress).Timed where
  started := timed.started
  begun other call has := by
    by_cases same : other = thread
    · subst same
      exact begun call ((move_self s other progress).symm.trans has)
    · exact timed.begun other call ((move_other same s progress).symm.trans has)
  read other now origin has := by
    rw [readAt_move] at has
    split at has
    · exact read now origin has
    · exact timed.read other now origin has
  written := timed.written

theorem Timed.tick {s : LogState Nat} (timed : s.Timed) {clock : Timespec} (before : s.clock.Before clock) :
    Timed { s with clock := clock } := by
  have on : s.reading true ≤ monotonicMs (some clock) := monotonicMs_le before
  obtain ⟨started, begun, read, written⟩ := timed
  refine ⟨fun o at_ => UInt64.le_trans (started o at_) on, begun, fun thread now o at_ => ?_,
    fun line among => ?_⟩
  · exact (read thread now o at_).imp_right fun both => both.imp_right fun bound => UInt64.le_trans bound on
  · exact (written line among).imp_right fun both => both.imp_right fun bound => UInt64.le_trans bound on

/-- The origin is what the first call reads, and stays. -/
theorem Timed.clockOnce {s : LogState Nat} (timed : s.Timed) :
    Timed { s with origin := some (s.origin.getD (s.reading true)) } := by
  obtain ⟨started, begun, read, written⟩ := timed
  have kept {o : UInt64} (same : s.origin = some o) :
      some (s.origin.getD (s.reading true)) = some o := by rw [same]; rfl
  refine ⟨fun o at_ => ?_, fun _ _ _ => Option.some_ne_none _, fun thread now o at_ => ?_,
    fun line among => ?_⟩
  · obtain rfl := Option.some.inj at_
    cases same : s.origin with
    | none => exact UInt64.le_refl _
    | some o => exact started o same
  · exact (read thread now o at_).imp_left kept
  · exact (written line among).imp_left kept

theorem Timed.step {s t : LogState Nat} {event : LogEvent} (timed : s.Timed) (moved : Moved s event t)
    (reads : event.Reads) : t.Timed := by
  cases moved with
  | tick before => exact timed.tick before
  | @call thread call at_ => exact timed.move thread (by simp) (by simp)
  | @clockOnce thread call ok at_ =>
    obtain rfl : ok = true := reads
    exact timed.clockOnce.move thread (fun _ _ => Option.some_ne_none _) (by simp)
  | @readClock thread call ok at_ =>
    obtain rfl : ok = true := reads
    refine timed.move thread (by simp) fun now origin has => ?_
    obtain ⟨o, first⟩ := Option.ne_none_iff_exists'.mp (timed.begun thread call at_)
    simp only [Progress.timed.injEq, first, Option.getD_some, reduceCtorEq, exists_false, or_false] at has
    obtain ⟨_, _, rfl, rfl⟩ := has
    exact ⟨first, timed.started _ first, UInt64.le_refl _⟩
  | @fetchAdd thread call now origin at_ =>
    have known := timed.read thread now origin (.inl ⟨call, at_⟩)
    have kept : (s.move thread (.numbered call now origin (s.sequence + 1))).Timed := by
      refine timed.move thread (by simp) fun now' origin' has => ?_
      simp only [reduceCtorEq, exists_false, false_or, Progress.numbered.injEq] at has
      obtain ⟨_, _, _, rfl, rfl, _⟩ := has
      exact known
    exact ⟨kept.started, kept.begun, kept.read, kept.written⟩
  | @write thread call now origin sequence at_ =>
    have known := timed.read thread now origin (.inr ⟨call, sequence, at_⟩)
    have kept : (s.move thread .idle).Timed := timed.move thread (by simp) (by simp)
    refine ⟨kept.started, kept.begun, kept.read, fun line among => ?_⟩
    rcases List.mem_append.mp among with before | last
    · exact kept.written line before
    · obtain rfl := List.mem_singleton.mp last
      exact known

theorem Later.start (s : LogState Nat) : Later s s [] where
  clock := UInt64.le_refl _
  read thread now origin idle has := by
    rcases has with ⟨_, has⟩ | ⟨_, _, has⟩ <;> rw [idle] at has <;> cases has
  written _ none_ := absurd none_ List.not_mem_nil

theorem Later.move {s t : LogState Nat} {new : List (Line Nat)} (later : Later s t new) (thread : Int32)
    {progress : Progress Nat} (read : ∀ now origin, s.threads thread = .idle →
      ((∃ call, progress = .timed call now origin) ∨ ∃ call n, progress = .numbered call now origin n) →
        s.reading true ≤ now) :
    Later s (t.move thread progress) new where
  clock := later.clock
  read other now origin idle has := by
    rw [readAt_move] at has
    split at has
    · rename_i same
      exact read now origin (same ▸ idle) has
    · exact later.read other now origin idle has
  written := later.written

theorem Later.step {s t u : LogState Nat} {new : List (Line Nat)} {event : LogEvent} (later : Later s t new)
    (moved : Moved t event u) (reads : event.Reads) : Later s u (new ++ t.added event) := by
  cases moved with
  | tick before =>
    refine (List.append_nil new).symm ▸ ?_
    exact ⟨UInt64.le_trans later.clock (monotonicMs_le before), later.read, later.written⟩
  | @call thread call at_ => exact (List.append_nil new).symm ▸ later.move thread (by simp)
  | @clockOnce thread call ok at_ =>
    have kept : Later s (t.move thread (.begun call)) new := later.move thread (by simp)
    exact (List.append_nil new).symm ▸ ⟨kept.clock, kept.read, kept.written⟩
  | @readClock thread call ok at_ =>
    obtain rfl : ok = true := reads
    refine (List.append_nil new).symm ▸ later.move thread fun now origin _ has => ?_
    simp only [Progress.timed.injEq, reduceCtorEq, exists_false, or_false] at has
    obtain ⟨_, _, rfl, _⟩ := has
    exact later.clock
  | @fetchAdd thread call now origin at_ =>
    have kept : Later s (t.move thread (.numbered call now origin (t.sequence + 1))) new := by
      refine later.move thread fun now' origin' idle has => ?_
      simp only [reduceCtorEq, exists_false, false_or, Progress.numbered.injEq] at has
      obtain ⟨_, _, _, rfl, rfl, _⟩ := has
      exact later.read thread now origin idle (.inl ⟨call, at_⟩)
    exact (List.append_nil new).symm ▸ ⟨kept.clock, kept.read, kept.written⟩
  | @write thread call now origin sequence at_ =>
    have kept : Later s (t.move thread .idle) new := later.move thread (by simp)
    simp only [added, at_]
    refine ⟨kept.clock, kept.read, fun line among idle => ?_⟩
    rcases List.mem_append.mp among with before | last
    · exact kept.written line before idle
    · obtain rfl := List.mem_singleton.mp last
      exact later.read thread now origin idle (.inr ⟨call, sequence, at_⟩)

theorem numbered_start (clock : Timespec) : (start clock : LogState Nat).Numbered where
  written _ none_ := absurd none_ List.not_mem_nil
  distinct := List.nodup_nil
  held _ _ takes := by
    obtain ⟨_, _, _, has⟩ := takes
    cases has
  apart _ _ _ takes _ := by
    obtain ⟨_, _, _, has⟩ := takes
    cases has
  complete n positive bound := absurd bound (Nat.not_le_of_lt positive)

theorem timed_start (clock : Timespec) : (start clock : LogState Nat).Timed where
  started _ none_ := absurd none_ (Option.not_mem_none _)
  begun _ _ has := by cases has
  read _ _ _ has := by rcases has with ⟨_, has⟩ | ⟨_, _, has⟩ <;> cases has
  written _ none_ := absurd none_ List.not_mem_nil

theorem start_map (clock : Timespec) : (start clock : LogState Nat).map UInt32.ofNat = start clock := rfl

theorem Numbered.run {s t : LogState Nat} {events : List LogEvent} (run : Steps LogState.step s events t)
    (numbered : s.Numbered) : t.Numbered :=
  run.invariant (fun _ _ _ before _ taken => before.step (moved_of_step taken)) (fun _ _ => trivial) numbered

theorem Timed.run {s t : LogState Nat} {events : List LogEvent} (run : Steps LogState.step s events t)
    (reads : ∀ event ∈ events, event.Reads) (timed : s.Timed) : t.Timed :=
  run.invariant (fun _ event _ before (reads : event.Reads) taken =>
    Timed.step before (moved_of_step taken) reads) reads timed

theorem since_run {s t : LogState Nat} {events : List LogEvent} (run : Steps LogState.step s events t) :
    ∃ new, Since s t new ∧ ((∀ event ∈ events, event.Reads) → Later s t new) := by
  induction run with
  | start => exact ⟨[], .start s, fun _ => .start s⟩
  | next _ taken ih =>
    obtain ⟨new, since, later⟩ := ih
    refine ⟨_, since.step (moved_of_step taken), fun reads => ?_⟩
    obtain ⟨before, last⟩ := List.forall_mem_append.mp reads
    exact (later before).step (moved_of_step taken) (List.forall_mem_singleton.mp last)

end LogState

theorem elapsed_le {a b : Line Nat} (same : a.origin = b.origin) (begun : a.origin ≤ a.now)
    (ordered : a.now ≤ b.now) : a.site.elapsed ≤ b.site.elapsed := by
  have begun' : b.origin ≤ b.now := same ▸ UInt64.le_trans begun ordered
  have first : a.site.elapsed = a.now - a.origin := if_pos begun
  have second : b.site.elapsed = b.now - b.origin := if_pos begun'
  rw [first, second, UInt64.le_iff_toNat_le, UInt64.toNat_sub_of_le _ _ begun,
    UInt64.toNat_sub_of_le _ _ begun', same]
  exact Nat.sub_le_sub_right ordered _

/-- Every line begins with its number and a space. -/
theorem print_begins (sequence : UInt32) (site : CallSite) (text : Bytes) :
    ∃ rest, print sequence site text =
      literal "[#" ++ zeroPad 6 (decimal sequence.toNat) ++ literal " " ++ rest := by
  have digits : (decimal sequence.toNat).length ≤ 10 :=
    length_decimal_le (by decide) (sequence.toNat_lt.trans (by decide))
  have short : (literal "[#" ++ zeroPad 6 (decimal sequence.toNat) ++ literal " ").length ≤ 4095 := by
    have opening : (literal "[#").length = 2 := rfl
    have space : (literal " ").length = 1 := rfl
    simp only [List.length_append, length_zeroPad, opening, space]
    omega
  have kept (rest : Bytes) : ∃ rest',
      truncate 4096 (literal "[#" ++ zeroPad 6 (decimal sequence.toNat) ++ literal " " ++ rest) =
        literal "[#" ++ zeroPad 6 (decimal sequence.toNat) ++ literal " " ++ rest' :=
    ⟨_, by rw [truncate, List.take_append, List.take_of_length_le short]⟩
  unfold print
  cases site.module with
  | some info =>
    obtain ⟨rest, cut⟩ := kept (literal "+" ++ zeroPad 6 (decimal site.elapsed.toNat) ++ literal "ms tid=" ++
      signedDecimal site.threadId.toInt ++ literal " pc=" ++ baseName info.fname ++ literal "+0x" ++
      zeroPad 0 (hexadecimal (site.rva info).toNat) ++ literal "] " ++ truncate 3072 text)
    exact ⟨rest, by simpa [printf, formatFrom, convert, literal] using cut⟩
  | none =>
    obtain ⟨rest, cut⟩ := kept (literal "+" ++ zeroPad 6 (decimal site.elapsed.toNat) ++ literal "ms tid=" ++
      signedDecimal site.threadId.toInt ++ literal " pc=0x" ++
      zeroPad 0 (hexadecimal site.pc.toNat) ++ literal "] " ++ truncate 3072 text)
    exact ⟨rest, by simpa [printf, formatFrom, convert, literal] using cut⟩

theorem print_sequence {n m : UInt32} {site site' : CallSite} {text text' : Bytes}
    (same : print n site text = print m site' text') : n = m := by
  obtain ⟨rest, begins⟩ := print_begins n site text
  obtain ⟨rest', begins'⟩ := print_begins m site' text'
  rw [begins, begins'] at same
  simp only [List.append_assoc] at same
  have digits := (spaceless_injective (zeroPad_spaceless (decimal_spaceless _))
    (zeroPad_spaceless (decimal_spaceless _))
    (List.append_cancel_left same)).1
  exact UInt32.toNat_inj.mp (zeroPad_decimal_injective digits)

/-- Lines with different numbers are different in the log. -/
theorem distinct_bytes {lines : List (Line UInt32)} (distinct : (lines.map Line.sequence).Nodup) :
    (lines.map Line.bytes).Nodup := by
  refine List.Nodup.map_on (fun a one b two same => ?_) distinct.of_map
  exact List.inj_on_of_nodup_map distinct one two (print_sequence same)

theorem distinct_map {s : LogState Nat} (numbered : s.Numbered) (few : s.sequence < 2 ^ 32) :
    ((s.map UInt32.ofNat).lines.map Line.sequence).Nodup := by
  have same : (s.map UInt32.ofNat).lines.map Line.sequence = (s.lines.map Line.sequence).map UInt32.ofNat := by
    simp [LogState.map, Line.map, Function.comp_def]
  rw [same]
  refine List.Nodup.map_on (fun n one m two equal => ?_) numbered.distinct
  obtain ⟨a, among, rfl⟩ := List.mem_map.mp one
  obtain ⟨b, among', rfl⟩ := List.mem_map.mp two
  have bound := (numbered.written a among).2.trans_lt few
  have bound' := (numbered.written b among').2.trans_lt few
  have values := congrArg UInt32.toNat equal
  rwa [UInt32.toNat_ofNat_of_lt' bound, UInt32.toNat_ofNat_of_lt' bound'] at values

/-- However the threads of the game print, the numbers of their lines are, in
32 bits, those of a log in which each number from 1 on belongs to one line, or
to one thread that is about to write it; below that many no two lines are the
same text; a call that begins when a line has
been written gets a greater number than that line, and, as long as the clock
can be read, no earlier time. -/
theorem event_order {clock : Timespec} {before after : List LogEvent} {s t : LogState UInt32}
    (run : Steps LogState.step (.start clock) before s) (further : Steps LogState.step s after t) :
    ∃ s' t' : LogState Nat, s = s'.map UInt32.ofNat ∧ t = t'.map UInt32.ofNat ∧ t'.Numbered ∧
      (t'.sequence < 2 ^ 32 → (t.lines.map Line.sequence).Nodup ∧ (t.lines.map Line.bytes).Nodup) ∧
      ∃ new, t'.lines = s'.lines ++ new ∧ ∀ a ∈ s'.lines, ∀ b ∈ new, s'.threads b.thread = .idle →
        a.sequence < b.sequence ∧ ((∀ event ∈ before ++ after, event.Reads) →
          a.site.elapsed ≤ b.site.elapsed) := by
  obtain ⟨s', run', rfl⟩ := Steps.of_image LogState.step_map (LogState.start_map clock ▸ run)
  obtain ⟨t', further', rfl⟩ := Steps.of_image LogState.step_map further
  obtain ⟨new, since, later⟩ := LogState.since_run further'
  have numbered := LogState.Numbered.run run' (LogState.numbered_start clock)
  refine ⟨s', t', rfl, rfl, numbered.run further', fun few => ?_, new, since.lines, ?_⟩
  · have distinct := distinct_map (numbered.run further') few
    exact ⟨distinct, distinct_bytes distinct⟩
  refine fun a written b follows idle => ⟨?_, fun reads => ?_⟩
  · exact (numbered.written a written).2.trans_lt (since.written b follows idle)
  · obtain ⟨first, second⟩ := List.forall_mem_append.mp reads
    have timed := LogState.Timed.run run' first (LogState.timed_start clock)
    have timed' := timed.run further' second
    have kept : a ∈ t'.lines := since.lines ▸ List.mem_append_left new written
    have added : b ∈ t'.lines := since.lines ▸ List.mem_append_right s'.lines follows
    obtain ⟨origin, begun, _⟩ := timed'.written a kept
    have same := Option.some.inj (origin.symm.trans (timed'.written b added).1)
    exact elapsed_le same begun (UInt64.le_trans (timed.written a written).2.2
      ((later second).written b follows idle))

namespace Sample

def call : PrintCall :=
  ⟨literal "net: ConnectToMaster begin", 0x10001A3D, none⟩

/-- The second thread enters while the first has read no time yet, and writes its line first. -/
def begun : List LogEvent :=
  [.call 7 call, .clockOnce 7 true, .call 8 call, .clockOnce 8 true, .readClock 8 true, .readClock 7 true,
    .fetchAdd 7, .fetchAdd 8, .write 8]

def ended : List LogEvent :=
  [.call 8 call, .clockOnce 8 true, .write 7, .readClock 8 true, .fetchAdd 8, .write 8]

end Sample

/-- Two threads print at once. -/
theorem event_order_sample : ∃ s t : LogState UInt32,
    Steps LogState.step (.start ⟨15, 237000000, by decide⟩) Sample.begun s ∧
      Steps LogState.step s Sample.ended t ∧ t.lines.map Line.sequence = [2, 1, 3] ∧
        ∃ s' t' : LogState Nat, s = s'.map UInt32.ofNat ∧ t = t'.map UInt32.ofNat ∧ t'.Numbered := by
  have printed : ∃ s t : LogState UInt32, Steps LogState.step (.start ⟨15, 237000000, by decide⟩) Sample.begun s ∧
      Steps LogState.step s Sample.ended t ∧ t.lines.map Line.sequence = [2, 1, 3] :=
    ⟨_, _, .of_foldlM rfl, .of_foldlM rfl, rfl⟩
  obtain ⟨s, t, run, further, numbers⟩ := printed
  obtain ⟨s', t', same, same', numbered, _⟩ := event_order run further
  exact ⟨s, t, run, further, numbers, s', t', same, same', numbered⟩

end Opg3d.Logger
