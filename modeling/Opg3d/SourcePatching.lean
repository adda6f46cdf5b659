import Opg3d.Cmake.PatchShadowhook

namespace Opg3d.Cmake

open Kit

variable {binaryDir : String} {bytesig shadowhook : Bytes}

theorem bytesigNeedle_filled : literal bytesigNeedle ≠ [] := by decide

theorem linkerNeedle_filled : literal linkerNeedle ≠ [] := by decide

/-- The flag cannot begin inside itself: its space and bar stand at its start only. -/
theorem bytesigNeedle_unbordered : Unbordered (literal bytesigNeedle) := by decide

/-- The statement that is taken out shares no beginning or end with the comment put in its place. -/
theorem linker_separate : Separate (literal linkerNeedle) (literal linkerReplacement) where
  starts := by decide
  ends := by decide
  outside := by
    intro within
    have longer : (literal linkerReplacement).length < (literal linkerNeedle).length := by decide
    exact absurd within.length_le (Nat.not_le.mpr longer)
  inside := by
    intro within
    have slash : 47 ∈ literal linkerReplacement ∧ 47 ∉ literal linkerNeedle := by decide
    exact slash.2 (within.subset slash.1)

theorem linkerMark_replacement : literal linkerMark <:+: literal linkerReplacement := by
  rw [← not_not (a := literal linkerMark <:+: literal linkerReplacement), ← position?_eq_none_iff]
  decide

theorem patchBytesig_content (binaryDir : String) (bytesig : Bytes) (shadowhook : Option Bytes) :
    ∃ status, patchBytesig binaryDir ⟨some bytesig, shadowhook⟩ =
      ⟨⟨some (replaceAll (literal bytesigNeedle) [] bytesig), shadowhook⟩, status, none⟩ := by
  simp only [patchBytesig]
  by_cases absent : find bytesig (literal bytesigNeedle) = -1
  · rw [if_pos absent, replaceAll_absent (find_eq_iff.mp absent)]
    exact ⟨_, rfl⟩
  · rw [if_neg absent]
    exact ⟨_, rfl⟩

theorem patchLinker_content (binaryDir : String) (bytesig : Option Bytes) (shadowhook : Bytes) :
    ∃ status fatal, patchLinker binaryDir ⟨bytesig, some shadowhook⟩ =
        ⟨⟨bytesig, some (replaceAll (literal linkerNeedle) (literal linkerReplacement) shadowhook)⟩,
          status, fatal⟩ ∧
      (fatal = none ↔ literal linkerNeedle <:+: shadowhook ∨ literal linkerMark <:+: shadowhook) := by
  simp only [patchLinker]
  by_cases absent : find shadowhook (literal linkerNeedle) = -1
  · have missing := find_eq_iff.mp absent
    rw [if_neg (not_not.mpr absent), replaceAll_absent missing, or_iff_right missing]
    by_cases unmarked : find shadowhook (literal linkerMark) = -1
    · rw [if_neg (not_not.mpr unmarked)]
      exact ⟨_, _, rfl, iff_of_false (Option.some_ne_none _) (find_eq_iff.mp unmarked)⟩
    · rw [if_pos unmarked]
      exact ⟨_, _, rfl, iff_of_true rfl (not_not.mp (mt find_eq_iff.mpr unmarked))⟩
  · rw [if_pos absent]
    exact ⟨_, _, rfl, iff_of_true rfl (Or.inl (not_not.mp (mt find_eq_iff.mpr absent)))⟩

/-- Both files are what one pass leaves of them, also after a fatal error. -/
theorem patch_content (binaryDir : String) (bytesig shadowhook : Bytes) :
    (patch binaryDir ⟨some bytesig, some shadowhook⟩).sources =
        ⟨some (replaceAll (literal bytesigNeedle) [] bytesig),
          some (replaceAll (literal linkerNeedle) (literal linkerReplacement) shadowhook)⟩ ∧
      ((patch binaryDir ⟨some bytesig, some shadowhook⟩).fatal = none ↔
        literal linkerNeedle <:+: shadowhook ∨ literal linkerMark <:+: shadowhook) := by
  obtain ⟨status, first⟩ := patchBytesig_content binaryDir bytesig (some shadowhook)
  obtain ⟨later, fatal, second, ready⟩ :=
    patchLinker_content binaryDir (some (replaceAll (literal bytesigNeedle) [] bytesig)) shadowhook
  rw [patch, first, Run.andThen_finished, second]
  cases fatal with
  | none =>
    rw [Run.andThen_finished]
    exact ⟨rfl, ready⟩
  | some text =>
    rw [Run.andThen_fatal]
    exact ⟨rfl, ready⟩

/-- Both files are there as the build needs them, and the script has nothing
more to do. -/
structure Settled (binaryDir : String) (sources : Sources) : Prop where
  unflagged : ∃ bytesig, sources.bytesig = some bytesig ∧ ¬literal bytesigNeedle <:+: bytesig
  unlinked : ∃ shadowhook, sources.shadowhook = some shadowhook ∧ ¬literal linkerNeedle <:+: shadowhook ∧
    literal linkerMark <:+: shadowhook
  again : (patch binaryDir sources).fatal = none
  unchanged : (patch binaryDir sources).sources = sources

/-- The part about `shadowhook.c` holds after every run. -/
theorem linker_settled (ready : literal linkerNeedle <:+: shadowhook ∨ literal linkerMark <:+: shadowhook) :
    ¬literal linkerNeedle <:+: replaceAll (literal linkerNeedle) (literal linkerReplacement) shadowhook ∧
      literal linkerMark <:+: replaceAll (literal linkerNeedle) (literal linkerReplacement) shadowhook := by
  refine ⟨linker_separate.absent_replaced linkerNeedle_filled shadowhook, ?_⟩
  by_cases found : literal linkerNeedle <:+: shadowhook
  · exact linkerMark_replacement.trans (infix_replaceAll linkerNeedle_filled found)
  · rw [replaceAll_absent found]
    exact ready.resolve_left found

/-- After a run that finishes, the sources are settled exactly if the flag
stood nowhere with whole flags between its letters. -/
theorem patch_settled_iff (finished : (patch binaryDir ⟨some bytesig, some shadowhook⟩).fatal = none) :
    Settled binaryDir (patch binaryDir ⟨some bytesig, some shadowhook⟩).sources ↔
      ¬Interrupted (literal bytesigNeedle) bytesig := by
  have left : literal bytesigNeedle <:+: replaceAll (literal bytesigNeedle) [] bytesig ↔
      Interrupted (literal bytesigNeedle) bytesig :=
        infix_removed_iff bytesigNeedle_unbordered bytesigNeedle_filled
  obtain ⟨after, ready⟩ := patch_content binaryDir bytesig shadowhook
  have linker := linker_settled (ready.mp finished)
  rw [after, ← left]
  constructor
  · intro settled
    obtain ⟨content, same, absent⟩ := settled.unflagged
    rwa [Option.some.inj same]
  · intro absent
    obtain ⟨later, again⟩ := patch_content binaryDir (replaceAll (literal bytesigNeedle) [] bytesig)
      (replaceAll (literal linkerNeedle) (literal linkerReplacement) shadowhook)
    rw [replaceAll_absent absent, replaceAll_absent linker.1] at later
    exact ⟨⟨_, rfl, absent⟩, ⟨_, rfl, linker⟩, again.mpr (Or.inr linker.2), later⟩

theorem patch_settled_flag :
    Settled "build" (patch "build"
        ⟨some (literal "sa_flags = SA_SIGINFO | SA_EXPOSE_TAGBITS;"),
          some (literal linkerNeedle)⟩).sources ↔
      ¬Interrupted (literal bytesigNeedle) (literal "sa_flags = SA_SIGINFO | SA_EXPOSE_TAGBITS;") :=
  patch_settled_iff (by decide)

/-- The removal closes the gap in a longer name, and what it leaves is the flag
itself; a second run would remove it. -/
theorem patch_unsettled_gap :
    (patch "build" ⟨some (literal "sa_flags = SA_SIGINFO | SA_EXPOSE | SA_EXPOSE_TAGBITS_TAGBITS;"),
        some (literal linkerNeedle)⟩).fatal = none ∧
      (patch "build" ⟨some (literal "sa_flags = SA_SIGINFO | SA_EXPOSE | SA_EXPOSE_TAGBITS_TAGBITS;"),
        some (literal linkerNeedle)⟩).sources.bytesig = some
          (literal "sa_flags = SA_SIGINFO | SA_EXPOSE_TAGBITS;") ∧
      ¬Settled "build" (patch "build"
        ⟨some (literal "sa_flags = SA_SIGINFO | SA_EXPOSE | SA_EXPOSE_TAGBITS_TAGBITS;"),
          some (literal linkerNeedle)⟩).sources := by
  have left : (patch "build" ⟨some (literal "sa_flags = SA_SIGINFO | SA_EXPOSE | SA_EXPOSE_TAGBITS_TAGBITS;"),
      some (literal linkerNeedle)⟩).sources.bytesig = some
        (literal "sa_flags = SA_SIGINFO | SA_EXPOSE_TAGBITS;") := by
    decide
  refine ⟨by decide, left, ?_⟩
  intro settled
  obtain ⟨bytesig, same, absent⟩ := settled.unflagged
  rw [left] at same
  rw [← Option.some.inj same] at absent
  exact absent ⟨literal "sa_flags = SA_SIGINFO", literal ";", by decide⟩

end Opg3d.Cmake
