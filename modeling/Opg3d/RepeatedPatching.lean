import Opg3d.Kit.Removal
import Opg3d.SourcePatching

namespace Opg3d.Cmake

open Kit Relation

/-- The sources after so many runs of the script, one after the other. -/
def rerun (binaryDir : String) (n : Nat) (sources : Sources) : Sources :=
  (fun sources => (patch binaryDir sources).sources)^[n] sources

theorem rerun_succ (binaryDir : String) (n : Nat) (sources : Sources) :
    rerun binaryDir (n + 1) sources = (patch binaryDir (rerun binaryDir n sources)).sources :=
  Function.iterate_succ_apply' ..

/-- Of the statement that is taken out the second pass finds nothing. -/
theorem linker_again (shadowhook : Bytes) :
    replaceAll (literal linkerNeedle) (literal linkerReplacement)
        (replaceAll (literal linkerNeedle) (literal linkerReplacement) shadowhook) =
      replaceAll (literal linkerNeedle) (literal linkerReplacement) shadowhook :=
  replaceAll_absent (linker_separate.absent_replaced linkerNeedle_filled shadowhook)

theorem ready_again (shadowhook : Bytes) :
    (literal linkerNeedle <:+: replaceAll (literal linkerNeedle) (literal linkerReplacement) shadowhook ∨
        literal linkerMark <:+: replaceAll (literal linkerNeedle) (literal linkerReplacement) shadowhook) ↔
      literal linkerNeedle <:+: shadowhook ∨ literal linkerMark <:+: shadowhook := by
  constructor
  · intro again
    by_cases found : literal linkerNeedle <:+: shadowhook
    · exact Or.inl found
    · rwa [replaceAll_absent found] at again
  · exact fun ready => Or.inr (linker_settled ready).2

/-- What the runs have made of the sources. -/
theorem rerun_content (binaryDir : String) (bytesig shadowhook : Bytes) (n : Nat) :
    rerun binaryDir (n + 1) ⟨some bytesig, some shadowhook⟩ =
      ⟨some ((replaceAll (literal bytesigNeedle) [])^[n + 1] bytesig),
        some (replaceAll (literal linkerNeedle) (literal linkerReplacement) shadowhook)⟩ := by
  induction n with
  | zero => exact (patch_content binaryDir bytesig shadowhook).1
  | succ n ih =>
    rw [rerun_succ, ih, (patch_content ..).1, linker_again, Function.iterate_succ_apply' _ (n + 1)]

theorem rerun_fatal (binaryDir : String) (bytesig shadowhook : Bytes) (n : Nat) :
    (patch binaryDir (rerun binaryDir n ⟨some bytesig, some shadowhook⟩)).fatal = none ↔
      (patch binaryDir ⟨some bytesig, some shadowhook⟩).fatal = none := by
  cases n with
  | zero => rfl
  | succ n => rw [rerun_content, (patch_content ..).2, (patch_content ..).2, ready_again]

/-- Run again and again, the script comes to an end: after as many runs as the
file could hold flags, and at least one, `bytesig.c` is the one text that is
left when the flags are taken out one by one in any order, `shadowhook.c` is
what the first run made of it, and more runs change nothing. Every run fails
if the first one does; if not, the sources end up as the build needs them. -/
theorem patch_converges (binaryDir : String) (bytesig shadowhook : Bytes) :
    let after n := rerun binaryDir n ⟨some bytesig, some shadowhook⟩
    (∀ n, (patch binaryDir (after n)).fatal = none ↔ (patch binaryDir (after 0)).fatal = none) ∧
    ∃ clean, ReflTransGen (Removes (literal bytesigNeedle)) bytesig clean ∧
      ¬literal bytesigNeedle <:+: clean ∧
      (∀ other, ReflTransGen (Removes (literal bytesigNeedle)) bytesig other →
        ¬literal bytesigNeedle <:+: other → other = clean) ∧
      ∀ n, 1 ≤ n → bytesig.length < (n + 1) * (literal bytesigNeedle).length →
        after n = ⟨some clean, some (replaceAll (literal linkerNeedle) (literal linkerReplacement) shadowhook)⟩ ∧
          after (n + 1) = after n ∧
          (Settled binaryDir (after n) ↔ (patch binaryDir (after 0)).fatal = none) := by
  intro after
  let passes (n : Nat) : Bytes := (replaceAll (literal bytesigNeedle) [])^[n] bytesig
  have removals (n : Nat) : ReflTransGen (Removes (literal bytesigNeedle)) bytesig (passes n) :=
    removals_iterate bytesigNeedle_filled n bytesig
  have absent {n : Nat} (enough : bytesig.length < (n + 1) * (literal bytesigNeedle).length) :
      ¬literal bytesigNeedle <:+: passes n := absent_iterate bytesigNeedle_unbordered bytesigNeedle_filled enough
  have length : 0 < (literal bytesigNeedle).length := List.length_pos_iff.mpr bytesigNeedle_filled
  have last : bytesig.length < (bytesig.length + 1) * (literal bytesigNeedle).length :=
    Nat.lt_of_lt_of_le (Nat.lt_succ_self _) (Nat.le_mul_of_pos_right _ length)
  have only (other : Bytes) (taken : ReflTransGen (Removes (literal bytesigNeedle)) bytesig other)
      (clean : ¬literal bytesigNeedle <:+: other) : other = passes bytesig.length :=
    removals_unique bytesigNeedle_unbordered (removals _) (absent last) taken clean
  refine ⟨fun n => rerun_fatal binaryDir bytesig shadowhook n, passes bytesig.length, removals _,
    absent last, only, fun n ran enough => ?_⟩
  cases n with
  | zero => omega
  | succ n =>
    have clean := absent enough
    have content : after (n + 1) = ⟨some (passes (n + 1)),
        some (replaceAll (literal linkerNeedle) (literal linkerReplacement) shadowhook)⟩ := rerun_content ..
    have fixed : after (n + 1 + 1) = after (n + 1) := by
      have again : after (n + 1 + 1) = (patch binaryDir (after (n + 1))).sources := rerun_succ ..
      rw [again, content, (patch_content ..).1, replaceAll_absent clean, linker_again]
    refine ⟨by rw [content, only _ (removals _) clean], fixed, fun settled => ?_, fun finished => ?_⟩
    · exact (rerun_fatal ..).mp settled.again
    · have ready := (patch_content ..).2.mp finished
      refine ⟨⟨_, congrArg Sources.bytesig content, clean⟩,
        ⟨_, congrArg Sources.shadowhook content, linker_settled ready⟩,
        (rerun_fatal ..).mpr finished, (rerun_succ ..).symm.trans fixed⟩

end Opg3d.Cmake
