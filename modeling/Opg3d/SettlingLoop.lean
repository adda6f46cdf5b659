import Opg3d.InitProtocol

namespace Opg3d.InitThread

open Kit Native

/-- Equal samples, none zero, from a sample on, as many as the loop asks for. -/
def RunAt (counts : Nat → Nat) (j : Nat) : Prop :=
  counts j ≠ 0 ∧ ∀ k ≤ kStableChecks, counts (j + k) = counts j

namespace Environment

variable {counts : Nat → Nat}

/-- A loop that has stopped by itself stops there with more steps too. -/
theorem settling_more (n m : Nat) {i stable last : Nat}
    (full : kStableChecks ≤ (settling counts n i stable last).1) :
    settling counts (n + m) i stable last = settling counts n i stable last := by
  induction n generalizing i stable last with
  | zero =>
    have stopped : ¬stable < kStableChecks := not_lt.mpr full
    rw [Nat.zero_add]
    cases m with
    | zero => rfl
    | succ m => exact if_neg stopped
  | succ n ih =>
    rw [Nat.succ_add]
    unfold settling at full ⊢
    by_cases unfinished : stable < kStableChecks
    · rw [if_pos unfinished] at full ⊢
      rw [if_pos unfinished]
      exact ih full
    · rw [if_neg unfinished, if_neg unfinished]

/-- A run that ends within the steps stops the loop at its end or before. -/
theorem settling_stops {j steps : Nat} (run : RunAt counts j) (within : j + kStableChecks < steps) :
    kStableChecks ≤ (settling counts steps 0 0 0).1 ∧
      (settling counts steps 0 0 0).2.2 ≤ j + kStableChecks + 1 := by
  have full : kStableChecks ≤ (settling counts (j + kStableChecks + 1) 0 0 0).1 :=
    settling_complete run.1 run.2 _ (.inl j.zero_le) (by omega)
  have more := settling_more (j + kStableChecks + 1) (steps - (j + kStableChecks + 1)) full
  rw [Nat.add_sub_cancel' within] at more
  have index := @settling_index_le counts (j + kStableChecks + 1) 0 0 0
  rw [more]
  exact ⟨full, by omega⟩

/-- What the loop of `init_thread` leaves is what the loop over the counts leaves. -/
theorem settle_eval (env : Environment) {domain : Ptr} (present : domain ≠ 0) {p : Progress}
    (bound : p.api .domainGetAssemblies ≠ 0) (steps : Nat) :
    let loop := (settle domain steps 0 0).eval env.answer p
    (loop.1.1, loop.1.2, loop.2.counts) = settling env.count steps p.counts 0 0 := by
  intro loop
  obtain ⟨i, same, after⟩ := (@settle_wp env _ present steps 0 0 p bound).eval id fun _ _ => ⟨rfl, rfl⟩
  have taken : loop.2.counts = i := congrArg Progress.counts after
  rw [taken]
  exact same

/-- The loop proceeds exactly if a run of equal samples, none zero, ends within
its steps. It then has taken the samples up to the end of the earliest run,
and reports the value of that run. -/
theorem settle_run (env : Environment) {domain : Ptr} (present : domain ≠ 0) {p : Progress}
    (bound : p.api .domainGetAssemblies ≠ 0) (fresh : p.counts = 0) :
    let loop := (settle domain kWaitSteps 0 0).eval env.answer p
    (kStableChecks ≤ loop.1.1 ↔ ∃ j, j + kStableChecks < kWaitSteps ∧ RunAt env.count j) ∧
      ∀ j, j + kStableChecks < kWaitSteps → RunAt env.count j → (∀ i < j, ¬RunAt env.count i) →
        loop.2.counts = j + kStableChecks + 1 ∧ loop.1.2 = env.count j := by
  intro loop
  have left := settle_eval env present bound kWaitSteps
  rw [fresh] at left
  have stopped : loop.1.1 = (settling env.count kWaitSteps 0 0 0).1 := congrArg Prod.fst left
  have reported : loop.1.2 = (settling env.count kWaitSteps 0 0 0).2.1 := congrArg (fun r => r.2.1) left
  have taken : loop.2.counts = (settling env.count kWaitSteps 0 0 0).2.2 := congrArg (fun r => r.2.2) left
  rw [stopped, reported, taken]
  refine ⟨settling_iff, fun j within run earliest => ?_⟩
  obtain ⟨full, early⟩ := settling_stops run within
  obtain ⟨i, last, value, run'⟩ := settling_ended kWaitSteps (.start env.count) full
  have same : i = j := by
    rcases Nat.lt_trichotomy i j with before | same | later
    · exact absurd run' (earliest i before)
    · exact same
    · omega
  exact same ▸ ⟨last, value⟩

/-- A runtime that reports fifty assemblies, then none for a moment, and then sixty for good. -/
def reloading : Environment where
  library _ := some 1
  symbol _ _ := 1
  domain _ := 1
  assemblies i := ⟨if i < 20 then 50 else if i = 20 then 0 else 60, none, Assemblies.unlisted _⟩
  thread := 1
  image _ _ := 1
  photon := true
  guard := true

theorem count_reloading {i : Nat} (later : 20 < i) : reloading.count i = 60 := by
  have none : ¬i < 20 := by omega
  have more : i ≠ 20 := by omega
  simp [count, reloading, none, more]

theorem settle_run_reloading :
    let loop := (settle 1 kWaitSteps 0 0).eval reloading.answer { Progress.start with api := fun _ => 1 }
    loop.2.counts = 47 ∧ loop.1.2 = 60 := by
  refine (settle_run reloading (by decide) (by decide) rfl).2 21 (by decide)
    ⟨by decide, fun k _ => ?_⟩ fun i before run => ?_
  · rw [count_reloading (by omega), count_reloading (by decide)]
  · have gap : reloading.count (i + (20 - i)) = reloading.count i :=
      run.2 (20 - i) (by unfold kStableChecks; omega)
    rw [Nat.add_sub_cancel' (by omega)] at gap
    exact run.1 (gap.symm.trans (by decide))

end Environment

end Opg3d.InitThread
