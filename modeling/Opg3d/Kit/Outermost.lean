import Opg3d.Kit.Reentry

namespace Kit.Machine

variable {S : Signature} {σ Site W : Type}

/-- What the outermost call of a step has started before: nothing, if the step begins it. -/
def startedBefore (c : Config S σ Site W) (sites : List Site) : List Site :=
  match c.stack with
  | [] => []
  | _ :: _ => sites

/-- The sites of the bodies started in the current outermost call, over one step. -/
inductive Counts (c d : Config S σ Site W) (sites : List Site) : List Site → Prop
  | start {site} : Starts c d site → Counts c d sites (site :: startedBefore c sites)
  | other : (∀ site, ¬Starts c d site) → Counts c d sites (startedBefore c sites)

/-- A run that counts the bodies started in the current outermost call, the latest first. -/
inductive Counted (M : Machine S σ Site W) :
    Config S σ Site W → List Site → List (Label S Site W) → Config S σ Site W → List Site → Prop
  | stop {c sites} : Counted M c sites [] c sites
  | step {c sites label d more labels e final} : M.Step c label d → Counts c d sites more →
      Counted M d more labels e final → Counted M c sites (label :: labels) e final

variable {M : Machine S σ Site W} {c d : Config S σ Site W} {sites more : List Site}

theorem mem_startedBefore {site : Site} (member : site ∈ startedBefore c sites) :
    c.stack ≠ [] ∧ site ∈ sites := by
  unfold startedBefore at member
  split at member
  · cases member
  · rename_i frame rest nonempty
    exact ⟨nonempty ▸ List.cons_ne_nil frame rest, member⟩

theorem startedBefore_of_active (active : c.stack ≠ []) : startedBefore c sites = sites := by
  unfold startedBefore
  split
  · rename_i empty
    exact absurd empty active
  · rfl

theorem Counts.subset (counts : Counts c d sites more) : startedBefore c sites ⊆ more := by
  cases counts with
  | start => exact List.subset_cons_self ..
  | other => exact fun _ => id

theorem Counts.mem {site : Site} (counts : Counts c d sites more) (starts : Starts c d site) :
    site ∈ more := by
  cases counts with
  | @start other also =>
    obtain rfl : other = site := by simpa using (List.cons.inj (also.symm.trans starts)).1
    exact List.mem_cons_self ..
  | other never => exact absurd starts (never site)

theorem exists_counts (c d : Config S σ Site W) (sites : List Site) : ∃ more, Counts c d sites more := by
  by_cases starts : ∃ site, Starts c d site
  · obtain ⟨site, starts⟩ := starts
    exact ⟨_, .start starts⟩
  · exact ⟨_, .other (not_exists.mp starts)⟩

/-- Every run can be counted. -/
theorem RunWhere.counted {fits : Config S σ Site W → Label S Site W → Prop} {labels : List (Label S Site W)}
    (run : M.RunWhere fits c labels d) (sites : List Site) : ∃ final, M.Counted c sites labels d final := by
  induction run generalizing sites with
  | stop => exact ⟨sites, .stop⟩
  | @step c next _ _ _ _ first _ ih =>
    obtain ⟨more, counts⟩ := exists_counts c next sites
    obtain ⟨final, rest⟩ := ih more
    exact ⟨final, .step first counts rest⟩

/-- What one step keeps, of the configuration and of what has been started, a run keeps. -/
theorem Counted.invariant {kept : Config S σ Site W → List Site → Prop} {labels : List (Label S Site W)}
    {final : List Site} (run : M.Counted c sites labels d final)
    (keeps : ∀ c sites label d more, kept c sites → M.Step c label d → Counts c d sites more → kept d more)
    (start : kept c sites) : kept d final := by
  induction run with
  | stop => exact start
  | step first counts _ ih => exact ih (keeps _ _ _ _ _ start first counts)

end Kit.Machine
