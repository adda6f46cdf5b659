namespace Kit

variable {State Label : Type}

/-- Runs of a system whose steps are told by their labels. -/
inductive Steps (step : State → Label → Option State) (s : State) : List Label → State → Prop
  | start : Steps step s [] s
  | next {labels t label u} : Steps step s labels t → step t label = some u →
    Steps step s (labels ++ [label]) u

namespace Steps

variable {step : State → Label → Option State} {s t u : State} {labels later : List Label}

theorem trans (first : Steps step s labels t) (second : Steps step t later u) :
    Steps step s (labels ++ later) u := by
  induction second with
  | start => rwa [List.append_nil]
  | next _ taken ih =>
    rw [← List.append_assoc]
    exact .next ih taken

theorem cons {label : Label} (taken : step s label = some t) (run : Steps step t labels u) :
    Steps step s (label :: labels) u :=
  (Steps.start.next taken).trans run

theorem of_foldlM (folded : labels.foldlM step s = some t) : Steps step s labels t := by
  induction labels generalizing s with
  | nil =>
    obtain rfl := Option.some.inj folded
    exact .start
  | cons label labels ih =>
    obtain ⟨u, taken, rest⟩ := Option.bind_eq_some_iff.mp folded
    exact .cons taken (ih rest)

/-- What every step keeps whose label is admitted. -/
theorem invariant {admits : Label → Prop} {inv : State → Prop}
    (keeps : ∀ s label t, inv s → admits label → step s label = some t → inv t)
    (run : Steps step s labels t) (admitted : ∀ label ∈ labels, admits label) (start : inv s) : inv t := by
  induction run with
  | start => exact start
  | next _ taken ih =>
    obtain ⟨before, last⟩ := List.forall_mem_append.mp admitted
    exact keeps _ _ _ (ih before) (List.forall_mem_singleton.mp last) taken

/-- A system is run by the one it is an image of. -/
theorem of_image {Other : Type} {step' : Other → Label → Option Other} {image : Other → State}
    (same : ∀ s' label, step (image s') label = (step' s' label).map image) {s' : Other}
    (run : Steps step (image s') labels t) : ∃ t', Steps step' s' labels t' ∧ t = image t' := by
  generalize begun : image s' = s at run
  induction run with
  | start => exact ⟨s', .start, begun.symm⟩
  | next _ taken ih =>
    obtain ⟨t', before, rfl⟩ := ih
    rw [same] at taken
    obtain ⟨u', done, rfl⟩ := Option.map_eq_some_iff.mp taken
    exact ⟨u', .next before done, rfl⟩

end Steps

end Kit
