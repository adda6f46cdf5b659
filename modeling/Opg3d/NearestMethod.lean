import Opg3d.Kit.Sorted
import Opg3d.Tool.Symbolize

namespace Opg3d.Symbolize

open Kit

/-- The addresses, not above the given one, at which methods start. -/
def startsUpTo (methods : List Method) (rva : Nat) : Set Nat :=
  {start | start ≤ rva ∧ ∃ m ∈ methods, m.rva = start}

/-- The names of the methods that start at an address. -/
def namesAt (methods : List Method) (start : Nat) : Finset Text :=
  ((methods.filter (·.rva = start)).map (·.qualifiedName)).toFinset

/-- Some names, how many more there are, and the offset from where they start. -/
def rendering (shown : List Text) (further offset : Nat) : Text :=
  ['|'].intercalate shown ++ (if 0 < further then "|+".toList ++ decimalText further ++ " more".toList else []) ++
    "+0x".toList ++ hexText offset

variable {methods : List Method} {rva start : Nat} {maxOffset : Int}

namespace RvaIndex

theorem rvas_increasing (index : RvaIndex) : index.rvas.Pairwise (· < ·) := sortedSet_increasing _

theorem names_increasing (index : RvaIndex) (rva : Nat) : (index.names rva).Pairwise (· < ·) :=
  sortedSet_increasing _

theorem mem_rvas : start ∈ (RvaIndex.mk methods).rvas ↔ ∃ m ∈ methods, m.rva = start := by
  rw [rvas, mem_sortedSet, List.mem_map]

theorem mem_names (name : Text) :
    name ∈ namesAt methods start ↔ name ∈ (RvaIndex.mk methods).names start := by
  rw [names, mem_sortedSet, namesAt, List.mem_toFinset]

theorem length_names (start : Nat) :
    ((RvaIndex.mk methods).names start).length = (namesAt methods start).card :=
  (card_of_increasing ((RvaIndex.mk methods).names_increasing start) mem_names).symm

theorem setOf_rvas : {b | b ∈ (RvaIndex.mk methods).rvas ∧ b ≤ rva} = startsUpTo methods rva := by
  ext start
  exact and_comm.trans (and_congr_right fun _ => mem_rvas)

/-- The search ends before the first start, or at the greatest one that is not above the address. -/
theorem resolve_cases (methods : List Method) (rva : Nat) :
    (startsUpTo methods rva = ∅ ∧ ∀ maxOffset, (RvaIndex.mk methods).resolve rva maxOffset = none) ∨
      ∃ start, IsGreatest (startsUpTo methods rva) start ∧ ∀ maxOffset,
        (RvaIndex.mk methods).resolve rva maxOffset =
        if ((rva - start : Nat) : Int) > maxOffset then none
        else some (rendering (((RvaIndex.mk methods).names start).take 3)
          ((namesAt methods start).card - 3) (rva - start)) := by
  have increasing := (RvaIndex.mk methods).rvas_increasing
  rcases ((RvaIndex.mk methods).rvas.takeWhile (· ≤ rva)).eq_nil_or_concat' with none_ | ⟨front, start, split⟩
  · left
    constructor
    · rw [← setOf_rvas, Set.eq_empty_iff_forall_notMem]
      intro start within
      have mem := (mem_takeWhile_le increasing).mpr within
      rw [none_] at mem
      cases mem
    · intro maxOffset
      have position : bisectRight (RvaIndex.mk methods).rvas rva =
        0 := by rw [bisectRight, none_, List.length_nil]
      rw [resolve, position]
      rfl
  · right
    have greatest := isGreatest_takeWhile_le increasing split
    rw [setOf_rvas] at greatest
    refine ⟨start, greatest, fun maxOffset => ?_⟩
    have position : bisectRight (RvaIndex.mk methods).rvas rva = front.length + 1 := by
      rw [bisectRight, split, List.length_append, List.length_singleton]
    have nearest : (RvaIndex.mk methods).rvas.getD front.length 0 = start := by
      have begins := List.takeWhile_prefix (fun b => decide (b ≤ rva)) (l := (RvaIndex.mk methods).rvas)
      rw [split] at begins
      obtain ⟨later, whole⟩ := begins
      rw [← whole, List.getD_eq_getElem?_getD, List.append_assoc,
        List.getElem?_append_right le_rfl, Nat.sub_self]
      rfl
    have more : (namesAt methods start).card > 3 ↔ 0 < (namesAt methods start).card - 3 := by omega
    simp only [resolve, position, Nat.add_one_ne_zero, if_false, Nat.add_sub_cancel, nearest, rendering,
      length_names, more]

/-- Nothing is found exactly if no method starts within reach. -/
theorem resolve_eq_none_iff : (RvaIndex.mk methods).resolve rva maxOffset = none ↔
    ∀ m ∈ methods, ¬((rva : Int) - maxOffset ≤ m.rva ∧ m.rva ≤ rva) := by
  rcases resolve_cases methods rva with ⟨nowhere, outcome⟩ | ⟨start, greatest, outcome⟩
  · rw [outcome, eq_self_iff_true, true_iff]
    rintro m mem ⟨_, below⟩
    have within : m.rva ∈ startsUpTo methods rva := ⟨below, m, mem, rfl⟩
    rw [nowhere] at within
    exact within
  · obtain ⟨⟨below, m, mem, same⟩, upper⟩ := greatest
    rw [outcome]
    constructor
    · intro missed other among
      rintro ⟨near, above⟩
      have bound : other.rva ≤ start := upper ⟨above, other, among, rfl⟩
      rw [if_neg (by omega)] at missed
      cases missed
    · intro far
      have apart := far m mem
      rw [if_pos (by omega)]

/-- What is found is told from the nearest start. -/
theorem resolve_eq_some_iff {text : Text} : (RvaIndex.mk methods).resolve rva maxOffset = some text ↔
    ∃ start shown, IsGreatest (startsUpTo methods rva) start ∧ (rva : Int) - start ≤ maxOffset ∧
      FirstOf 3 (namesAt methods start) shown ∧ text = rendering shown ((namesAt methods start).card - 3)
        (rva - start) := by
  have first (start : Nat) := firstOf_take ((RvaIndex.mk methods).names_increasing start) mem_names 3
  rcases resolve_cases methods rva with ⟨nowhere, outcome⟩ | ⟨start, greatest, outcome⟩
  · rw [outcome]
    refine iff_of_false (Option.some_ne_none text).symm ?_
    rintro ⟨start, _, greatest, _⟩
    have within := greatest.1
    rw [nowhere] at within
    exact within
  · have below : start ≤ rva := greatest.1.1
    rw [outcome]
    constructor
    · intro found
      by_cases far : ((rva - start : Nat) : Int) > maxOffset
      · rw [if_pos far] at found
        cases found
      · rw [if_neg far] at found
        exact ⟨start, _, greatest, by omega, first start, (Option.some.inj found).symm⟩
    · rintro ⟨other, shown, nearest, reach, names, rfl⟩
      obtain rfl := nearest.unique greatest
      rw [if_neg (by omega), names.unique (first other)]

/-- Neither the order nor the repetition of the methods matters. -/
theorem resolve_of_same {others : List Method} (same : ∀ m, m ∈ others ↔ m ∈ methods) :
    (RvaIndex.mk others).resolve rva maxOffset = (RvaIndex.mk methods).resolve rva maxOffset := by
  have starts : startsUpTo others rva = startsUpTo methods rva := by
    ext start
    simp only [startsUpTo, same]
  have names (start : Nat) : namesAt others start = namesAt methods start := by
    ext name
    simp only [namesAt, List.mem_toFinset, List.mem_map, List.mem_filter, same]
  ext text
  simp only [resolve_eq_some_iff, starts, names]

theorem resolve_of_larger {larger : Int} {text : Text} (more : maxOffset ≤ larger)
    (found : (RvaIndex.mk methods).resolve rva maxOffset = some text) :
    (RvaIndex.mk methods).resolve rva larger = some text := by
  obtain ⟨start, shown, greatest, reach, rest⟩ := resolve_eq_some_iff.mp found
  exact resolve_eq_some_iff.mpr ⟨start, shown, greatest, reach.trans more, rest⟩

end RvaIndex

/-- The index finds what a search through all methods finds. -/
theorem resolve_nearest (methods : List Method) (rva : Nat) (maxOffset : Int) :
    ((RvaIndex.mk methods).resolve rva maxOffset = none ↔
        ∀ m ∈ methods, ¬((rva : Int) - maxOffset ≤ m.rva ∧ m.rva ≤ rva)) ∧
      (∀ text, (RvaIndex.mk methods).resolve rva maxOffset = some text ↔
        ∃ start shown, IsGreatest (startsUpTo methods rva) start ∧ (rva : Int) - start ≤ maxOffset ∧
          FirstOf 3 (namesAt methods start) shown ∧
          text = rendering shown ((namesAt methods start).card - 3) (rva - start)) ∧
      (∀ others : List Method, (∀ m, m ∈ others ↔ m ∈ methods) →
        (RvaIndex.mk others).resolve rva maxOffset = (RvaIndex.mk methods).resolve rva maxOffset) ∧
      ∀ larger ≥ maxOffset, (RvaIndex.mk methods).resolve rva maxOffset ≠ none →
        (RvaIndex.mk methods).resolve rva larger = (RvaIndex.mk methods).resolve rva maxOffset := by
  refine ⟨RvaIndex.resolve_eq_none_iff, fun text => RvaIndex.resolve_eq_some_iff, ?_, ?_⟩
  · intro others same
    exact RvaIndex.resolve_of_same same
  · intro larger more some_
    obtain ⟨text, found⟩ := Option.ne_none_iff_exists'.mp some_
    rw [found]
    exact RvaIndex.resolve_of_larger more found

end Opg3d.Symbolize
