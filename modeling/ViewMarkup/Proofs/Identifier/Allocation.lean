import Mathlib.Data.List.Nodup
import Mathlib.Data.List.Perm.Subperm
import Std.Data.String.ToNat
import ViewMarkup.Proofs.Identifier.Search

/-! # Which identifiers are allocated

A call succeeds if some number of the space is not issued and the search for one ends, and it issues
one number. With a counter the numbers come in order: after `count` calls the counter stands at
`count`, and the numbers issued are those below it. Whatever the source, a call issues a number of
the space that was not issued before, and different numbers make different identifiers.
-/

namespace ViewMarkup.Allocator

open ViewMarkup.Random

variable {γ : Type} {allocator after : Allocator γ} {name : String} {count : Nat}

/-! ## What a call comes to -/

section Outcomes

variable [Generator γ] {number : UInt32} {source : Source γ} {made : Array (Draw γ)}

theorem request_of_full (full : allocator.space.toNat ≤ allocator.issued.size) :
    allocator.request = (.error (.exhausted allocator.space), #[]) :=
  if_pos full

theorem request_of_chosen (room : allocator.issued.size < allocator.space.toNat)
    (chosen : allocator.choose? = some (number, source, made)) :
    allocator.request = (.ok (identifier allocator.stem number,
      { allocator with source := source, issued := allocator.issued.insert number }), made) := by
  rw [request, if_neg (Nat.not_le_of_lt room), chosen]

theorem request_of_endless (room : allocator.issued.size < allocator.space.toNat)
    (endless : allocator.choose? = none) : allocator.request = (.error .endless, #[]) := by
  rw [request, if_neg (Nat.not_le_of_lt room), endless]

/-- A call that succeeds has a number left and chooses one. -/
theorem exists_chosen_of_allocate (success : allocator.allocate = .ok (name, after)) :
    allocator.issued.size < allocator.space.toNat ∧ ∃ number source made,
      allocator.choose? = some (number, source, made) ∧
      name = identifier allocator.stem number ∧
      after = { allocator with source := source, issued := allocator.issued.insert number } := by
  rw [allocate] at success
  rcases Nat.lt_or_ge allocator.issued.size allocator.space.toNat with room | full
  · cases chosen : allocator.choose? with
    | none =>
      rw [request_of_endless room chosen] at success
      contradiction
    | some found =>
      obtain ⟨number, source, made⟩ := found
      rw [request_of_chosen room chosen] at success
      cases success
      exact ⟨room, number, source, made, rfl, rfl, rfl⟩
  · rw [request_of_full full] at success
    contradiction

/-- A call fails if nothing is left, or else if its search does not end. -/
theorem eq_of_allocate_error {cause : AllocationError} (failed : allocator.allocate = .error cause) :
    (cause = .exhausted allocator.space ∧ allocator.space.toNat ≤ allocator.issued.size) ∨
      cause = .endless ∧ allocator.issued.size < allocator.space.toNat ∧
        allocator.choose? = none := by
  rw [allocate] at failed
  rcases Nat.lt_or_ge allocator.issued.size allocator.space.toNat with room | full
  · cases chosen : allocator.choose? with
    | none =>
      rw [request_of_endless room chosen] at failed
      cases failed
      exact .inr ⟨rfl, room, rfl⟩
    | some found =>
      rw [request_of_chosen room chosen] at failed
      contradiction
  · rw [request_of_full full] at failed
    cases failed
    exact .inl ⟨rfl, full⟩

/-- With a number left, a call that returns succeeds. -/
theorem exists_allocate (room : allocator.issued.size < allocator.space.toNat)
    (returns : allocator.allocate ≠ .error .endless) :
    ∃ name after, allocator.allocate = .ok (name, after) := by
  cases answer : allocator.allocate with
  | ok pair => exact ⟨pair.1, pair.2, rfl⟩
  | error cause =>
    rcases eq_of_allocate_error answer with ⟨_, full⟩ | ⟨rfl, _⟩
    · exact absurd room (Nat.not_lt_of_le full)
    · exact absurd answer returns

/-- The space stays as it is, and at most one more number is issued. -/
theorem frame_of_allocate (success : allocator.allocate = .ok (name, after)) :
    after.stem = allocator.stem ∧ after.space = allocator.space ∧
      after.issued.size ≤ allocator.issued.size + 1 := by
  obtain ⟨_, number, source, made, _, _, rfl⟩ := exists_chosen_of_allocate success
  exact ⟨rfl, rfl, Std.TreeSet.size_insert_le⟩

theorem choose?_counter {next : UInt32} (counts : allocator.source = .counter next) :
    allocator.choose? = some (next, .counter (next + 1), #[]) := by
  rw [choose?, counts]

/-- What is drawn comes from a search that ended. -/
theorem exists_accepts_of_choose? {state : γ} (drawn : allocator.source = .draws state)
    (chosen : allocator.choose? = some (number, source, made)) :
    ∃ n, allocator.Accepts state n ∧
      number = (Generator.values allocator.space state).get n ∧
      source = .draws ((Generator.states allocator.space state).get (n + 1)) ∧
      made = ((List.range (n + 1)).map (allocator.drawAt state)).toArray := by
  have found := chosen
  rw [choose?, drawn] at found
  obtain ⟨_, ends, _⟩ := Option.map_eq_some_iff.mp found
  obtain ⟨n, accepts⟩ := exists_accepts_of_search ends
  rw [choose?_of_accepts drawn accepts] at chosen
  cases chosen
  exact ⟨n, accepts, rfl, rfl, rfl⟩

end Outcomes

/-! ## Counters -/

/-- The counter stands at a number, and exactly the numbers below it are issued. -/
structure Counted (allocator : Allocator γ) (count : Nat) : Prop where
  source : ∃ next : UInt32, allocator.source = .counter next ∧ next.toNat = count
  issued : ∀ number ∈ allocator.issued, number.toNat < count
  size : allocator.issued.size = count

theorem counted_zero (stem : String) (space : UInt32) :
    Counted { stem, space, source := .counter 0 : Allocator γ } 0 where
  source := ⟨0, rfl, rfl⟩
  issued _ member := (Std.TreeSet.not_mem_emptyc member).elim
  size := rfl

/-- The next identifier has the number that the counter stands at. -/
theorem Counted.allocate [Generator γ] (counted : allocator.Counted count)
    (success : allocator.allocate = .ok (name, after)) :
    name = allocator.stem ++ count.repr ∧ after.Counted (count + 1) := by
  obtain ⟨room, number, source, made, chosen, rfl, rfl⟩ := exists_chosen_of_allocate success
  obtain ⟨next, counts, rfl⟩ := counted.source
  rw [choose?_counter counts] at chosen
  cases chosen
  refine ⟨rfl, ⟨number + 1, rfl, ?_⟩, fun number member => ?_, ?_⟩
  · -- The counter is below the space, so it does not wrap around.
    have bound := allocator.space.toNat_lt
    have size := counted.size
    rw [UInt32.toNat_add]
    exact Nat.mod_eq_of_lt (by simp only [UInt32.reduceToNat]; omega)
  · rcases Std.TreeSet.mem_insert.mp member with same | before
    · exact Std.LawfulEqCmp.compare_eq_iff_eq.mp same ▸ Nat.lt_succ_self _
    · exact Nat.lt_succ_of_lt (counted.issued number before)
  · have fresh : allocator.issued.contains number = false := by
      rw [← Bool.not_eq_true, Std.TreeSet.contains_iff_mem]
      exact fun member => Nat.lt_irrefl _ (counted.issued number member)
    rw [Std.TreeSet.size_insert, fresh, counted.size]
    rfl

/-! ## Every call issues a new number -/

/-- A counter has issued exactly the numbers below it. Draws may have issued any numbers. -/
def Valid (allocator : Allocator γ) : Prop :=
  ∀ next, allocator.source = .counter next → allocator.Counted next.toNat

theorem valid_counter (stem : String) (space : UInt32) :
    Valid { stem, space, source := .counter 0 : Allocator γ } := by
  rintro _ ⟨⟩
  exact counted_zero stem space

theorem valid_draws {state : γ} (drawn : allocator.source = .draws state) : allocator.Valid := by
  intro next counter
  rw [drawn] at counter
  contradiction

theorem Valid.choose_free [Generator γ] (valid : allocator.Valid)
    (room : allocator.issued.size < allocator.space.toNat) {number : UInt32} {source : Source γ}
    {made : Array (Draw γ)} (chosen : allocator.choose? = some (number, source, made)) :
    number ∉ allocator.issued ∧ number < allocator.space := by
  cases drawn : allocator.source with
  | counter next =>
    have counted := valid next drawn
    rw [choose?_counter drawn] at chosen
    cases chosen
    refine ⟨fun member => Nat.lt_irrefl _ (counted.issued number member), ?_⟩
    exact UInt32.lt_iff_toNat_lt.mpr (counted.size ▸ room)
  | draws state =>
    obtain ⟨n, accepts, rfl, _, _⟩ := exists_accepts_of_choose? drawn chosen
    have positive : 0 < allocator.space := UInt32.lt_iff_toNat_lt.mpr (Nat.zero_lt_of_lt room)
    exact ⟨accepts.free, Generator.values_lt positive state n⟩

/-- A call issues one new number of the space and makes the identifier from it. -/
theorem Valid.allocate [Generator γ] (valid : allocator.Valid)
    (success : allocator.allocate = .ok (name, after)) :
    after.Valid ∧ ∃ number, number ∉ allocator.issued ∧ number < allocator.space ∧
      name = identifier allocator.stem number ∧ after.issued = allocator.issued.insert number := by
  obtain ⟨room, number, source, made, chosen, rfl, rfl⟩ := exists_chosen_of_allocate success
  obtain ⟨free, below⟩ := valid.choose_free room chosen
  refine ⟨?_, number, free, below, rfl, rfl⟩
  cases drawn : allocator.source with
  | counter next =>
    obtain ⟨_, counted⟩ := (valid next drawn).allocate success
    obtain ⟨following, counts, same⟩ := counted.source
    intro other stands
    rw [counts] at stands
    cases stands
    exact same ▸ counted
  | draws state =>
    obtain ⟨n, _, _, rfl, _⟩ := exists_accepts_of_choose? drawn chosen
    exact valid_draws rfl

end ViewMarkup.Allocator

/-! ## Different numbers make different identifiers -/

namespace ViewMarkup

open ViewMarkup.Random

variable {stem : String}

/-- A stem may end in digits or be empty: behind one stem the number can be read back. -/
theorem identifier_injective (stem : String) : Function.Injective (identifier stem) := by
  intro first second same
  rwa [identifier, identifier, String.append_right_inj, Nat.repr_inj, UInt32.toNat_inj] at same

theorem identifier_ne_empty (number : UInt32) : identifier stem number ≠ "" := by
  intro empty
  exact Nat.repr_ne_empty (String.append_eq_empty_iff.mp empty).2

namespace Allocator

variable {γ : Type} {name : String} {space : UInt32} {ids after : Allocator γ}
  {labels : List String}

/-- Labels made from distinct numbers of a space, all of them issued. -/
structure Labelled (stem : String) (space : UInt32) (ids : Allocator γ) (labels : List String) :
    Prop where
  stem_eq : ids.stem = stem
  space_eq : ids.space = space
  valid : ids.Valid
  numbers : ∃ numbers : List UInt32, numbers.Nodup ∧ labels = numbers.map (identifier stem) ∧
    ∀ number ∈ numbers, number ∈ ids.issued ∧ number < space

/-- A new number is not issued yet, so it is none of those before. -/
theorem Labelled.allocate [Generator γ] (labelled : ids.Labelled stem space labels)
    (success : ids.allocate = .ok (name, after)) : after.Labelled stem space (labels ++ [name]) := by
  obtain ⟨rfl, rfl, valid, numbers, distinct, rfl, issued⟩ := labelled
  obtain ⟨stems, spaces, _⟩ := frame_of_allocate success
  obtain ⟨next, number, fresh, below, rfl, grown⟩ := valid.allocate success
  refine ⟨stems, spaces, next, numbers ++ [number], ?_, by simp, ?_⟩
  · refine List.nodup_append'.mpr ⟨distinct, List.nodup_singleton number, ?_⟩
    rw [List.disjoint_singleton]
    exact fun member => fresh (issued number member).1
  · intro other member
    rw [grown, Std.TreeSet.mem_insert]
    rcases List.mem_append.mp member with before | last
    · obtain ⟨earlier, small⟩ := issued other before
      exact ⟨.inr earlier, small⟩
    · cases List.mem_singleton.mp last
      exact ⟨.inl Std.ReflCmp.compare_self, below⟩

theorem Labelled.nodup (labelled : ids.Labelled stem space labels) : labels.Nodup := by
  obtain ⟨numbers, distinct, rfl, _⟩ := labelled.numbers
  exact distinct.map (identifier_injective stem)

/-- As many labels as there are numbers in the space, at most. -/
theorem Labelled.length_le (labelled : ids.Labelled stem space labels) :
    labels.length ≤ space.toNat := by
  obtain ⟨numbers, distinct, rfl, issued⟩ := labelled.numbers
  have values : (numbers.map UInt32.toNat).Nodup := distinct.map fun _ _ => UInt32.toNat_inj.mp
  have inside : numbers.map UInt32.toNat ⊆ List.range space.toNat := by
    intro value member
    obtain ⟨number, listed, rfl⟩ := List.mem_map.mp member
    exact List.mem_range.mpr (UInt32.lt_iff_toNat_lt.mp (issued number listed).2)
  have bound := (values.subperm inside).length_le
  rwa [List.length_map, List.length_range, ← List.length_map (f := identifier stem)] at bound

theorem Labelled.of_mem (labelled : ids.Labelled stem space labels) (member : name ∈ labels) :
    name ≠ "" ∧ ∃ number < space.toNat, name = stem ++ number.repr := by
  obtain ⟨numbers, _, rfl, issued⟩ := labelled.numbers
  obtain ⟨number, listed, rfl⟩ := List.mem_map.mp member
  have below := UInt32.lt_iff_toNat_lt.mp (issued number listed).2
  exact ⟨identifier_ne_empty number, number.toNat, below, rfl⟩

end Allocator

end ViewMarkup
