import Mathlib
import ViewMarkup.Proofs.Identifier.Allocation

/-! # A series of calls

A fresh allocator is called again and again. As long as a number of the space is left each call that
returns issues one, so the first calls succeed, as many as there are numbers in the space, and all
others fail. When the calls begin to fail every number is out. `Tally` is what one call keeps: the
names given so far, and as many numbers issued as there are names. Whether calls return depends on
the draws: `Returns` says that none of them searches without end, which a counter never does.

`answers_exhaust` puts this together. The answers are the stem with distinct numbers of the space,
and these are the numbers issued; a call that fails changes nothing. A counter stands at the number
of answers and has issued exactly the numbers below it, and where it counts on there is a next
number. The draws of a call take the generator to where the next call finds it, each of them is made
for a range with a number that is not issued, and so none for an empty range.
-/

namespace ViewMarkup.Allocator

open ViewMarkup.Random

variable {γ : Type} {ids : Allocator γ} {labels : List String} {count : ℕ}

/-! ## Counting what is issued -/

section Issued

variable {issued : Std.TreeSet UInt32}

/-- As many numbers below a bound as the bound says are all of them. -/
theorem mem_issued_of_lt_size (below : ∀ number ∈ issued, number.toNat < issued.size)
    {number : UInt32} (small : number.toNat < issued.size) : number ∈ issued := by
  by_contra free
  let values := (number :: issued.toList).map UInt32.toNat
  have distinct : values.Nodup := by
    refine List.Nodup.map (fun _ _ => UInt32.toNat_inj.mp) (List.nodup_cons.mpr ⟨?_, ?_⟩)
    · exact mt Std.TreeSet.mem_toList.mp free
    · exact Std.TreeSet.distinct_toList.imp fun apart same =>
        apart (Std.LawfulEqCmp.compare_eq_iff_eq.mpr same)
  have within : values ⊆ List.range issued.size := by
    intro value member
    obtain ⟨other, listed, rfl⟩ := List.mem_map.mp member
    rw [List.mem_range]
    rcases List.mem_cons.mp listed with rfl | old
    · exact small
    · exact below other (Std.TreeSet.mem_toList.mp old)
  have bound := (distinct.subperm within).length_le
  rw [List.length_map, List.length_cons, Std.TreeSet.length_toList, List.length_range] at bound
  exact Nat.not_succ_le_self _ bound

/-- Numbers that are issued from zero on are at most as many as are issued. -/
theorem le_size_of_initial {space : UInt32} (initial : ∀ number < space, number ∈ issued) :
    space.toNat ≤ issued.size := by
  let numbers := (List.range space.toNat).map UInt32.ofNat
  have small : ∀ number ∈ List.range space.toNat, number < UInt32.size := by
    intro number member
    exact Nat.lt_trans (List.mem_range.mp member) space.toNat_lt_size
  have distinct : numbers.Nodup := by
    refine List.Nodup.map_on (fun first left second right same => ?_) List.nodup_range
    have values := congrArg UInt32.toNat same
    rwa [UInt32.toNat_ofNat_of_lt' (small first left),
      UInt32.toNat_ofNat_of_lt' (small second right)] at values
  have within : numbers ⊆ issued.toList := by
    intro number member
    obtain ⟨value, inRange, rfl⟩ := List.mem_map.mp member
    refine Std.TreeSet.mem_toList.mpr (initial _ (UInt32.lt_iff_toNat_lt.mpr ?_))
    rw [UInt32.toNat_ofNat_of_lt' (small value inRange)]
    exact List.mem_range.mp inRange
  have counts := (distinct.subperm within).length_le
  rwa [Std.TreeSet.length_toList, List.length_map, List.length_range] at counts

theorem exists_free {space : UInt32} (room : issued.size < space.toNat) :
    ∃ number < space, number ∉ issued := by
  by_contra all
  refine Nat.not_le_of_lt room (le_size_of_initial fun number small => ?_)
  by_contra free
  exact all ⟨number, small, free⟩

/-- A counter has issued all numbers below it. -/
theorem Counted.mem_issued_iff (counted : ids.Counted count) (number : UInt32) :
    number ∈ ids.issued ↔ number.toNat < count := by
  refine ⟨counted.issued number, fun small => mem_issued_of_lt_size ?_ ?_⟩
  · rw [counted.size]
    exact counted.issued
  · rwa [counted.size]

end Issued

/-! ## Fresh allocators -/

/-- Nothing is issued yet, and a counter stands at zero. -/
structure Fresh (ids : Allocator γ) : Prop where
  issued : ids.issued = ∅
  counter : ∀ next, ids.source = .counter next → next = 0

/-- Whatever the strategy, an allocator starts fresh. -/
theorem fresh_source (strategy : Strategy) (entropy : KeyStream) (stem : String) (space : UInt32) :
    Fresh { stem, space, source := strategy.source entropy } := by
  refine ⟨rfl, fun next starts => ?_⟩
  cases strategy with
  | sequential =>
    cases starts
    rfl
  | random seed => contradiction

theorem Fresh.size (fresh : ids.Fresh) : ids.issued.size = 0 := by
  rw [fresh.issued]
  rfl

theorem Fresh.valid (fresh : ids.Fresh) : ids.Valid := by
  intro next counts
  obtain rfl := fresh.counter next counts
  refine ⟨⟨0, counts, rfl⟩, fun number member => ?_, fresh.size⟩
  rw [fresh.issued] at member
  exact (Std.TreeSet.not_mem_emptyc member).elim

/-- Labels made from distinct numbers of the space, and no other number is issued. -/
structure Tally (stem : String) (space : UInt32) (ids : Allocator γ) (labels : List String) :
    Prop extends ids.Labelled stem space labels where
  size : ids.issued.size = labels.length

namespace Tally

variable {stem : String} {space : UInt32}

theorem fresh (fresh : ids.Fresh) : ids.Tally ids.stem ids.space [] where
  stem_eq := rfl
  space_eq := rfl
  valid := fresh.valid
  numbers := ⟨[], List.nodup_nil, rfl, by simp⟩
  size := fresh.size

/-- The numbers in the labels are the numbers issued. -/
theorem exists_numbers (tally : ids.Tally stem space labels) :
    ∃ numbers : List UInt32, labels = numbers.map (identifier stem) ∧ numbers.Nodup ∧
      (∀ number ∈ numbers, number < space) ∧ ∀ number, number ∈ ids.issued ↔ number ∈ numbers := by
  obtain ⟨numbers, distinct, rfl, issued⟩ := tally.numbers
  have within : numbers ⊆ ids.issued.toList := fun number member =>
    Std.TreeSet.mem_toList.mpr (issued number member).1
  have counts : ids.issued.toList.length = numbers.length := by
    rw [Std.TreeSet.length_toList, tally.size, List.length_map]
  have same := (distinct.subperm within).perm_of_length_le (Nat.le_of_eq counts)
  refine ⟨numbers, rfl, distinct, fun number member => (issued number member).2, fun number => ?_⟩
  rw [same.mem_iff, Std.TreeSet.mem_toList]

end Tally

/-! ## Calls -/

section Calls

variable [Generator γ]

/-- The answer to a call, and the allocator after it. -/
def call (ids : Allocator γ) : Except AllocationError String × Allocator γ :=
  match ids.allocate with
  | .ok (name, after) => (.ok name, after)
  | .error cause => (.error cause, ids)

/-- The allocator after some calls. -/
def after (ids : Allocator γ) : ℕ → Allocator γ
  | 0 => ids
  | calls + 1 => (ids.after calls).call.2

/-- The answers to some calls, in order. -/
def answers (ids : Allocator γ) (calls : ℕ) : List (Except AllocationError String) :=
  (List.range calls).map fun earlier => (ids.after earlier).call.1

theorem answers_succ (ids : Allocator γ) (calls : ℕ) :
    ids.answers (calls + 1) = ids.answers calls ++ [(ids.after calls).call.1] := by
  rw [answers, List.range_succ, List.map_append]
  rfl

theorem call_of_ok {name : String} {next : Allocator γ} (success : ids.allocate = .ok (name, next)) :
    ids.call = (.ok name, next) := by
  rw [call, success]

theorem call_of_error {cause : AllocationError} (failed : ids.allocate = .error cause) :
    ids.call = (.error cause, ids) := by
  rw [call, failed]

theorem call_of_full (ids : Allocator γ) (full : ids.space.toNat ≤ ids.issued.size) :
    ids.call = (.error (.exhausted ids.space), ids) :=
  call_of_error (by rw [allocate, request_of_full full])

/-- A call issues at most one number, for the same space. -/
theorem frame_call (ids : Allocator γ) :
    ids.call.2.space = ids.space ∧ ids.call.2.issued.size ≤ ids.issued.size + 1 := by
  cases answer : ids.allocate with
  | ok pair =>
    rw [call_of_ok answer]
    exact (frame_of_allocate answer).2
  | error cause =>
    rw [call_of_error answer]
    exact ⟨rfl, Nat.le_succ _⟩

theorem after_add (ids : Allocator γ) (calls more : ℕ) :
    (ids.after calls).after more = ids.after (calls + more) := by
  induction more with
  | zero => rfl
  | succ more ih => exact congrArg (·.call.2) ih

/-! ## Calls that return -/

/-- None of the first calls searches without end. -/
def Returns (ids : Allocator γ) (calls : ℕ) : Prop :=
  .error .endless ∉ ids.answers calls

instance (ids : Allocator γ) (calls : ℕ) : Decidable (ids.Returns calls) :=
  inferInstanceAs (Decidable (.error .endless ∉ ids.answers calls))

theorem returns_iff {calls : ℕ} : ids.Returns calls ↔
    ∀ earlier < calls, (ids.after earlier).allocate ≠ .error .endless := by
  have answer (current : Allocator γ) :
      current.call.1 = .error .endless ↔ current.allocate = .error .endless := by
    rw [call]
    cases current.allocate <;> simp
  simp [Returns, answers, answer]

theorem Returns.mono {calls fewer : ℕ} (returns : ids.Returns calls) (less : fewer ≤ calls) :
    ids.Returns fewer :=
  returns_iff.mpr fun earlier small => returns_iff.mp returns earlier (Nat.lt_of_lt_of_le small less)

theorem Returns.after {calls more : ℕ} (returns : ids.Returns (calls + more)) :
    (ids.after calls).Returns more := by
  refine returns_iff.mpr fun earlier small => ?_
  rw [after_add]
  exact returns_iff.mp returns (calls + earlier) (Nat.add_lt_add_left small calls)

/-- Calls that follow a call return with it. -/
theorem Returns.call {calls : ℕ} (returns : ids.Returns (calls + 1)) : ids.call.2.Returns calls := by
  rw [Nat.add_comm] at returns
  exact returns.after

/-- With a number left the next call succeeds, and those that follow return too. -/
theorem Returns.allocate {calls : ℕ} (returns : ids.Returns (calls + 1))
    (room : ids.issued.size < ids.space.toNat) :
    ∃ name next, ids.allocate = .ok (name, next) ∧ next.Returns calls := by
  obtain ⟨name, next, success⟩ :=
    exists_allocate room (returns_iff.mp returns 0 (Nat.succ_pos calls))
  have later := returns.call
  rw [call_of_ok success] at later
  exact ⟨name, next, success, later⟩

/-- A counter does not search. -/
theorem allocate_counter_ne {next : UInt32} (counts : ids.source = .counter next) :
    ids.allocate ≠ .error .endless := by
  intro failed
  rcases eq_of_allocate_error failed with ⟨_, _⟩ | ⟨_, _, endless⟩
  · contradiction
  · rw [choose?_counter counts] at endless
    contradiction

/-- A counter stays a counter. -/
theorem counter_after (ids : Allocator γ) {first : UInt32} (counts : ids.source = .counter first)
    (calls : ℕ) : ∃ next, (ids.after calls).source = .counter next := by
  induction calls with
  | zero => exact ⟨first, counts⟩
  | succ calls ih =>
    obtain ⟨next, stands⟩ := ih
    rw [after]
    cases answer : (ids.after calls).allocate with
    | error cause =>
      rw [call_of_error answer]
      exact ⟨next, stands⟩
    | ok pair =>
      obtain ⟨_, number, source, made, chosen, _, given⟩ := exists_chosen_of_allocate answer
      rw [choose?_counter stands] at chosen
      cases chosen
      rw [call_of_ok answer, given]
      exact ⟨_, rfl⟩

theorem returns_of_counter {first : UInt32} (counts : ids.source = .counter first) (calls : ℕ) :
    ids.Returns calls := by
  refine returns_iff.mpr fun earlier _ => ?_
  obtain ⟨next, stands⟩ := ids.counter_after counts earlier
  exact allocate_counter_ne stands

namespace Tally

variable {stem : String} {space : UInt32}

theorem allocate (tally : ids.Tally stem space labels) {name : String} {after : Allocator γ}
    (success : ids.allocate = .ok (name, after)) : after.Tally stem space (labels ++ [name]) where
  toLabelled := tally.toLabelled.allocate success
  size := by
    obtain ⟨_, number, free, _, _, grown⟩ := tally.valid.allocate success
    have absent : ids.issued.contains number = false := by
      rwa [← Bool.not_eq_true, Std.TreeSet.contains_iff_mem]
    rw [grown, Std.TreeSet.size_insert, absent, tally.size, List.length_append]
    rfl

/-- Whatever the calls come to, there is a tally of the names given. -/
theorem exists_after (fresh : ids.Fresh) (calls : ℕ) :
    ∃ labels, (ids.after calls).Tally ids.stem ids.space labels := by
  induction calls with
  | zero => exact ⟨[], .fresh fresh⟩
  | succ calls ih =>
    obtain ⟨labels, tally⟩ := ih
    rw [after]
    cases answer : (ids.after calls).allocate with
    | error cause =>
      rw [call_of_error answer]
      exact ⟨labels, tally⟩
    | ok pair =>
      rw [call_of_ok answer]
      exact ⟨labels ++ [pair.1], tally.allocate answer⟩

/-- Each call adds a name while there is room, and afterwards nothing changes. -/
theorem run (fresh : ids.Fresh) {calls : ℕ} (returns : ids.Returns calls) :
    ∃ labels, (ids.after calls).Tally ids.stem ids.space labels ∧
      labels.length = min calls ids.space.toNat ∧
      ids.answers calls = labels.map .ok ++
        List.replicate (calls - ids.space.toNat) (.error (.exhausted ids.space)) := by
  induction calls with
  | zero => exact ⟨[], .fresh fresh, by simp, by simp [answers]⟩
  | succ calls ih =>
    obtain ⟨labels, tally, length, given⟩ := ih (returns.mono (Nat.le_succ calls))
    have size := tally.size
    have space := tally.space_eq
    rw [answers_succ, given]
    by_cases room : calls < ids.space.toNat
    · obtain ⟨name, next, success, _⟩ :=
        returns.after.allocate (by rw [space]; omega)
      have called := call_of_ok success
      refine ⟨labels ++ [name], ?_, ?_, ?_⟩
      · rw [after, called]
        exact tally.allocate success
      · rw [List.length_append, length, List.length_singleton]
        omega
      · rw [called, Nat.sub_eq_zero_of_le (Nat.le_of_lt room), Nat.sub_eq_zero_of_le room]
        simp
    · have called := (ids.after calls).call_of_full (by rw [space]; omega)
      refine ⟨labels, ?_, by omega, ?_⟩
      · rw [after, called]
        exact tally
      · rw [called, space, List.append_assoc, ← List.replicate_succ',
          Nat.succ_sub (Nat.le_of_not_lt room)]

end Tally

/-! ## The draws of a call -/

theorem draws_of_error {cause : AllocationError} (failed : ids.allocate = .error cause) :
    ids.draws = [] := by
  rw [draws]
  rcases eq_of_allocate_error failed with ⟨_, full⟩ | ⟨_, room, endless⟩
  · rw [request_of_full full]
  · rw [request_of_endless room endless]

/-- The draws of a call are made for its space and for what is issued before it. -/
theorem mem_draws {draw : Draw γ} (member : draw ∈ ids.draws) :
    ids.issued.size < ids.space.toNat ∧ draw.bound = ids.space ∧ draw.avoided = ids.issued := by
  cases answer : ids.allocate with
  | error cause =>
    rw [draws_of_error answer] at member
    contradiction
  | ok pair =>
    obtain ⟨room, number, source, made, chosen, _⟩ := exists_chosen_of_allocate answer
    rw [draws, request_of_chosen room chosen] at member
    cases drawn : ids.source with
    | counter next =>
      rw [choose?_counter drawn] at chosen
      cases chosen
      contradiction
    | draws state =>
      obtain ⟨n, _, _, _, rfl⟩ := exists_accepts_of_choose? drawn chosen
      obtain ⟨_, _, rfl⟩ := List.mem_map.mp member
      exact ⟨room, rfl, rfl⟩

/-- Draws are made for a range that is not used up. -/
theorem exists_free_of_mem_draws {draw : Draw γ} (member : draw ∈ ids.draws) :
    0 < draw.bound ∧ ∃ number < draw.bound, number ∉ draw.avoided := by
  obtain ⟨room, bound, avoided⟩ := mem_draws member
  rw [bound, avoided]
  exact ⟨UInt32.lt_iff_toNat_lt.mpr (Nat.zero_lt_of_lt room), exists_free room⟩

/-- A call goes through the generator by its draws. -/
theorem source_call {state : γ} (drawn : ids.source = .draws state) :
    ids.call.2.source = .draws (ids.draws.foldl (fun _ draw => draw.rest) state) := by
  cases answer : ids.allocate with
  | error cause =>
    rw [call_of_error answer, draws_of_error answer]
    exact drawn
  | ok pair =>
    obtain ⟨room, number, source, made, chosen, _, given⟩ := exists_chosen_of_allocate answer
    rw [call_of_ok answer, given, draws, request_of_chosen room chosen]
    obtain ⟨n, _, _, rfl, rfl⟩ := exists_accepts_of_choose? drawn chosen
    -- The last draw leaves the generator where the search ends.
    rw [List.toList_toArray, List.range_succ, List.map_append, List.foldl_append]
    rfl

/-- A fresh allocator whose calls return issues every number of its space once, and then fails. It
issues no other numbers, and draws only for a range that is not used up, whether or not they
return. -/
theorem answers_exhaust (ids : Allocator γ) (fresh : ids.Fresh) (calls : ℕ) :
    let space := ids.space.toNat
    let reached := ids.after calls
    (ids.Returns calls →
      (∃ numbers : List UInt32,
        ids.answers calls = (numbers.map fun number => .ok (ids.stem ++ number.toNat.repr)) ++
          List.replicate (calls - space) (.error (.exhausted ids.space)) ∧
        numbers.length = min calls space ∧ numbers.Nodup ∧
        (numbers.map fun number => ids.stem ++ number.toNat.repr).Nodup ∧
        (∀ number ∈ numbers, number < ids.space) ∧
        ∀ number, number ∈ reached.issued ↔ number ∈ numbers) ∧
      reached.issuedCount = min calls space ∧
      (space ≤ calls → ∀ number < ids.space, number ∈ reached.issued)) ∧
    (∀ number ∈ reached.issued, number < ids.space) ∧
    (∀ cause, reached.allocate = .error cause → ids.after (calls + 1) = reached) ∧
    (ids.source = .counter 0 → ids.Returns calls ∧ ∃ next, reached.source = .counter next ∧
      next.toNat = min calls space ∧ (∀ number, number ∈ reached.issued ↔ number < next) ∧
      (calls < space → (next + 1).toNat = next.toNat + 1)) ∧
    (∀ state, reached.source = .draws state → (ids.after (calls + 1)).source =
      .draws (reached.draws.foldl (fun _ draw => draw.rest) state)) ∧
    ∀ draw ∈ reached.draws, 0 < draw.bound ∧ ∃ number < draw.bound, number ∉ draw.avoided := by
  intro space reached
  have inside : ∀ number ∈ reached.issued, number < ids.space := by
    obtain ⟨labels, tally⟩ := Tally.exists_after fresh calls
    obtain ⟨numbers, _, _, below, issued⟩ := tally.exists_numbers
    exact fun number member => below number ((issued number).mp member)
  refine ⟨fun returns => ?_, inside, fun cause failed => ?_, fun starts => ?_,
    fun state => source_call, fun draw => exists_free_of_mem_draws⟩
  · obtain ⟨labels, tally, length, given⟩ := Tally.run fresh returns
    have distinct := tally.nodup
    obtain ⟨numbers, rfl, nodup, below, issued⟩ := tally.exists_numbers
    have size : reached.issued.size = min calls space := tally.size.trans length
    rw [List.length_map] at length
    refine ⟨⟨numbers, ?_, length, nodup, distinct, below, issued⟩, size, fun enough => ?_⟩
    · rw [given, List.map_map]
      rfl
    · have full : reached.issued.size = space := size.trans (Nat.min_eq_right enough)
      intro number small
      refine mem_issued_of_lt_size (fun other member => ?_) ?_
      · rw [full]
        exact UInt32.lt_iff_toNat_lt.mp (inside other member)
      · rw [full]
        exact UInt32.lt_iff_toNat_lt.mp small
  · rw [after, call_of_error failed]
  · have returns := returns_of_counter starts calls
    obtain ⟨labels, tally, length, _⟩ := Tally.run fresh returns
    obtain ⟨next, counts⟩ := ids.counter_after starts calls
    have counted := tally.valid next counts
    have stands : next.toNat = min calls space :=
      counted.size.symm.trans (tally.size.trans length)
    refine ⟨returns, next, counts, stands, fun number => ?_, fun room => ?_⟩
    · rw [counted.mem_issued_iff, UInt32.lt_iff_toNat_lt]
    · -- The counter is below the space, and the space is at most the largest number.
      have largest := ids.space.toNat_lt
      rw [UInt32.toNat_add]
      exact Nat.mod_eq_of_lt (by simp only [UInt32.reduceToNat]; omega)

end Calls

/-- A space of three numbers behind a stem that ends in a digit, drawn at random: the second call
draws three times, the fourth and the fifth fail. And the largest space there is, counted up to its
end. -/
theorem answers_exhaust_ends :
    let drawn : Allocator KeyStream :=
      { stem := "a1", space := 3, source := Strategy.source default (.random (some 1)) }
    let counted : Allocator KeyStream :=
      { space := 4294967295, source := Strategy.source default .sequential }
    drawn.answers 5 =
        [.ok "a12", .ok "a10", .ok "a11", .error (.exhausted 3), .error (.exhausted 3)] ∧
      (drawn.after 5).issuedCount = 3 ∧ (∀ number < 3, number ∈ (drawn.after 5).issued) ∧
      (drawn.after 1).draws.length = 3 ∧
      (∀ draw ∈ (drawn.after 1).draws, ∃ number < draw.bound, number ∉ draw.avoided) ∧
      ∃ next, (counted.after 4294967294).source = .counter next ∧ next.toNat = 4294967294 ∧
        (next + 1).toNat = 4294967295 := by
  intro drawn counted
  have answers : drawn.answers 5 =
      [.ok "a12", .ok "a10", .ok "a11", .error (.exhausted 3), .error (.exhausted 3)] := by
    decide_cbv
  have returns : drawn.Returns 5 := by
    rw [Returns, answers]
    decide
  obtain ⟨given, _⟩ := answers_exhaust drawn (fresh_source ..) 5
  obtain ⟨_, count, full⟩ := given returns
  obtain ⟨_, _, _, _, _, draws⟩ := answers_exhaust drawn (fresh_source ..) 1
  obtain ⟨_, _, _, counts, _⟩ := answers_exhaust counted (fresh_source ..) 4294967294
  obtain ⟨_, next, stands, value, _, further⟩ := counts rfl
  refine ⟨answers, count, full (by decide), by decide_cbv, fun draw member => (draws draw member).2,
    next, stands, value, ?_⟩
  exact (further (by decide)).trans (congrArg (· + 1) value)

end ViewMarkup.Allocator
