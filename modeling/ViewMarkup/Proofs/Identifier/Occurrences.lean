import Mathlib.Order.Bounds.Basic
import Mathlib.Order.Monotone.Basic
import ViewMarkup.Compiler
import ViewMarkup.Proofs.Identifier.Series

/-! # First occurrences among draws

An allocator that draws its numbers issues the values of its draws, each where it comes for the
first time. `firsts` lists the values among the first draws, each once and in the order in which
they come. What a call keeps is `Consumed`: the names given so far are made from the first
occurrences among the draws made so far, and the generator stands after these draws. A call that
follows passes over draws that came before, so as long as another value is still to come the run
goes on to it. It leaves the generator after the fewest draws that hold as many different values as
there were calls. So the answers depend on the values drawn alone, and not on the generator that
draws them, and the answers to further calls follow those to the first ones.
-/

namespace ViewMarkup.Random

variable {stream : Stream' UInt32} {n : ℕ}

/-! ## First occurrences -/

/-- The values among the first `n` items of a stream, each once and in the order in which they
come. -/
def firsts (stream : Stream' UInt32) (n : ℕ) : List UInt32 :=
  (stream.take n).eraseDups

theorem get_mem_firsts {m : ℕ} (earlier : m < n) : stream.get m ∈ firsts stream n :=
  List.mem_eraseDups.mpr (List.mem_of_getElem? (Stream'.getElem?_take earlier))

theorem firsts_succ_of_mem (again : stream.get n ∈ firsts stream n) :
    firsts stream (n + 1) = firsts stream n := by
  have before : stream.get n ∈ stream.take n := List.mem_eraseDups.mp again
  rw [firsts, Stream'.take_succ', List.eraseDups_append]
  simp [List.removeAll, before, firsts]

theorem firsts_succ_of_not_mem (new : stream.get n ∉ firsts stream n) :
    firsts stream (n + 1) = firsts stream n ++ [stream.get n] := by
  have absent : stream.get n ∉ stream.take n := mt List.mem_eraseDups.mpr new
  rw [firsts, Stream'.take_succ', List.eraseDups_append]
  simp [List.removeAll, absent, List.eraseDups_cons, firsts]

/-- Items that came before add nothing. -/
theorem firsts_add {count wait : ℕ}
    (again : ∀ m < wait, stream.get (count + m) ∈ firsts stream count) :
    firsts stream (count + wait) = firsts stream count := by
  induction wait with
  | zero => rfl
  | succ wait ih =>
    have same := ih fun m small => again m (Nat.lt_succ_of_lt small)
    rw [← Nat.add_assoc, firsts_succ_of_mem, same]
    rw [same]
    exact again wait (Nat.lt_succ_self wait)

theorem length_firsts_mono (stream : Stream' UInt32) :
    Monotone fun n => (firsts stream n).length := by
  refine monotone_nat_of_le_succ fun n => ?_
  by_cases again : stream.get n ∈ firsts stream n
  · rw [firsts_succ_of_mem again]
  · rw [firsts_succ_of_not_mem again, List.length_append]
    exact Nat.le_add_right _ _

/-- Where a new value comes, no fewer items hold as many different values. -/
theorem isLeast_firsts {count : ℕ} (before : (firsts stream n).length = count)
    (grown : (firsts stream (n + 1)).length = count + 1) :
    IsLeast {m | (firsts stream m).length = count + 1} (n + 1) := by
  refine ⟨grown, fun m (reached : _ = count + 1) => ?_⟩
  by_contra fewer
  have bound : (firsts stream m).length ≤ (firsts stream n).length :=
    length_firsts_mono stream (Nat.le_of_lt_succ (Nat.lt_of_not_le fewer))
  rw [reached, before] at bound
  exact Nat.not_succ_le_self count bound

/-- Among more different values than have come there is one that is still to come. -/
theorem exists_unseen {different : List UInt32} (nodup : different.Nodup)
    (occur : ∀ value ∈ different, value ∈ stream)
    (more : (firsts stream n).length < different.length) :
    ∃ wait, stream.get (n + wait) ∉ firsts stream n := by
  by_contra all
  have within : different ⊆ firsts stream n := by
    intro value member
    obtain ⟨position, rfl⟩ := occur value member
    rcases Nat.lt_or_ge position n with earlier | later
    · exact get_mem_firsts earlier
    · obtain ⟨wait, rfl⟩ := Nat.exists_eq_add_of_le later
      exact not_not.mp (not_exists.mp all wait)
  exact Nat.not_le_of_lt more (nodup.subperm within).length_le

end ViewMarkup.Random

namespace ViewMarkup.Allocator

open ViewMarkup.Random ViewMarkup.Random.Generator

variable {γ : Type} [Generator γ] {ids : Allocator γ} {stem : String} {space : UInt32} {start : γ}
  {count : ℕ}

/-! ## What the calls have drawn -/

/-- The names given are made from the first occurrences among the first `count` draws from a state,
and the generator stands after these draws. -/
structure Consumed (stem : String) (space : UInt32) (start : γ) (count : ℕ) (ids : Allocator γ) :
    Prop extends
    ids.Tally stem space ((firsts (values space start) count).map (identifier stem)) where
  source : ids.source = .draws ((states space start).get count)

namespace Consumed

theorem fresh (fresh : ids.Fresh) (drawn : ids.source = .draws start) :
    ids.Consumed ids.stem ids.space start 0 :=
  ⟨.fresh fresh, drawn⟩

/-- What came among the draws is what is issued. -/
theorem mem_issued_iff (consumed : ids.Consumed stem space start count) (number : UInt32) :
    number ∈ ids.issued ↔ number ∈ firsts (values space start) count := by
  obtain ⟨numbers, same, _, _, issued⟩ := consumed.exists_numbers
  rw [issued, List.map_injective_iff.mpr (identifier_injective stem) same]

theorem size_issued (consumed : ids.Consumed stem space start count) :
    ids.issued.size = (firsts (values space start) count).length := by
  rw [consumed.size, List.length_map]

theorem exists_accepts (consumed : ids.Consumed stem space start count)
    (unseen : ∃ wait, (values space start).get (count + wait) ∉ firsts (values space start) count) :
    ∃ wait, ids.Accepts ((states space start).get count) wait := by
  obtain rfl := consumed.space_eq
  obtain ⟨wait, new⟩ := unseen
  rw [← consumed.mem_issued_iff, ← values_get] at new
  exact ⟨_, accepts_find ⟨wait, new⟩⟩

/-- The draws that are refused came before, and the draw that ends a search did not. -/
theorem firsts_of_accepts (consumed : ids.Consumed stem space start count) {wait : ℕ}
    (accepts : ids.Accepts ((states space start).get count) wait) :
    firsts (values space start) (count + wait) = firsts (values space start) count ∧
      firsts (values space start) (count + wait + 1) =
        firsts (values space start) count ++ [(values space start).get (count + wait)] := by
  obtain rfl := consumed.space_eq
  have passed : firsts (values ids.space start) (count + wait) =
      firsts (values ids.space start) count := by
    refine firsts_add fun m small => ?_
    rw [← consumed.mem_issued_iff, ← values_get]
    exact accepts.refused m small
  have new : (values ids.space start).get (count + wait) ∉
      firsts (values ids.space start) (count + wait) := by
    rw [passed, ← consumed.mem_issued_iff, ← values_get]
    exact accepts.free
  exact ⟨passed, by rw [firsts_succ_of_not_mem new, passed]⟩

/-- A call goes on to the draw that ends its search. -/
theorem call (consumed : ids.Consumed stem space start count) {wait : ℕ}
    (accepts : ids.Accepts ((states space start).get count) wait)
    (room : (firsts (values space start) count).length < space.toNat) :
    ids.call.1 = .ok (identifier stem ((values space start).get (count + wait))) ∧
      ids.call.2.Consumed stem space start (count + wait + 1) := by
  obtain rfl := consumed.space_eq
  obtain rfl := consumed.stem_eq
  rw [← consumed.size_issued] at room
  have chosen := choose?_of_accepts consumed.source accepts
  rw [values_get, states_get, ← Nat.add_assoc] at chosen
  have success := congrArg Prod.fst (request_of_chosen room chosen)
  rw [call_of_ok success]
  refine ⟨rfl, ?_, rfl⟩
  rw [(consumed.firsts_of_accepts accepts).2, List.map_append]
  exact consumed.toTally.allocate success

/-- A run of calls goes through the first occurrences, as far as different values come. -/
theorem run (fresh : ids.Fresh) (drawn : ids.source = .draws start) {different : List UInt32}
    (nodup : different.Nodup) (occur : ∀ value ∈ different, value ∈ values ids.space start)
    {calls : ℕ} (room : calls ≤ ids.space.toNat) (many : calls ≤ different.length) :
    ∃ count, IsLeast {n | (firsts (values ids.space start) n).length = calls} count ∧
      ids.answers calls = ((firsts (values ids.space start) count).map (identifier ids.stem)).map .ok ∧
      (ids.after calls).Consumed ids.stem ids.space start count := by
  induction calls with
  | zero => exact ⟨0, ⟨rfl, fun _ _ => Nat.zero_le _⟩, rfl, .fresh fresh drawn⟩
  | succ calls ih =>
    obtain ⟨count, least, given, consumed⟩ := ih (Nat.le_of_succ_le room) (Nat.le_of_succ_le many)
    have length : (firsts (values ids.space start) count).length = calls := least.1
    obtain ⟨wait, accepts⟩ := consumed.exists_accepts (exists_unseen nodup occur (length ▸ many))
    obtain ⟨passed, added⟩ := consumed.firsts_of_accepts accepts
    obtain ⟨answer, next⟩ := consumed.call accepts (length ▸ room)
    refine ⟨count + wait + 1, isLeast_firsts (passed ▸ length) ?_, ?_, next⟩
    · rw [added, List.length_append, length, List.length_singleton]
    · rw [answers_succ, given, answer, added, List.map_append, List.map_append]
      rfl

/-- The search of a call ends when a value is still to come. -/
theorem search_ends (fresh : ids.Fresh) (drawn : ids.source = .draws start)
    {different : List UInt32} (nodup : different.Nodup)
    (occur : ∀ value ∈ different, value ∈ values ids.space start) {calls : ℕ}
    (room : calls < ids.space.toNat) (many : calls < different.length) :
    ∃ state found, (ids.after calls).source = .draws state ∧
      (ids.after calls).search state = some found := by
  obtain ⟨count, least, _, consumed⟩ := run fresh drawn nodup occur room.le many.le
  have length : (firsts (values ids.space start) count).length = calls := least.1
  obtain ⟨wait, accepts⟩ := consumed.exists_accepts (exists_unseen nodup occur (length ▸ many))
  exact ⟨_, _, consumed.source, accepts.search_eq #[]⟩

end Consumed

/-- Calls return as long as enough different values come. -/
theorem returns_of_different (fresh : ids.Fresh) (drawn : ids.source = .draws start)
    (different : List UInt32) (nodup : different.Nodup)
    (occur : ∀ value ∈ different, value ∈ values ids.space start) {calls : ℕ}
    (room : calls ≤ ids.space.toNat) (many : calls ≤ different.length) : ids.Returns calls := by
  obtain ⟨_, _, given, _⟩ := Consumed.run fresh drawn nodup occur room many
  rw [Returns, given]
  simp

/-! ## The answers -/

theorem answers_prefix (ids : Allocator γ) {calls more : ℕ} (further : calls ≤ more) :
    ids.answers calls <+: ids.answers more := by
  obtain ⟨rest, rfl⟩ := Nat.exists_eq_add_of_le further
  rw [answers, answers, List.range_add, List.map_append]
  exact List.prefix_append _ _

/-- An allocator that draws is made from its seed, stem and space alone. -/
theorem allocator_eq_of_seed {first second : Config} {seed other : Option UInt64}
    {entropy noise : KeyStream} (drawn : first.strategy = .random seed)
    (drawnToo : second.strategy = .random other)
    (starts : other.elim noise KeyStream.ofSeed = seed.elim entropy KeyStream.ofSeed)
    (stems : second.stem = first.stem) (spaces : second.space = first.space) :
    second.allocator noise = first.allocator entropy := by
  rw [Config.allocator, Config.allocator, drawn, drawnToo, Strategy.source, Strategy.source, starts,
    stems, spaces]

/-- An allocator that draws its numbers issues the first occurrences among its draws, in the order in
which they come, as long as there are enough different ones. -/
theorem answers_first_occurrences (ids : Allocator γ) (fresh : ids.Fresh) (start : γ)
    (drawn : ids.source = .draws start) (calls : ℕ) (room : calls ≤ ids.space.toNat)
    (different : List UInt32) (nodup : different.Nodup) (many : calls ≤ different.length)
    (occur : ∀ value ∈ different, value ∈ values ids.space start) :
    (∀ earlier < calls, ∃ state found, (ids.after earlier).source = .draws state ∧
      (ids.after earlier).search state = some found) ∧
    (∃ count, IsLeast {n | ((values ids.space start).take n).eraseDups.length = calls} count ∧
      ids.answers calls = ((values ids.space start).take count).eraseDups.map
        (fun number => .ok (ids.stem ++ number.toNat.repr)) ∧
      (ids.after calls).source = .draws ((states ids.space start).get count)) ∧
    (∀ (δ : Type) (_ : Generator δ) (twin : Allocator δ) (begins : δ), twin.Fresh →
      twin.source = .draws begins → twin.stem = ids.stem → twin.space = ids.space →
      values twin.space begins = values ids.space start →
      twin.answers calls = ids.answers calls) ∧
    (∀ (first second : Config) (seed other : Option UInt64) (entropy noise : KeyStream),
      first.strategy = .random seed → second.strategy = .random other →
      other.elim noise KeyStream.ofSeed = seed.elim entropy KeyStream.ofSeed →
      second.stem = first.stem → second.space = first.space → ∀ more,
      (second.allocator noise).answers more = (first.allocator entropy).answers more) ∧
    ∀ more, calls ≤ more → ids.answers calls <+: ids.answers more := by
  obtain ⟨count, least, given, consumed⟩ := Consumed.run fresh drawn nodup occur room many
  refine ⟨?_, ⟨count, least, ?_, consumed.source⟩, ?_, ?_, fun more => ids.answers_prefix⟩
  · intro earlier before
    exact Consumed.search_ends fresh drawn nodup occur (before.trans_le room) (before.trans_le many)
  · rw [given, List.map_map]
    rfl
  · intro δ _ twin begins freshToo drawnToo stems spaces same
    obtain ⟨_, leastToo, givenToo, _⟩ :=
      Consumed.run freshToo drawnToo nodup (same ▸ occur) (spaces ▸ room) many
    rw [same] at leastToo givenToo
    rw [givenToo, given, stems, least.unique leastToo]
  · intro first second seed other entropy noise drawn drawnToo starts stems spaces more
    rw [allocator_eq_of_seed drawn drawnToo starts stems spaces]

/-- A stream that gives its first value twenty times before another one comes. And a seed whose draws
from a space of four give the last number only at the sixteenth draw. -/
theorem answers_first_occurrences_repeated :
    let stream : Stream' UInt32 := fun n => if n < 20 then 2 else if n < 22 then 0 else 1
    let ids : Allocator (Stream' UInt32) := { stem := "a1", space := 3, source := .draws stream }
    let seeded : Config := { strategy := .random (some 7), space := 4 }
    (∃ state found, (ids.after 1).source = .draws state ∧ (ids.after 1).search state = some found) ∧
      ids.answers 3 = [.ok "a12", .ok "a10", .ok "a11"] ∧
      (ids.after 3).source = .draws (stream.drop 23) ∧ ids.answers 3 <+: ids.answers 4 ∧
      (seeded.allocator default).answers 4 = [.ok "a0", .ok "a1", .ok "a2", .ok "a3"] ∧
      ((seeded.allocator default).after 4).source =
        .draws ((states 4 (KeyStream.ofSeed 7)).get 16) := by
  intro stream ids seeded
  have same : values 3 stream = stream := by
    refine values_stream fun n => ?_
    change (if n < 20 then 2 else if n < 22 then 0 else 1) < (3 : UInt32)
    split_ifs <;> decide
  obtain ⟨ended, ⟨_, least, given, stands⟩, _, _, longer⟩ :=
    answers_first_occurrences ids ⟨rfl, nofun⟩ stream rfl 3 (by decide) [2, 0, 1] (by decide)
      (by decide) (by
        rw [same]
        simp only [List.forall_mem_cons]
        exact ⟨⟨0, rfl⟩, ⟨20, rfl⟩, ⟨22, rfl⟩, List.forall_mem_nil _⟩)
  obtain ⟨_, ⟨_, leastToo, givenToo, standsToo⟩, _⟩ :=
    answers_first_occurrences (seeded.allocator default) (fresh_source ..) (KeyStream.ofSeed 7) rfl 4
      (by decide) [0, 1, 2, 3] (by decide) (by decide) (by
        simp only [List.forall_mem_cons]
        exact ⟨⟨0, by decide⟩, ⟨1, by decide⟩, ⟨3, by decide⟩, ⟨15, by decide⟩,
          List.forall_mem_nil _⟩)
  obtain rfl := least.unique (isLeast_firsts (n := 22) (by decide) (by decide))
  obtain rfl := leastToo.unique (isLeast_firsts (n := 15) (by decide) (by decide))
  rw [states_stream] at stands
  exact ⟨ended 1 (by decide), given.trans (by decide), stands, longer 4 (by decide),
    givenToo.trans (by decide), standsToo⟩

end ViewMarkup.Allocator
