import Mathlib.Data.Nat.Find
import Mathlib.Data.Stream.Init
import ViewMarkup.Identifier.Allocator

/-! # Searching through draws

A generator that draws below one bound again and again goes through a stream of states and gives a
stream of values. A search takes the first value of this stream that is not issued, and leaves the
generator in the state after it. So a search ends exactly when such a value comes, and how its draws
are made does not show.
-/

namespace ViewMarkup.Random.Generator

variable {γ : Type} [Generator γ]

/-- The states of a generator that draws below a bound, from the present one on. -/
def states (bound : UInt32) (state : γ) : Stream' γ :=
  Stream'.iterate (fun current => (below bound current).2) state

/-- The values of its draws. -/
def values (bound : UInt32) (state : γ) : Stream' UInt32 :=
  (states bound state).map fun current => (below bound current).1

theorem states_succ (bound : UInt32) (state : γ) (n : ℕ) :
    (states bound state).get (n + 1) = (states bound (below bound state).2).get n :=
  Stream'.get_succ_iterate n _ state

theorem values_succ (bound : UInt32) (state : γ) (n : ℕ) :
    (values bound state).get (n + 1) = (values bound (below bound state).2).get n :=
  congrArg (fun current => (below bound current).1) (states_succ bound state n)

/-- Draws from a later state are the later draws. -/
theorem states_get (bound : UInt32) (state : γ) (n m : ℕ) :
    (states bound ((states bound state).get n)).get m = (states bound state).get (n + m) := by
  induction n generalizing state with
  | zero =>
    rw [Nat.zero_add]
    rfl
  | succ n ih => rw [states_succ, ih, ← states_succ, Nat.add_right_comm]

theorem values_get (bound : UInt32) (state : γ) (n m : ℕ) :
    (values bound ((states bound state).get n)).get m = (values bound state).get (n + m) :=
  congrArg (fun current => (below bound current).1) (states_get bound state n m)

theorem values_lt {bound : UInt32} (positive : 0 < bound) (state : γ) (n : ℕ) :
    (values bound state).get n < bound :=
  below_lt bound _ positive

/-- A stream is a generator of its own items, each cut down to the bound. -/
instance : Generator (Stream' UInt32) where
  below bound stream := (stream.head % bound, stream.tail)
  below_lt _ stream positive := UInt32.mod_lt stream.head positive

/-- Every stream of numbers below a bound is what some generator draws. -/
theorem values_stream {bound : UInt32} {stream : Stream' UInt32}
    (inside : ∀ n, stream.get n < bound) : values bound stream = stream := by
  refine Stream'.ext fun n => ?_
  induction n generalizing stream with
  | zero => exact UInt32.mod_eq_of_lt (inside 0)
  | succ n ih =>
    rw [values_succ]
    exact ih fun m => inside (m + 1)

theorem states_stream (bound : UInt32) (stream : Stream' UInt32) (n : ℕ) :
    (states bound stream).get n = stream.drop n := by
  induction n generalizing stream with
  | zero => rfl
  | succ n ih =>
    rw [states_succ, ih]
    rfl

end ViewMarkup.Random.Generator

namespace ViewMarkup.Allocator

open ViewMarkup.Random ViewMarkup.Random.Generator

variable {γ : Type} [Generator γ] {ids : Allocator γ} {state : γ} {n : ℕ}

/-- The draw at a position is the first that is not refused. -/
structure Accepts (ids : Allocator γ) (state : γ) (n : ℕ) : Prop where
  refused : ∀ earlier < n, (values ids.space state).get earlier ∈ ids.issued
  free : (values ids.space state).get n ∉ ids.issued

theorem accepts_find (comes : ∃ n, (values ids.space state).get n ∉ ids.issued) :
    ids.Accepts state (Nat.find comes) where
  refused _ earlier := not_not.mp (Nat.find_min comes earlier)
  free := Nat.find_spec comes

theorem accepts_zero (free : (below ids.space state).1 ∉ ids.issued) : ids.Accepts state 0 :=
  ⟨fun _ before => (Nat.not_lt_zero _ before).elim, free⟩

/-- A refused draw is followed by the draws from the next state. -/
theorem accepts_succ_iff : ids.Accepts state (n + 1) ↔
    (below ids.space state).1 ∈ ids.issued ∧ ids.Accepts (below ids.space state).2 n := by
  constructor
  · intro accepts
    refine ⟨accepts.refused 0 (Nat.succ_pos n), fun earlier small => ?_, ?_⟩
    · rw [← values_succ]
      exact accepts.refused (earlier + 1) (Nat.succ_lt_succ small)
    · rw [← values_succ]
      exact accepts.free
  · rintro ⟨taken, later⟩
    refine ⟨fun earlier small => ?_, ?_⟩
    · cases earlier with
      | zero => exact taken
      | succ earlier =>
        rw [values_succ]
        exact later.refused earlier (Nat.lt_of_succ_lt_succ small)
    · rw [values_succ]
      exact later.free

/-- The draw that a search makes at a position. -/
def drawAt (ids : Allocator γ) (state : γ) (n : ℕ) : Draw γ :=
  ⟨ids.space, (states ids.space state).get n, ids.issued⟩

theorem map_drawAt_succ (ids : Allocator γ) (state : γ) (n : ℕ) :
    (List.range (n + 1)).map (ids.drawAt state) = ids.drawAt state 0 ::
      (List.range n).map (ids.drawAt (below ids.space state).2) := by
  rw [List.range_succ_eq_map, List.map_cons, List.map_map]
  refine congrArg (_ :: ·) (List.map_congr_left fun m _ => ?_)
  simp only [Function.comp_apply, drawAt, Nat.succ_eq_add_one, states_succ]

theorem search_of_mem (taken : (below ids.space state).1 ∈ ids.issued) (made : Array (Draw γ)) :
    ids.search state made =
      ids.search (below ids.space state).2 (made.push (ids.drawAt state 0)) := by
  rw [search]
  exact if_pos (Std.TreeSet.contains_iff_mem.mpr taken)

theorem search_of_not_mem (free : (below ids.space state).1 ∉ ids.issued)
    (made : Array (Draw γ)) :
    ids.search state made = some ((below ids.space state).1, (below ids.space state).2,
      made.push (ids.drawAt state 0)) := by
  rw [search]
  exact if_neg (mt Std.TreeSet.contains_iff_mem.mp free)

theorem Accepts.search_eq (accepts : ids.Accepts state n) (made : Array (Draw γ)) :
    ids.search state made =
      some ((values ids.space state).get n, (states ids.space state).get (n + 1),
        made ++ (List.range (n + 1)).map (ids.drawAt state)) := by
  induction n generalizing state made with
  | zero =>
    have free : (below ids.space state).1 ∉ ids.issued := accepts.free
    rw [search_of_not_mem free]
    simp only [Nat.zero_add, List.range_one, List.map_singleton, Array.push_eq_append]
    rfl
  | succ n ih =>
    obtain ⟨taken, later⟩ := accepts_succ_iff.mp accepts
    rw [search_of_mem taken, ih later, ← values_succ, ← states_succ,
      ids.map_drawAt_succ state (n + 1)]
    simp

/-- A search that ends has come to the first draw that is not refused. -/
theorem exists_accepts_of_search {made : Array (Draw γ)} {found : UInt32 × γ × Array (Draw γ)}
    (ends : ids.search state made = some found) : ∃ n, ids.Accepts state n := by
  -- Fixpoint induction: what one more draw keeps holds wherever the search has a result.
  refine search.partial_correctness ids (fun state _ _ => ∃ n, ids.Accepts state n)
    ?_ state made found ends
  intro recursion ih state made found step
  by_cases taken : (below ids.space state).1 ∈ ids.issued
  · have further : recursion (below ids.space state).2 (made.push (ids.drawAt state 0)) =
        some found := (if_pos (Std.TreeSet.contains_iff_mem.mpr taken)).symm.trans step
    obtain ⟨n, later⟩ := ih _ _ _ further
    exact ⟨n + 1, accepts_succ_iff.mpr ⟨taken, later⟩⟩
  · exact ⟨0, accepts_zero taken⟩

theorem choose?_of_accepts (drawn : ids.source = .draws state) (accepts : ids.Accepts state n) :
    ids.choose? = some ((values ids.space state).get n,
      .draws ((states ids.space state).get (n + 1)),
      ((List.range (n + 1)).map (ids.drawAt state)).toArray) := by
  rw [choose?, drawn]
  simp [accepts.search_eq]

end ViewMarkup.Allocator
