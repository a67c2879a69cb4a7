import Mathlib.Data.List.Basic
import ViewMarkup.Proofs.Build.Levels

/-! # A capture stack is a stack of lists

A capture stack keeps a number, a collector and the collectors set aside, and its operations have a
branch for each way in which these could contradict each other. A plain stack is a list of lists of
nodes, and nothing in it can contradict. Both answer the same operations, and from the start they
give the same answers with the same depths, whatever the operations and the depths of their tokens
are. So the three parts of a capture stack never contradict each other. There are as many
collectors set aside as levels are open, there is a current one exactly if a level is open, and
only the one set aside first is missing, so no operation on an open level finds a collector
missing. Each node that was collected is in one place: in a list that was handed over, or at a
level that is open.

`operate_ofLevels` is the step of this simulation, and `run_ofLevels` and `exchanges_ofLevels` are
its runs. What is said of the parts of a stack is read off `ofLevels`.
-/

namespace ViewMarkup

namespace CaptureStack

/-- An operation on a stack of levels. -/
inductive Operation where
  | openLevel
  | collect (key : Key)
  | closeLevel (token : Token)
  | finish
deriving DecidableEq, Repr

/-- What a stack answers to an operation. -/
inductive Answer where
  | opened (token : Token)
  | collected (taken : Bool)
  | closed (result : Except CaptureError (List Key))
  | finished (result : Except CaptureError Unit)
deriving DecidableEq

/-- Answers an operation. What is refused changes nothing. -/
def operate (stack : CaptureStack) : Operation → Answer × CaptureStack
  | .openLevel => (.opened stack.openLevel.token, stack.openLevel)
  | .collect key =>
    match stack.collect? key with
    | some collecting => (.collected true, collecting)
    | none => (.collected false, stack)
  | .closeLevel token =>
    match stack.closeLevel token with
    | .ok (keys, rest) => (.closed (.ok keys), rest)
    | .error cause => (.closed (.error cause), stack)
  | .finish => (.finished stack.finish, stack)

/-- The nodes held at each open level, the innermost level first. -/
def levels (stack : CaptureStack) : List (List Key) :=
  (stack.current :: stack.parked).filterMap (Option.map (·.keys.toList))

end CaptureStack

/-- A stack that is nothing but the nodes of its levels, the innermost level first. -/
abbrev PlainStack := List (List Key)

open CaptureStack

/-- Answers an operation: levels are pushed and popped, and the height is what tells them apart. -/
def PlainStack.operate (plain : PlainStack) : Operation → Answer × PlainStack
  | .openLevel => (.opened ⟨plain.length + 1⟩, [] :: plain)
  | .collect key =>
    match plain with
    | [] => (.collected false, plain)
    | keys :: outer => (.collected true, (keys ++ [key]) :: outer)
  | .closeLevel token =>
    match plain with
    | [] => (.closed (.error .notCapturing), plain)
    | keys :: outer =>
      if token.depth = plain.length then (.closed (.ok keys), outer)
      else (.closed (.error (.unbalanced token.depth plain.length)), plain)
  | .finish =>
    (.finished (if plain.length = 0 then .ok () else .error (.unclosed plain.length)), plain)

/-! ## Runs -/

/-- An operation, its answer, and the depth after it. -/
structure Exchange where
  operation : Operation
  answer : Answer
  depth : ℕ
deriving DecidableEq

namespace Exchange

/-- The node that was collected, if one was. -/
def taken? : Exchange → Option Key
  | ⟨.collect key, .collected true, _⟩ => some key
  | _ => none

/-- The nodes that were handed over, if a level was closed. -/
def handed? : Exchange → Option (List Key)
  | ⟨_, .closed (.ok keys), _⟩ => some keys
  | _ => none

end Exchange

section Run

variable {σ : Type} (operate : σ → Operation → Answer × σ) (depth : σ → ℕ)

/-- The state after some operations. -/
def runOperations (state : σ) (operations : List Operation) : σ :=
  operations.foldl (fun state operation => (operate state operation).2) state

/-- What is exchanged with a state, one operation after the other. -/
def exchanges (state : σ) : List Operation → List Exchange
  | [] => []
  | operation :: rest =>
    let next := (operate state operation).2
    ⟨operation, (operate state operation).1, depth next⟩ :: exchanges next rest

end Run

/-! ## The simulation -/

namespace CaptureStack

variable (plain : PlainStack)

theorem finish_ofLevels :
    (ofLevels plain).finish =
      if plain.length = 0 then .ok () else .error (.unclosed plain.length) := by
  rw [finish, depth_ofLevels]
  by_cases closed : plain.length = 0
  · rw [if_pos closed, if_neg (Nat.not_lt_of_le (Nat.le_of_eq closed))]
  · rw [if_neg closed, if_pos (Nat.pos_of_ne_zero closed)]

/-- An operation does to a stack with given levels what it does to the list of the levels. -/
theorem operate_ofLevels (operation : Operation) :
    (ofLevels plain).operate operation =
      ((plain.operate operation).1, ofLevels (plain.operate operation).2) := by
  cases operation with
  | openLevel =>
    rw [operate, PlainStack.operate, openLevel_ofLevels, token, depth_ofLevels, List.length_cons]
  | collect key =>
    rw [operate]
    cases plain with
    | nil => rfl
    | cons keys outer =>
      rw [collect?_ofLevels_cons]
      rfl
  | closeLevel token =>
    rw [operate]
    cases plain with
    | nil => rfl
    | cons keys outer =>
      rw [closeLevel_ofLevels_cons, PlainStack.operate, List.length_cons]
      by_cases innermost : token.depth = outer.length + 1
      · rw [if_pos innermost, if_pos innermost]
      · rw [if_neg innermost, if_neg innermost]
  | finish => rw [operate, PlainStack.operate, finish_ofLevels]

theorem run_ofLevels (operations : List Operation) :
    runOperations operate (ofLevels plain) operations =
      ofLevels (runOperations PlainStack.operate plain operations) := by
  induction operations generalizing plain with
  | nil => rfl
  | cons operation rest ih =>
    have step := congrArg Prod.snd (operate_ofLevels plain operation)
    rw [runOperations, List.foldl_cons, step]
    exact ih (plain.operate operation).2

theorem exchanges_ofLevels (operations : List Operation) :
    exchanges operate CaptureStack.depth (ofLevels plain) operations =
      exchanges PlainStack.operate List.length plain operations := by
  induction operations generalizing plain with
  | nil => rfl
  | cons operation rest ih =>
    rw [exchanges, exchanges, operate_ofLevels, ih, depth_ofLevels]

/-! ## The parts of a stack -/

variable (keys : List Key) (outer : PlainStack)

theorem parked_ofLevels_cons :
    (ofLevels (keys :: outer)).parked = (ofLevels outer).current :: (ofLevels outer).parked :=
  rfl

@[simp] theorem levels_ofLevels : (ofLevels plain).levels = plain := by
  induction plain with
  | nil => rfl
  | cons keys outer ih =>
    have inner : (ofLevels (keys :: outer)).levels = keys :: (ofLevels outer).levels := rfl
    rw [inner, ih]

theorem length_parked_ofLevels : (ofLevels plain).parked.length = plain.length := by
  induction plain with
  | nil => rfl
  | cons keys outer ih => rw [parked_ofLevels_cons, List.length_cons, ih, List.length_cons]

theorem current_ofLevels_eq_none_iff : (ofLevels plain).current = none ↔ plain.length = 0 := by
  cases plain with
  | nil => exact iff_of_true rfl rfl
  | cons keys outer => exact iff_of_false (Option.some_ne_none _) (Nat.succ_ne_zero _)

/-- Of the collectors set aside only the first one, which stands last, is missing. -/
theorem parked_ofLevels_eq_none_iff (index : ℕ) :
    (ofLevels plain).parked[index]? = some none ↔ index + 1 = plain.length := by
  induction plain generalizing index with
  | nil => exact iff_of_false (by simp [ofLevels]) (Nat.succ_ne_zero index)
  | cons keys outer ih =>
    rw [parked_ofLevels_cons, List.length_cons]
    cases index with
    | zero =>
      rw [List.getElem?_cons_zero, Option.some.injEq, current_ofLevels_eq_none_iff]
      omega
    | succ index =>
      rw [List.getElem?_cons_succ, ih]
      omega

end CaptureStack

/-! ## Nothing is lost -/

/-- A node that is collected goes to a level, and the nodes of a level that is closed are handed
over. -/
theorem PlainStack.operate_perm (plain : PlainStack) (operation : Operation) (depth : ℕ) :
    let exchange : Exchange := ⟨operation, (plain.operate operation).1, depth⟩
    (plain.flatten ++ exchange.taken?.toList).Perm
      (exchange.handed?.toList.flatten ++ (plain.operate operation).2.flatten) := by
  intro exchange
  cases operation with
  | openLevel => simp [exchange, operate, Exchange.taken?, Exchange.handed?]
  | collect key =>
    cases plain with
    | nil => simp [exchange, operate, Exchange.taken?, Exchange.handed?]
    | cons keys outer =>
      have moved : (keys ++ (outer.flatten ++ [key])).Perm (keys ++ (key :: outer.flatten)) :=
        (List.perm_append_singleton key _).append_left keys
      simpa [exchange, operate, Exchange.taken?, Exchange.handed?] using moved
  | closeLevel token =>
    cases plain with
    | nil => simp [exchange, operate, Exchange.taken?, Exchange.handed?]
    | cons keys outer =>
      by_cases innermost : token.depth = (keys :: outer).length
      · have closed : operate (keys :: outer) (.closeLevel token) = (.closed (.ok keys), outer) :=
          if_pos innermost
        simp [exchange, closed, Exchange.taken?, Exchange.handed?]
      · have refused : operate (keys :: outer) (.closeLevel token) =
            (.closed (.error (.unbalanced token.depth (keys :: outer).length)), keys :: outer) :=
          if_neg innermost
        simp [exchange, refused, Exchange.taken?, Exchange.handed?]
  | finish => simp [exchange, operate, Exchange.taken?, Exchange.handed?]

/-- What was held and what is collected is what is handed over and what is held in the end. -/
theorem PlainStack.exchanges_perm (plain : PlainStack) (operations : List Operation) :
    let log := exchanges operate List.length plain operations
    (plain.flatten ++ log.filterMap Exchange.taken?).Perm
      (log.filterMap Exchange.handed? ++ runOperations operate plain operations).flatten := by
  induction operations generalizing plain with
  | nil => simp [exchanges, runOperations]
  | cons operation rest ih =>
    intro log
    let next := (plain.operate operation).2
    let exchange : Exchange := ⟨operation, (plain.operate operation).1, next.length⟩
    have step : (plain.flatten ++ exchange.taken?.toList).Perm
        (exchange.handed?.toList.flatten ++ next.flatten) := plain.operate_perm operation _
    have split {β : Type} (select : Exchange → Option β) : log.filterMap select =
        (select exchange).toList ++ (exchanges operate List.length next rest).filterMap select := by
      change List.filterMap select (exchange :: _) = _
      rw [List.filterMap_cons]
      cases select exchange <;> rfl
    rw [split, split, ← List.append_assoc, List.append_assoc _ _ (runOperations ..),
      List.flatten_append]
    refine (step.append_right _).trans ?_
    rw [List.append_assoc]
    exact (ih next).append_left _

/-- Of lists that hold a node once in all, one list holds it and the others do not. -/
theorem exists_unique_list {lists : List (List Key)} {key : Key}
    (once : lists.flatten.count key = 1) :
    ∃ before keys after, lists = before ++ keys :: after ∧ keys.count key = 1 ∧
      key ∉ (before ++ after).flatten := by
  have member : key ∈ lists.flatten := List.count_pos_iff.mp (by omega)
  obtain ⟨keys, listed, inside⟩ := List.mem_flatten.mp member
  obtain ⟨before, after, rfl⟩ := List.append_of_mem listed
  have here := List.count_pos_iff.mpr inside
  simp only [List.flatten_append, List.flatten_cons, List.count_append] at once
  refine ⟨before, keys, after, rfl, by omega, ?_⟩
  rw [← List.count_eq_zero, List.flatten_append, List.count_append]
  omega

/-- From the start and under all operations, a capture stack refines a plain stack, and each node
that it collects is in one place. -/
theorem CaptureStack.refines_plain (operations : List Operation) :
    let stack := runOperations CaptureStack.operate {} operations
    let log := exchanges CaptureStack.operate CaptureStack.depth {} operations
    let taken := log.filterMap Exchange.taken?
    let places := log.filterMap Exchange.handed? ++ stack.levels
    (log = exchanges PlainStack.operate List.length [] operations ∧
      stack.levels = runOperations PlainStack.operate [] operations ∧
      stack.depth = stack.levels.length) ∧
    (stack.parked.length = stack.depth ∧ (stack.current.isSome ↔ 0 < stack.depth) ∧
      (∀ index, stack.parked[index]? = some none ↔ index + 1 = stack.depth) ∧
      (0 < stack.depth → stack.current ≠ none ∧ stack.parked ≠ [])) ∧
    taken.Perm places.flatten ∧
    ∀ key, taken.count key = 1 →
      ∃ before keys after, places = before ++ keys :: after ∧ keys.count key = 1 ∧
        key ∉ (before ++ after).flatten := by
  intro stack log taken places
  let plain := runOperations PlainStack.operate [] operations
  have shape : stack = ofLevels plain := run_ofLevels [] operations
  have same : log = exchanges PlainStack.operate List.length [] operations :=
    exchanges_ofLevels [] operations
  have levels : stack.levels = plain := by rw [shape, levels_ofLevels]
  have depth : stack.depth = plain.length := by rw [shape, depth_ofLevels]
  have current : stack.current = none ↔ stack.depth = 0 := by
    rw [depth, shape, current_ofLevels_eq_none_iff]
  have parked : stack.parked.length = stack.depth := by
    rw [depth, shape, length_parked_ofLevels]
  have conserved : taken.Perm places.flatten := by
    have perm := PlainStack.exchanges_perm [] operations
    rw [← same] at perm
    change taken.Perm (log.filterMap Exchange.handed? ++ plain).flatten at perm
    rwa [← levels] at perm
  refine ⟨⟨same, levels, by rw [levels, depth]⟩, ⟨parked, ?_, fun index => ?_, fun capturing => ?_⟩,
    conserved, fun key once => ?_⟩
  · rw [Option.isSome_iff_ne_none, ne_eq, current, Nat.pos_iff_ne_zero]
  · rw [depth, shape, parked_ofLevels_eq_none_iff]
  · refine ⟨fun missing => ?_, fun empty => ?_⟩
    · exact Nat.ne_of_gt capturing (current.mp missing)
    · rw [empty, List.length_nil] at parked
      exact Nat.ne_of_lt capturing parked
  · rw [conserved.count_eq] at once
    exact exists_unique_list once

/-- Two levels, of which the outer one is closed first in vain, and a third one that stays open. -/
theorem CaptureStack.refines_plain_reopened :
    let operations : List Operation :=
      [.collect 0, .openLevel, .collect 1, .openLevel, .collect 2, .closeLevel ⟨1⟩, .collect 3,
        .closeLevel ⟨2⟩, .collect 4, .openLevel, .collect 5, .finish]
    let stack := runOperations CaptureStack.operate {} operations
    let log := exchanges CaptureStack.operate CaptureStack.depth {} operations
    let places := log.filterMap Exchange.handed? ++ stack.levels
    log = exchanges PlainStack.operate List.length [] operations ∧
      log.getLast? = some ⟨.finish, .finished (.error (.unclosed 2)), 2⟩ ∧
      places = [[2, 3], [5], [1, 4]] ∧ stack.parked[1]? = some none ∧ stack.current ≠ none ∧
      (log.filterMap Exchange.taken?).Perm [2, 3, 5, 1, 4] ∧
      ∃ before keys after, places = before ++ keys :: after ∧ keys.count 4 = 1 ∧
        4 ∉ (before ++ after).flatten := by
  intro operations stack log places
  obtain ⟨⟨same, _⟩, ⟨_, _, bottom, parts⟩, conserved, once⟩ := refines_plain operations
  have listed : places = [[2, 3], [5], [1, 4]] := by decide
  refine ⟨same, by decide, listed, (bottom 1).mpr (by decide), (parts (by decide)).1, ?_,
    once 4 (by decide)⟩
  have flat : places.flatten = [2, 3, 5, 1, 4] := by rw [listed]; rfl
  exact flat ▸ conserved

end ViewMarkup
