import ViewMarkup.Proofs.Build.PlainStack
import ViewMarkup.Proofs.Program.Faults

/-! # The trail of a build

The events of a build account for what it did. The events of capture levels lead from depth zero
from depth to depth and end at the depth of the builder, so as many levels are closed as opened
when the build ends well. The nodes of the tree are the roots, the nodes that were handed over when
levels were closed, and the nodes that open levels hold; the last event of a build that ends well
counts the first two. Each failure is reported once, by the call that fails, so the first report is
the fault that the build ends with, if it does not fail for levels that are still open.

`Builder.Accounted` is what every call keeps of this. Reports of failures are compared with
`Builder.failures` call by call.
-/

namespace ViewMarkup

open ViewMarkup.Random CaptureStack

/-! ## Reading events -/

namespace Event

/-- The depth that an event leads to. A level that is opened leads one deeper and a level that is
closed leads back by one; an event with any other depth does not fit. -/
def depthAfter? (depth : ℕ) : Event → Option ℕ
  | .captureBegan reached => if reached = depth + 1 then some reached else none
  | .captureEnded reached _ => if reached + 1 = depth then some reached else none
  | _ => some depth

/-- The depth that events lead to, one after the other. -/
def replay? (depth : ℕ) (events : List Event) : Option ℕ :=
  events.foldlM depthAfter? depth

/-- Whether a level was opened. -/
def isBegin : Event → Bool
  | .captureBegan _ => true
  | _ => false

/-- Whether a level was closed. -/
def isEnd : Event → Bool
  | .captureEnded .. => true
  | _ => false

/-- How many nodes an event hands over. -/
def children : Event → ℕ
  | .captureEnded _ children => children
  | _ => 0

/-- How many nodes events hand over together. -/
def handedOver : List Event → ℕ
  | [] => 0
  | event :: rest => event.children + handedOver rest

/-- The failure that is reported. -/
def aborted? : Event → Option BuildError
  | .buildAborted cause _ => some cause
  | _ => none

variable {events : List Event} {depth reached : ℕ}

theorem replay?_append (first second : List Event) :
    replay? depth (first ++ second) = (replay? depth first).bind (replay? · second) :=
  List.foldlM_append

theorem handedOver_append (first second : List Event) :
    handedOver (first ++ second) = handedOver first + handedOver second := by
  induction first with
  | nil => exact (Nat.zero_add _).symm
  | cons event rest ih => rw [List.cons_append, handedOver, handedOver, ih, Nat.add_assoc]

theorem replay?_concat (events : List Event) (event : Event) :
    replay? depth (events ++ [event]) = (replay? depth events).bind (depthAfter? · event) := by
  rw [replay?_append]
  exact congrArg _ (funext fun _ => bind_pure _)

/-- Levels that were opened and not closed make the difference of the depths. -/
theorem count_of_replay? (replayed : replay? depth events = some reached) :
    depth + events.countP isBegin = reached + events.countP isEnd := by
  induction events generalizing depth with
  | nil =>
    cases replayed
    rfl
  | cons event rest ih =>
    rw [replay?, List.foldlM_cons] at replayed
    obtain ⟨middle, fits, replayed⟩ := Option.bind_eq_some_iff.mp replayed
    have counted := ih replayed
    cases event with
    | captureBegan shown =>
      obtain ⟨rfl, same⟩ := Option.ite_none_right_eq_some.mp fits
      cases same
      simp only [List.countP_cons, isBegin, isEnd, if_true, Bool.false_eq_true, if_false]
      omega
    | captureEnded shown children =>
      obtain ⟨rfl, same⟩ := Option.ite_none_right_eq_some.mp fits
      cases same
      simp only [List.countP_cons, isBegin, isEnd, if_true, Bool.false_eq_true, if_false]
      omega
    | buildFinished | buildAborted | renderFinished | fontIgnored =>
      cases fits
      exact counted

/-- Events that are not about levels lead nowhere and hand nothing over. -/
theorem replay?_of_quiet (quiet : ∀ event ∈ events, event.isBegin = false ∧ event.isEnd = false)
    (depth : ℕ) : replay? depth events = some depth ∧ handedOver events = 0 := by
  induction events with
  | nil => exact ⟨rfl, rfl⟩
  | cons event rest ih =>
    obtain ⟨⟨noBegin, noEnd⟩, later⟩ := List.forall_mem_cons.mp quiet
    have still := ih later
    cases event with
    | captureBegan => contradiction
    | captureEnded => contradiction
    | buildFinished | buildAborted | renderFinished | fontIgnored =>
      rw [handedOver, still.2]
      exact ⟨still.1, rfl⟩

end Event

theorem Tree.exists_of_mem_warnings {tree : Tree} {key : Key} {modifiers : List Modifier}
    {event : Event} (member : event ∈ tree.warnings key modifiers) :
    ∃ typeName, event = .fontIgnored typeName := by
  rw [warnings] at member
  split at member
  · obtain ⟨_, _, rfl⟩ := List.mem_map.mp member
    exact ⟨_, rfl⟩
  · cases member

/-! ## What the events account for -/

namespace Builder

variable {γ : Type} {builder after : Builder γ} {levels outer : List (List Key)} {keys : List Key}

/-- The events lead to the depth of the open levels, and every node of the tree is a root, was
handed over or is held at an open level. -/
structure Accounted (builder : Builder γ) (levels : List (List Key)) : Prop where
  stack : builder.stack = ofLevels levels
  depth : Event.replay? 0 builder.events.toList = some levels.length
  nodes : builder.tree.size =
    builder.tree.roots.size + Event.handedOver builder.events.toList + levels.flatten.length

namespace Accounted

/-- Events that are not about levels change nothing. -/
theorem of_quiet (accounted : builder.Accounted levels) {news : List Event}
    (events : after.events.toList = builder.events.toList ++ news)
    (quiet : ∀ event ∈ news, event.isBegin = false ∧ event.isEnd = false)
    (stack : after.stack = builder.stack) (sizes : after.tree.size = builder.tree.size)
    (roots : after.tree.roots = builder.tree.roots) : after.Accounted levels where
  stack := stack.trans accounted.stack
  depth := by
    rw [events, Event.replay?_append, accounted.depth]
    exact (Event.replay?_of_quiet quiet _).1
  nodes := by
    rw [events, Event.handedOver_append, (Event.replay?_of_quiet quiet 0).2, sizes, roots]
    exact accounted.nodes

theorem record (accounted : builder.Accounted levels) (error : BuildError) :
    (builder.record error).Accounted levels :=
  accounted.of_quiet (Array.toList_push ..) (by simp [Event.isBegin, Event.isEnd]) rfl rfl rfl

theorem modify (accounted : builder.Accounted levels) (key : Key) (modifiers : List Modifier) :
    (builder.modify key modifiers).Accounted levels := by
  refine accounted.of_quiet (Array.toList_append ..) (fun event member => ?_) rfl ?_ ?_
  · obtain ⟨_, rfl⟩ := Tree.exists_of_mem_warnings member
    exact ⟨rfl, rfl⟩
  · exact builder.tree.size_modifyAll key modifiers
  · exact builder.tree.roots_modifyAll key modifiers

theorem attach (accounted : builder.Accounted levels) (parent : Key) (keys : List Key) :
    Accounted { builder with tree := builder.tree.attach parent keys } levels :=
  accounted.of_quiet (List.append_nil _).symm (by simp) rfl (builder.tree.size_attach parent keys)
    (builder.tree.roots_attach parent keys)

/-- A new node is a root, or the innermost level holds it. -/
theorem place (accounted : builder.Accounted levels) (node : Node) :
    ∃ levels, (builder.place node).Accounted levels := by
  obtain ⟨stack, depth, nodes⟩ := accounted
  cases levels with
  | nil =>
    rw [builder.place_root node stack]
    have roots : ((builder.tree.insert node).addRoot builder.tree.size).roots.size =
        builder.tree.roots.size + 1 := Array.size_push _
    refine ⟨[], stack, depth, ?_⟩
    simp only [Tree.size_addRoot, Tree.size_insert, roots]
    omega
  | cons keys outer =>
    rw [builder.place_held node stack]
    refine ⟨(keys ++ [builder.tree.size]) :: outer, rfl, depth, ?_⟩
    rw [List.flatten_cons, List.length_append] at nodes
    simp only [Tree.size_insert, Tree.roots_insert, List.flatten_cons, List.length_append,
      List.length_singleton]
    omega

theorem beginCapture (accounted : builder.Accounted levels) :
    builder.beginCapture.Accounted ([] :: levels) where
  stack := congrArg CaptureStack.openLevel accounted.stack
  depth := by
    have deep : builder.stack.openLevel.depth = levels.length + 1 := by
      rw [depth_openLevel, accounted.stack, depth_ofLevels]
    rw [Builder.beginCapture, emit, Array.toList_push, Event.replay?_concat, accounted.depth]
    exact (if_pos deep).trans (congrArg some deep)
  nodes := by
    rw [Builder.beginCapture, emit, Array.toList_push, Event.handedOver_append]
    exact accounted.nodes

/-- The nodes of a level that is closed are handed over. -/
theorem afterClose (accounted : builder.Accounted (keys :: outer)) :
    (builder.afterClose keys outer).Accounted outer where
  stack := rfl
  depth := by
    rw [Builder.afterClose, emit, Array.toList_push, Event.replay?_concat, accounted.depth]
    exact if_pos rfl
  nodes := by
    have nodes := accounted.nodes
    rw [List.flatten_cons, List.length_append] at nodes
    simp only [Builder.afterClose, emit, Array.toList_push, Event.handedOver_append,
      Event.handedOver, Event.children]
    omega

variable [Generator γ]

theorem construct (accounted : builder.Accounted levels) (kind : Kind) :
    ∃ levels, (builder.construct kind).Accounted levels := by
  have named : builder.nextIdentifier.2.Accounted levels := by
    rw [nextIdentifier]
    split
    · exact ⟨accounted.stack, accounted.depth, accounted.nodes⟩
    · exact accounted.record _
  rw [construct_eq_place]
  exact named.place _

/-- Every call keeps the account, whether or not it fails. -/
theorem perform (accounted : builder.Accounted levels) (call : Call) :
    ∃ levels, (builder.perform call).Accounted levels := by
  cases call with
  | construct kind => exact accounted.construct kind
  | modify key modifiers => exact ⟨levels, accounted.modify key modifiers⟩
  | start | beginCapture => exact ⟨_, accounted.beginCapture⟩
  | leave token container =>
    rw [Builder.perform]
    rcases innermost_or_other levels token with other | ⟨keys, outer, rfl, innermost⟩
    · obtain ⟨error, refused⟩ := closeContainer_of_other accounted.stack other container
      rw [refused]
      exact ⟨levels, accounted.record error⟩
    · rw [closeContainer_of_innermost accounted.stack innermost]
      exact ⟨outer, accounted.afterClose.attach container keys⟩
  | endCapture token parent =>
    rw [Builder.perform]
    rcases innermost_or_other levels token with other | ⟨keys, outer, rfl, innermost⟩
    · obtain ⟨error, refused⟩ := endCapture_of_other accounted.stack other parent
      rw [refused]
      exact ⟨levels, accounted.record error⟩
    · by_cases able : canAdopt builder.tree parent keys = true
      · rw [endCapture_of_adoptable accounted.stack innermost able]
        exact ⟨outer, accounted.afterClose.attach parent keys⟩
      · -- The level is closed all the same: its nodes count as handed over, though they are lost.
        obtain ⟨error, _, refused⟩ := endCapture_of_not_adoptable accounted.stack innermost able
        rw [refused]
        exact ⟨outer, accounted.afterClose.record error⟩

theorem performAll (accounted : builder.Accounted levels) (calls : List Call) :
    ∃ levels, (builder.performAll calls).Accounted levels := by
  induction calls generalizing builder levels with
  | nil => exact ⟨levels, accounted⟩
  | cons call rest ih =>
    obtain ⟨_, next⟩ := accounted.perform call
    exact ih next

end Accounted

/-! ## Reports of failures -/

/-- The failures that were reported. -/
def reports (builder : Builder γ) : List BuildError :=
  builder.events.toList.filterMap Event.aborted?

theorem reports_record (builder : Builder γ) (error : BuildError) :
    (builder.record error).reports = builder.reports ++ [error] := by
  simp [reports, record, emit, Event.aborted?]

theorem reports_of_closeLevel {builder closed : Builder γ} {token : Token} {keys : List Key}
    (success : builder.closeLevel token = .ok (keys, closed)) :
    closed.reports = builder.reports := by
  rw [closeLevel] at success
  split at success
  · cases success
    simp [reports, emit, Event.aborted?]
  · contradiction

variable [Generator γ]

/-- A call that fails reports its failure once, and any other call reports none. -/
theorem reports_perform (builder : Builder γ) (call : Call) :
    (builder.perform call).reports = builder.reports ++ (builder.failure? call).toList := by
  cases call with
  | construct kind =>
    have placed (named : Builder γ) (node : Node) : (named.place node).reports = named.reports := by
      rw [place]
      split <;> rfl
    rw [perform, failure?, construct_eq_place, placed, nextIdentifier]
    cases builder.ids.allocate with
    | error cause => exact builder.reports_record _
    | ok pair => exact (List.append_nil _).symm
  | modify key modifiers =>
    have silent : (builder.tree.warnings key modifiers).filterMap Event.aborted? = [] := by
      rw [List.filterMap_eq_nil_iff]
      intro event member
      obtain ⟨_, rfl⟩ := Tree.exists_of_mem_warnings member
      rfl
    rw [perform, modify, reports, Array.toList_append, List.filterMap_append, silent]
    rfl
  | start | beginCapture => simp [perform, beginCapture, emit, reports, Event.aborted?, failure?]
  | leave token container =>
    rw [perform, failure?, closeContainer]
    cases closes : builder.closeLevel token with
    | error cause => exact builder.reports_record _
    | ok pair =>
      have kept := reports_of_closeLevel closes
      rw [Option.toList_none, List.append_nil]
      exact kept
  | endCapture token parent =>
    rw [perform, failure?, endCapture]
    cases closes : builder.closeLevel token with
    | error cause => exact builder.reports_record _
    | ok pair =>
      have kept := reports_of_closeLevel closes
      dsimp only
      split
      · rw [Option.toList_none, List.append_nil]
        exact kept
      · rw [reports_record, kept]
        rfl

theorem reports_performAll (builder : Builder γ) (calls : List Call) :
    (builder.performAll calls).reports = builder.reports ++ builder.failures calls := by
  induction calls generalizing builder with
  | nil => exact (List.append_nil _).symm
  | cons call rest ih =>
    rw [performAll_cons, ih, reports_perform, failures, List.append_assoc]

/-! ## How the trail ends -/

omit [Generator γ] in
/-- The last event reports success, and a failure adds none. -/
theorem finish_snd (builder : Builder γ) :
    builder.finish.2.toList = builder.events.toList ++
      match builder.finish.1 with
      | .ok tree => [.buildFinished tree.size tree.roots.size]
      | .error _ => [] := by
  rw [finish]
  cases builder.outcome with
  | ok tree => exact Array.toList_push ..
  | error error => exact (List.append_nil _).symm

omit [Generator γ] in
theorem reports_finish (builder : Builder γ) :
    builder.finish.2.toList.filterMap Event.aborted? = builder.reports := by
  rw [finish_snd, List.filterMap_append]
  cases builder.finish.1 <;> exact List.append_nil _

omit [Generator γ] in
/-- Ending a build is not about levels. -/
theorem Accounted.finish (accounted : builder.Accounted levels) :
    Event.replay? 0 builder.finish.2.toList = some builder.depth ∧
    builder.tree.size = builder.tree.roots.size + Event.handedOver builder.finish.2.toList +
      levels.flatten.length := by
  have deep : builder.depth = levels.length := by
    rw [Builder.depth, accounted.stack, depth_ofLevels]
  have ended : Accounted { builder with events := builder.finish.2 } levels := by
    refine accounted.of_quiet builder.finish_snd ?_ rfl rfl rfl
    cases builder.finish.1 <;> simp [Event.isBegin, Event.isEnd]
  exact ⟨deep ▸ ended.depth, ended.nodes⟩

end Builder

/-- The trail of a program accounts for its levels, its nodes and its failures after every call, and
for how the build ends. -/
theorem Program.trail_accounts {γ : Type} [Generator γ] (ids : Allocator γ) (program : Program) :
    let start : Builder γ := { ids }
    let calls := Program.calls { builder := start } program
    let final := (Program.run { builder := start } program).builder
    let trail := final.finish.2.toList
    start.performAll calls = final ∧
    (∀ before after, calls = before ++ after →
      let builder := start.performAll before
      Event.replay? 0 builder.events.toList = some builder.depth ∧
      builder.tree.size = builder.tree.roots.size + Event.handedOver builder.events.toList +
        builder.stack.levels.flatten.length) ∧
    (∀ (builder : Builder γ) (call : Call),
      (builder.perform call).reports = builder.reports ++ (builder.failure? call).toList) ∧
    Event.replay? 0 trail = some final.depth ∧
    trail.filterMap Event.aborted? = start.failures calls ∧
    (∀ tree, final.finish.1 = .ok tree →
      trail.countP Event.isBegin = trail.countP Event.isEnd ∧
      ∃ nodes roots, trail.getLast? = some (.buildFinished nodes roots) ∧ nodes = tree.size ∧
        roots = tree.roots.size ∧ nodes = roots + Event.handedOver trail) ∧
    final.finish.1 = (match (trail.filterMap Event.aborted?).head? with
      | some error => .error error
      | none =>
        if 0 < final.depth then .error (.capture (.unclosed final.depth)) else .ok final.tree) := by
  intro start calls final trail
  have replayed : start.performAll calls = final :=
    Program.performAll_calls { builder := start } program
  have fresh : start.Accounted [] := ⟨rfl, rfl, rfl⟩
  obtain ⟨levels, accounted⟩ := fresh.performAll calls
  rw [replayed] at accounted
  obtain ⟨leads, nodes⟩ := accounted.finish
  have reported : trail.filterMap Event.aborted? = start.failures calls := by
    rw [show trail.filterMap Event.aborted? = final.reports from final.reports_finish, ← replayed]
    exact start.reports_performAll calls
  refine ⟨replayed, ?_, Builder.reports_perform, leads, reported, ?_, ?_⟩
  · intro before _ _ builder
    obtain ⟨levels, accounted⟩ := fresh.performAll before
    rw [Builder.depth, accounted.stack, depth_ofLevels, levels_ofLevels]
    exact ⟨accounted.depth, accounted.nodes⟩
  · intro tree finished
    have last : trail = final.events.toList ++ [.buildFinished tree.size tree.roots.size] := by
      rw [show trail = _ from final.finish_snd, finished]
    obtain ⟨_, closed, rfl⟩ := Builder.outcome_eq_ok_iff.mp (final.finish_fst ▸ finished)
    have idle : levels = [] := by
      rw [Builder.depth, accounted.stack, depth_ofLevels] at closed
      exact List.length_eq_zero_iff.mp closed
    have counted := Event.count_of_replay? leads
    rw [closed, Nat.zero_add, Nat.zero_add] at counted
    rw [idle] at nodes
    exact ⟨counted, _, _, last ▸ List.getLast?_concat, rfl, rfl, nodes⟩
  · rw [reported, Builder.finish_fst, Builder.outcome_eq, ← replayed, Builder.fault_performAll]
    rfl

/-- A wrong token is refused, and then a level is closed for a node that does not exist: its node
counts as handed over though it is lost. In another program a container has its level taken away and
gets a later one, and as many levels are closed as opened. -/
theorem Program.trail_accounts_lost :
    let failing : Program :=
      [.vstack [.text "a", .beginCapture "inner", .text "lost", .endCapture (.forged ⟨9⟩) .nothing,
        .endCapture (.stored "inner") .nothing], .beginCapture "level", .text "held"]
    let swapped : Program :=
      [.hstack [], .vstack [.text "taken", .endCapture (.forged ⟨1⟩) (.numbered 0),
        .beginCapture "level", .text "left"]]
    let start : Builder KeyStream := { ids := Config.sequential.allocator default }
    let final (program : Program) := (Program.run { builder := start } program).builder
    let trail (program : Program) := (final program).finish.2.toList
    let unbalanced : BuildError := .capture (.unbalanced 9 2)
    let invalid : BuildError := .capture (.invalidParent "")
    let middle := start.performAll ((Program.calls { builder := start } failing).take 9)
    middle.events.toList =
        [.captureBegan 1, .captureBegan 2, .buildAborted unbalanced 2, .captureEnded 1 1,
          .buildAborted invalid 1] ∧
      middle.stack.levels = [[1]] ∧
      (Event.replay? 0 middle.events.toList = some middle.depth ∧
        middle.tree.size = middle.tree.roots.size + Event.handedOver middle.events.toList +
          middle.stack.levels.flatten.length) ∧
      (trail failing).filterMap Event.aborted? = [unbalanced, invalid] ∧
      (final failing).finish.1 = .error unbalanced ∧
      (trail swapped).countP Event.isBegin = 3 ∧
      (trail swapped).countP Event.isBegin = (trail swapped).countP Event.isEnd ∧
      ∃ nodes roots, (trail swapped).getLast? = some (.buildFinished nodes roots) ∧
        nodes = (final swapped).tree.size ∧ roots = (final swapped).tree.roots.size ∧
        nodes = roots + Event.handedOver (trail swapped) := by
  -- The programs are left where the statement has them: named here, they would be run at each use.
  have accounts := Program.trail_accounts (Config.sequential.allocator default)
  refine ⟨by decide, by decide, (accounts _).2.1 _ _ (List.take_append_drop 9 _).symm, ?_, ?_,
    by decide, (accounts _).2.2.2.2.2.1 _ (Builder.finish_of_closed (by decide) (by decide))⟩
  · exact (accounts _).2.2.2.2.1.trans (by decide)
  · rw [(accounts _).2.2.2.2.2.2, (accounts _).2.2.2.2.1]
    decide

end ViewMarkup
