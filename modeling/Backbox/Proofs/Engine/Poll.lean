import Backbox.Proofs.Engine.Turn

/-!
# Polls and their bounds

A poll counts the commands that it dispatches, and one that dispatches none only removes
connections. Its bound only limits how far it may go: a poll that answers gives the same answer with
every larger bound, and it answers when the bound exceeds what waits and no handler lets its peers
send meanwhile.
-/

namespace Backbox

/-- No peer sends anything during a reaction. -/
def Reaction.Quiet : Reaction → Prop
  | .done => True
  | .send _ next => ∀ count, (next count).Quiet
  | .post _ _ next | .setSwitch _ _ _ next | .note _ next => next.Quiet
  | .postAwaited _ _ completion next => completion.Quiet ∧ next.Quiet
  | .arrival .. => False

namespace Engine

open Relation

/-- An engine goes on from another one, and so many commands are dispatched. -/
def Dispatches (e : Engine) (count : Nat) (e' : Engine) : Prop :=
  ∃ es, e.history.GoesOn es e'.history ∧ es.countP Effect.dispatches = count

/-- Nothing is dispatched. -/
theorem Dispatches.refl (e : Engine) : e.Dispatches 0 e := ⟨[], .refl _, rfl⟩

/-- What is dispatched first and what is dispatched then are counted together. -/
theorem Dispatches.trans {e e' e'' : Engine} {count more : Nat} (first : e.Dispatches count e')
    (second : e'.Dispatches more e'') : e.Dispatches (count + more) e'' := by
  obtain ⟨es, on, rfl⟩ := first
  obtain ⟨es', on', rfl⟩ := second
  exact ⟨es ++ es', on.trans on', List.countP_append⟩

variable {names : List String} {e e' : Engine}

/-- No act dispatches a command. -/
theorem acts_dispatch (acts : ReflTransGen Act e e') (sound : Sound ⟨names, e⟩) :
    e.Dispatches 0 e' := by
  induction acts with
  | refl => exact .refl e
  | tail acts act ih =>
    obtain ⟨es, touches⟩ := act.touches (sound_of_moves (moves_of_acts acts names) sound)
    refine ih.trans ⟨es, touches.on, List.countP_eq_zero.mpr fun entry he => ?_⟩
    rw [(touches.stay entry he).2.2]
    exact Bool.false_ne_true

/-- Dispatching a command is counted once, whatever its reaction brings. -/
theorem dispatch_counts (sound : Sound ⟨names, e⟩) {name : String} {command : Command}
    (taken : e.takeCommand name = some (command, e')) :
    e.Dispatches 1 (e'.dispatch name command) := by
  have before := sound.dispatch taken
  have same : e'.history = e.history := by
    obtain ⟨-, rfl⟩ := takeCommand_eq taken
    rfl
  have first : e.Dispatches 1
      { e' with history := e'.history.record (.dispatched name command) } :=
    ⟨[.dispatched name command], same ▸ .record _ rfl, rfl⟩
  exact first.trans (acts_dispatch (react_acts _ _) before)

/-- Emptying an inbox counts the commands that it dispatches. -/
theorem drainInbox_counts (sound : Sound ⟨names, e⟩) {name : String} {bound count : Nat}
    (drained : drainInbox name bound e = some (count, e')) : e.Dispatches count e' := by
  induction bound generalizing e count with
  | zero => cases drained
  | succ bound ih =>
    rcases drainInbox_succ drained with ⟨-, rfl, rfl⟩ | ⟨command, e₁, more, taken, rest, rfl⟩
    · exact .refl _
    · rw [Nat.add_comm]
      exact (dispatch_counts sound taken).trans
        (ih (sound_of_moves (dispatch_moves taken) sound) rest)

/-- Emptying several inboxes counts the commands that it dispatches. -/
theorem drainInboxes_counts (sound : Sound ⟨names, e⟩) {order : List String}
    {bound count : Nat} (drained : drainInboxes bound order e = some (count, e')) :
    e.Dispatches count e' := by
  induction order generalizing e count with
  | nil =>
    obtain ⟨rfl, rfl⟩ := Prod.mk.inj (Option.some.inj drained)
    exact .refl e
  | cons name rest ih =>
    obtain ⟨first, e₁, more, one, others, rfl⟩ := drainInboxes_cons drained
    exact (drainInbox_counts sound one).trans
      (ih (sound_of_moves (drainInbox_moves one).1 sound) others)

/-- Removing the connections whose peers said goodbye counts the commands that it
dispatches. -/
theorem applyDepartures_counts (sound : Sound ⟨[], e⟩) {commandBound bound count : Nat}
    (applied : applyDepartures commandBound bound e = some (count, e')) :
    e.Dispatches count e' := by
  induction bound generalizing e count with
  | zero => cases applied
  | succ bound ih =>
    rcases applyDepartures_succ applied with
      ⟨rfl, rfl⟩ | ⟨name, rest, first, e₁, more, departures, one, others, rfl⟩
    · exact .refl _
    · have parted := sound.depart departures
      obtain ⟨moves, drained⟩ := drainInbox_moves one
      have left := (sound_of_moves moves parted).remove drained
      have removed : e₁.Dispatches 0 (e₁.remove name) :=
        ⟨[.left name], .record _ rfl, rfl⟩
      have rest_counts := removed.trans (ih left others)
      rw [Nat.zero_add] at rest_counts
      exact (drainInbox_counts parted one).trans rest_counts

/-- A poll counts the commands that it dispatches. -/
theorem poll_counts (sound : Sound ⟨[], e⟩) {bound count : Nat}
    (polled : e.poll bound = some (count, e')) : e.Dispatches count e' := by
  obtain ⟨first, e₁, more, drained, departed, rfl⟩ := poll_eq_some polled
  exact (drainInboxes_counts sound drained).trans
    (applyDepartures_counts (sound_of_moves (drainInboxes_moves drained) sound) departed)

section Keeps

variable {p : List String → Engine → Prop} (dispatch : ∀ {names : List String} {e e' : Engine}
  {name : String} {command : Command}, e.takeCommand name = some (command, e') → p names e →
    p names (e'.dispatch name command))
include dispatch

/-- Emptying an inbox keeps what every dispatch keeps. -/
theorem drainInbox_keeps {name : String} {bound count : Nat}
    (drained : drainInbox name bound e = some (count, e')) (holds : p names e) : p names e' := by
  induction bound generalizing e count with
  | zero => cases drained
  | succ bound ih =>
    rcases drainInbox_succ drained with ⟨-, -, rfl⟩ | ⟨command, e₁, more, taken, rest, -⟩
    · exact holds
    · exact ih rest (dispatch taken holds)

/-- Emptying several inboxes keeps what every dispatch keeps. -/
theorem drainInboxes_keeps {order : List String} {bound count : Nat}
    (drained : drainInboxes bound order e = some (count, e')) (holds : p names e) :
    p names e' := by
  induction order generalizing e count with
  | nil =>
    obtain ⟨-, rfl⟩ := Prod.mk.inj (Option.some.inj drained)
    exact holds
  | cons name rest ih =>
    obtain ⟨first, e₁, more, one, others, -⟩ := drainInboxes_cons drained
    exact ih others (drainInbox_keeps dispatch one holds)

variable (depart : ∀ {names rest : List String} {e : Engine} {name : String},
  e.departures = name :: rest → p names e → p (name :: names) { e with departures := rest })
  (remove : ∀ {names : List String} {e : Engine} {name : String}, e.takeCommand name = none →
    p (name :: names) e → p names (e.remove name))
include depart remove

/-- Removing the connections whose peers said goodbye keeps what every dispatch and every removal
keeps. -/
theorem applyDepartures_keeps {commandBound bound count : Nat}
    (applied : applyDepartures commandBound bound e = some (count, e')) (holds : p names e) :
    p names e' := by
  induction bound generalizing e count with
  | zero => cases applied
  | succ bound ih =>
    rcases applyDepartures_succ applied with
      ⟨-, rfl⟩ | ⟨name, rest, first, e₁, more, departures, one, others, -⟩
    · exact holds
    · obtain ⟨-, drained⟩ : ReflTransGen Move ⟨names, _⟩ ⟨names, e₁⟩ ∧
        e₁.takeCommand name = none := drainInbox_moves one
      exact ih others (remove drained (drainInbox_keeps dispatch one (depart departures holds)))

/-- A poll keeps what every dispatch and every removal keeps. -/
theorem poll_keeps {bound count : Nat} (polled : e.poll bound = some (count, e'))
    (holds : p [] e) : p [] e' := by
  obtain ⟨first, e₁, more, drained, departed, -⟩ := poll_eq_some polled
  exact applyDepartures_keeps dispatch depart remove departed
    (drainInboxes_keeps dispatch drained holds)

end Keeps

/-- A larger bound empties an inbox just as well. -/
theorem drainInbox_mono {name : String} {bound more : Nat} {result : Nat × Engine}
    (drained : drainInbox name bound e = some result) (le : bound ≤ more) :
    drainInbox name more e = some result := by
  induction bound generalizing e more result with
  | zero => cases drained
  | succ bound ih =>
    obtain ⟨more, rfl⟩ : ∃ k, more = k + 1 := ⟨more - 1, by omega⟩
    rw [drainInbox] at drained ⊢
    split at drained
    · exact drained
    · obtain ⟨last, rest, rfl⟩ := Option.map_eq_some_iff.mp drained
      rw [ih rest (by omega)]
      rfl

/-- A larger bound empties several inboxes just as well. -/
theorem drainInboxes_mono {order : List String} {bound more : Nat} {result : Nat × Engine}
    (drained : drainInboxes bound order e = some result) (le : bound ≤ more) :
    drainInboxes more order e = some result := by
  induction order generalizing e result with
  | nil => exact drained
  | cons name rest ih =>
    rw [drainInboxes] at drained ⊢
    obtain ⟨first, one, drained⟩ := Option.bind_eq_some_iff.mp drained
    obtain ⟨second, others, answer⟩ := Option.bind_eq_some_iff.mp drained
    rw [drainInbox_mono one le]
    simp only [Option.bind_eq_bind, Option.bind_some]
    rw [ih others]
    exact answer

/-- Larger bounds remove the connections whose peers said goodbye just as well. -/
theorem applyDepartures_mono {commandBound moreCommands bound more : Nat}
    {result : Nat × Engine} (applied : applyDepartures commandBound bound e = some result)
    (commands : commandBound ≤ moreCommands) (le : bound ≤ more) :
    applyDepartures moreCommands more e = some result := by
  induction bound generalizing e more result with
  | zero => cases applied
  | succ bound ih =>
    obtain ⟨more, rfl⟩ : ∃ k, more = k + 1 := ⟨more - 1, by omega⟩
    rw [applyDepartures] at applied ⊢
    split at applied
    · exact applied
    · obtain ⟨first, one, applied⟩ := Option.bind_eq_some_iff.mp applied
      obtain ⟨second, others, answer⟩ := Option.bind_eq_some_iff.mp applied
      rw [drainInbox_mono one commands]
      simp only [Option.bind_eq_bind, Option.bind_some]
      rw [ih others (by omega)]
      exact answer

/-- A poll that answers gives the same answer with every larger bound. -/
theorem poll_mono {bound more : Nat} {result : Nat × Engine}
    (polled : e.poll bound = some result) (le : bound ≤ more) : e.poll more = some result := by
  obtain ⟨first, drained, polled⟩ := Option.bind_eq_some_iff.mp polled
  obtain ⟨second, departed, answer⟩ := Option.bind_eq_some_iff.mp polled
  rw [poll, drainInboxes_mono drained le]
  simp only [Option.bind_eq_bind, Option.bind_some]
  rw [applyDepartures_mono departed le le]
  exact answer

/-- An inbox from which nothing is dispatched was empty. -/
theorem drainInbox_none {name : String} {bound : Nat}
    (drained : drainInbox name bound e = some (0, e')) : e' = e := by
  cases bound with
  | zero => cases drained
  | succ bound =>
    rcases drainInbox_succ drained with ⟨-, -, rfl⟩ | ⟨command, e₁, more, -, -, some⟩
    · rfl
    · cases some

/-- Inboxes from which nothing is dispatched were empty. -/
theorem drainInboxes_none {order : List String} {bound : Nat}
    (drained : drainInboxes bound order e = some (0, e')) : e' = e := by
  induction order with
  | nil => exact (Prod.mk.inj (Option.some.inj drained)).2.symm
  | cons name rest ih =>
    obtain ⟨first, e₁, more, one, others, sum⟩ := drainInboxes_cons drained
    obtain ⟨rfl, rfl⟩ := Nat.add_eq_zero_iff.mp sum.symm
    obtain rfl := drainInbox_none one
    exact ih others

/-- Where nothing is dispatched, departures only remove connections. -/
theorem mem_applyDepartures_of_none {commandBound bound : Nat}
    (applied : applyDepartures commandBound bound e = some (0, e')) :
    ∀ c ∈ e'.registry, c ∈ e.registry := by
  induction bound generalizing e with
  | zero => cases applied
  | succ bound ih =>
    rcases applyDepartures_succ applied with
      ⟨-, rfl⟩ | ⟨name, rest, first, e₁, more, -, one, others, sum⟩
    · exact fun c hc => hc
    · obtain ⟨rfl, rfl⟩ := Nat.add_eq_zero_iff.mp sum.symm
      obtain rfl := drainInbox_none one
      exact fun c hc => List.mem_of_mem_eraseP (ih others c hc)

/-- A poll that dispatches nothing only removes connections. -/
theorem mem_poll_of_none {bound : Nat} (polled : e.poll bound = some (0, e')) :
    ∀ c ∈ e'.registry, c ∈ e.registry := by
  obtain ⟨first, e₁, more, drained, departed, sum⟩ := poll_eq_some polled
  obtain ⟨rfl, rfl⟩ := Nat.add_eq_zero_iff.mp sum.symm
  obtain rfl := drainInboxes_none drained
  exact mem_applyDepartures_of_none departed

/-- The handlers of an engine never let a peer send anything. -/
def Quiet (e : Engine) : Prop := ∀ entry ∈ e.handlers, ∀ command, (entry.2 command).Quiet

/-- What a poll may leave of an engine when peers send nothing meanwhile: no inbox is longer, and
no other peer says goodbye. -/
structure Shrinks (e e' : Engine) : Prop where
  inboxes : ∀ i' ∈ e'.inboxes, ∃ i ∈ e.inboxes, i'.commands.length ≤ i.commands.length
  departures : e'.departures = e.departures
  handlers : e'.handlers = e.handlers

namespace Shrinks

variable {e e' e'' : Engine}

/-- Nothing changes that a poll depends on. -/
theorem of_eq (inboxes : e'.inboxes = e.inboxes) (departures : e'.departures = e.departures)
    (handlers : e'.handlers = e.handlers) : e.Shrinks e' :=
  ⟨fun i hi => ⟨i, inboxes ▸ hi, Nat.le_refl _⟩, departures, handlers⟩

/-- One thing is done after another. -/
theorem trans (first : e.Shrinks e') (second : e'.Shrinks e'') : e.Shrinks e'' := by
  refine ⟨?_, second.departures.trans first.departures, second.handlers.trans first.handlers⟩
  intro k hk
  obtain ⟨j, hj, le'⟩ := second.inboxes k hk
  obtain ⟨i, hi, le⟩ := first.inboxes j hj
  exact ⟨i, hi, Nat.le_trans le' le⟩

/-- No inbox grows. -/
theorem length_lt (shrinks : e.Shrinks e') {bound : Nat}
    (short : ∀ i ∈ e.inboxes, i.commands.length < bound) :
    ∀ i ∈ e'.inboxes, i.commands.length < bound := by
  intro i hi
  obtain ⟨j, hj, le⟩ := shrinks.inboxes i hi
  exact Nat.lt_of_le_of_lt le (short j hj)

/-- The handlers stay quiet. -/
theorem quiet (shrinks : e.Shrinks e') (quiet : e.Quiet) : e'.Quiet := by
  unfold Quiet
  rw [shrinks.handlers]
  exact quiet

end Shrinks

/-- A quiet reaction leaves what waits as it is. -/
theorem react_of_quiet {reaction : Reaction} (quiet : reaction.Quiet) (e : Engine) :
    (react reaction e).inboxes = e.inboxes ∧ (react reaction e).departures = e.departures ∧
      (react reaction e).handlers = e.handlers := by
  induction reaction generalizing e with
  | done => exact ⟨rfl, rfl, rfl⟩
  | send command next ih => exact ih _ (quiet _) _
  | post event fields next ih =>
    rw [react]
    have after := ih quiet
    split
    · exact after _
    · exact after _
  | postAwaited event fields completion next ihCompletion ih =>
    obtain ⟨quiet, quiet'⟩ := quiet
    rw [react]
    split
    · obtain ⟨inboxes, departures, handlers⟩ := ih quiet' _
      obtain ⟨inboxes', departures', handlers'⟩ := ihCompletion quiet _
      exact ⟨inboxes.trans inboxes', departures.trans departures', handlers.trans handlers'⟩
    · exact ih quiet' _
  | setSwitch name active logical next ih => exact ih quiet _
  | note note next ih => exact ih quiet _
  | arrival choice bytes next ih => exact quiet.elim

private theorem quiet_ofCommand {handler? : String → Option Handler}
    (quiet : ∀ name handler, handler? name = some handler → ∀ command, (handler command).Quiet)
    (command : Command) : (Reaction.ofCommand handler? command).Quiet := by
  unfold Reaction.ofCommand
  split
  · trivial
  · trivial
  · trivial
  · trivial
  · next name callback params _ =>
    unfold Reaction.ofTrigger
    cases callback with
    | none => trivial
    | some callback => exact ⟨fun _ => trivial, trivial⟩
  · next c _ =>
    split
    · next handler found => exact quiet c.name handler found c
    · exact fun _ => trivial
  · trivial
  · exact fun _ => trivial
  · exact fun _ => trivial

/-- Dispatching a command leaves what waits as it is when the handlers are quiet. -/
theorem dispatch_of_quiet (quiet : e.Quiet) (name : String) (command : Command) :
    (e.dispatch name command).inboxes = e.inboxes ∧
      (e.dispatch name command).departures = e.departures ∧
      (e.dispatch name command).handlers = e.handlers := by
  refine react_of_quiet (quiet_ofCommand (fun name handler found => ?_) command) _
  obtain ⟨before, after, split, -⟩ := List.lookup_eq_some_iff.mp found
  exact quiet (name, handler) (split ▸ List.mem_append_right _ List.mem_cons_self)

/-- The commands that wait in the inbox of a connection. -/
def waiting (e : Engine) (name : String) : List Command :=
  match e.inboxes.find? (·.connection = name) with
  | some inbox => inbox.commands
  | none => []

/-- Nothing can be taken when nothing waits. -/
theorem takeCommand_eq_none {name : String} (empty : e.waiting name = []) :
    e.takeCommand name = none := by
  unfold waiting at empty
  unfold takeCommand
  cases found : e.inboxes.find? (·.connection = name) with
  | none => rfl
  | some inbox =>
    rw [found] at empty
    obtain ⟨connection, commands⟩ := inbox
    obtain rfl : commands = [] := empty
    rfl

/-- The command that waits first is taken, and the others wait on. -/
theorem exists_takeCommand {name : String} {command : Command} {rest : List Command}
    (first : e.waiting name = command :: rest) :
    ∃ e', e.takeCommand name = some (command, e') ∧ e'.waiting name = rest ∧
      e.Shrinks e' := by
  unfold waiting at first
  unfold takeCommand
  cases found : e.inboxes.find? (·.connection = name) with
  | none =>
    rw [found] at first
    cases first
  | some inbox =>
    rw [found] at first
    obtain ⟨connection, commands⟩ := inbox
    obtain rfl : commands = command :: rest := first
    have named := List.find?_some found
    refine ⟨_, rfl, ?_, ⟨fun i hi => ?_, rfl, rfl⟩⟩
    · have same : ((fun i : Inbox => decide (i.connection = name)) ∘ fun i =>
          if i.connection = name then { i with commands := i.commands.tail } else i) =
            fun i => decide (i.connection = name) := by
        funext i
        simp only [Function.comp_apply]
        split <;> rfl
      unfold waiting
      rw [List.find?_map, same, found]
      simp only [Option.map_some]
      rw [if_pos (of_decide_eq_true named)]
      rfl
    · obtain ⟨j, hj, rfl⟩ := List.mem_map.mp hi
      refine ⟨j, hj, ?_⟩
      split
      · rw [List.length_tail]
        omega
      · exact Nat.le_refl _

/-- What waits in one inbox is no more than what waits in the longest. -/
theorem length_waiting_lt {bound : Nat} (positive : 0 < bound)
    (short : ∀ i ∈ e.inboxes, i.commands.length < bound) (name : String) :
    (e.waiting name).length < bound := by
  unfold waiting
  cases found : e.inboxes.find? (·.connection = name) with
  | none => exact positive
  | some inbox => exact short inbox (List.mem_of_find?_eq_some found)

/-- An inbox is emptied within a bound that exceeds what waits in it when the handlers are
quiet. -/
theorem drainInbox_of_quiet (quiet : e.Quiet) {name : String} {bound : Nat}
    (short : (e.waiting name).length < bound) :
    ∃ count e', drainInbox name bound e = some (count, e') ∧ e.Shrinks e' := by
  induction bound generalizing e with
  | zero => exact absurd short (Nat.not_lt_zero _)
  | succ bound ih =>
    rw [drainInbox]
    cases held : e.waiting name with
    | nil =>
      rw [takeCommand_eq_none held]
      exact ⟨0, e, rfl, .of_eq rfl rfl rfl⟩
    | cons command rest =>
      obtain ⟨e₁, taken, left, shrinks⟩ := exists_takeCommand held
      obtain ⟨inboxes, departures, handlers⟩ :=
        dispatch_of_quiet (shrinks.quiet quiet) name command
      have calm := shrinks.trans (.of_eq inboxes departures handlers)
      have shorter : ((e₁.dispatch name command).waiting name).length < bound := by
        unfold waiting at left ⊢
        rw [inboxes, left]
        rw [held, List.length_cons] at short
        omega
      obtain ⟨count, e', drained, further⟩ := ih (calm.quiet quiet) shorter
      rw [taken]
      simp only [drained]
      exact ⟨count + 1, e', rfl, calm.trans further⟩

/-- Inboxes are emptied within a bound that exceeds what waits in each of them when the
handlers are quiet. -/
theorem drainInboxes_of_quiet (quiet : e.Quiet) {bound : Nat} (positive : 0 < bound)
    (short : ∀ i ∈ e.inboxes, i.commands.length < bound) (order : List String) :
    ∃ count e', drainInboxes bound order e = some (count, e') ∧ e.Shrinks e' := by
  induction order generalizing e with
  | nil => exact ⟨0, e, rfl, .of_eq rfl rfl rfl⟩
  | cons name rest ih =>
    obtain ⟨count, e₁, drained, shrinks⟩ :=
      drainInbox_of_quiet quiet (length_waiting_lt positive short name)
    obtain ⟨more, e', others, further⟩ :=
      ih (shrinks.quiet quiet) (shrinks.length_lt short)
    rw [drainInboxes, drained]
    simp only [Option.bind_eq_bind, Option.bind_some]
    rw [others]
    exact ⟨count + more, e', rfl, shrinks.trans further⟩

/-- The connections whose peers said goodbye are removed within a bound that exceeds their
number when the handlers are quiet. -/
theorem applyDepartures_of_quiet (quiet : e.Quiet) {commandBound bound : Nat}
    (positive : 0 < commandBound) (short : ∀ i ∈ e.inboxes, i.commands.length < commandBound)
    (few : e.departures.length < bound) :
    ∃ count e', applyDepartures commandBound bound e = some (count, e') := by
  induction bound generalizing e with
  | zero => exact absurd few (Nat.not_lt_zero _)
  | succ bound ih =>
    rw [applyDepartures]
    cases held : e.departures with
    | nil => exact ⟨0, e, rfl⟩
    | cons name rest =>
      rw [held, List.length_cons] at few
      let parting : Engine := { e with departures := rest }
      have calm : parting.Quiet := quiet
      obtain ⟨count, e₁, drained, shrinks⟩ :=
        drainInbox_of_quiet calm (length_waiting_lt positive short name)
      have left : e₁.Shrinks (e₁.remove name) := by
        refine ⟨fun i hi => ⟨i, List.mem_of_mem_eraseP hi, Nat.le_refl _⟩, rfl, rfl⟩
      have after := shrinks.trans left
      have fewer : (e₁.remove name).departures.length < bound := by
        rw [after.departures]
        exact Nat.lt_of_succ_lt_succ few
      obtain ⟨more, e', others⟩ := ih (after.quiet calm) (after.length_lt short) fewer
      simp only [Option.bind_eq_bind]
      rw [show drainInbox name commandBound { e with departures := rest } = _ from drained]
      simp only [Option.bind_some]
      rw [others]
      exact ⟨count + more, e', rfl⟩

/-- A poll answers when its bound exceeds what waits in each inbox and the number of peers
that said goodbye, and the handlers are quiet. -/
theorem poll_of_quiet (quiet : e.Quiet) {bound : Nat}
    (short : ∀ i ∈ e.inboxes, i.commands.length < bound) (few : e.departures.length < bound) :
    ∃ count e', e.poll bound = some (count, e') := by
  have positive : 0 < bound := by omega
  obtain ⟨count, e₁, drained, shrinks⟩ :=
    drainInboxes_of_quiet quiet positive short (e.inboxes.map (·.connection))
  obtain ⟨more, e', departed⟩ := applyDepartures_of_quiet (shrinks.quiet quiet) positive
    (shrinks.length_lt short) (shrinks.departures ▸ few)
  rw [poll, drained]
  simp only [Option.bind_eq_bind, Option.bind_some]
  rw [departed]
  exact ⟨count + more, e', rfl⟩

end Engine

end Backbox
