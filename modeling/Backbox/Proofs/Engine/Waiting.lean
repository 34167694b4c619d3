import Mathlib.Data.List.Find
import Backbox.Proofs.Engine.Poll

/-!
# Inboxes are queues

Commands join an inbox at its end and are dispatched from its front. What a poll dispatches for a
connection therefore begins with what waited for it, in order. Where one command waits and nothing
arrives meanwhile, a poll dispatches this command and does nothing else.
-/

namespace Backbox

/-- The command that an entry says was dispatched for the connection of a name. -/
def Effect.commandFor? (name : String) : Effect → Option Command
  | .dispatched connection command => if connection = name then some command else none
  | .configured _ | .left _ | .dialled _ | .accepted .. | .wrote .. | .closed .. | .read ..
  | .framed .. | .host _ => none

/-- Where nothing is dispatched, no command is. -/
theorem Effect.commandFor?_of_not_dispatches {name : String} {entry : Effect}
    (other : entry.dispatches = false) : entry.commandFor? name = none := by
  cases entry with
  | dispatched => cases other
  | configured | left | dialled | accepted | wrote | closed | read | framed | host => rfl

namespace Engine

open Relation

variable {names : List String} {e e' e'' : Engine} {name other : String} {command : Command}

-- The names of inboxes stay when what is in one of them changes.
private theorem find?_hand (hand : List Command → List Command) (inboxes : List Inbox) :
    (inboxes.map fun i => if i.connection = other then { i with commands := hand i.commands }
      else i).find? (·.connection = name) = (inboxes.find? (·.connection = name)).map fun i =>
        if i.connection = other then { i with commands := hand i.commands } else i := by
  rw [List.find?_map]
  refine congrArg (Option.map _) (List.find?_congr fun i _ => ?_)
  simp only [Function.comp_apply]
  split <;> rfl

/-- Nothing changes for an inbox when another one does. -/
theorem waiting_of_ne (hand : List Command → List Command) (differ : name ≠ other) :
    ({ e with inboxes := e.inboxes.map fun i =>
      if i.connection = other then { i with commands := hand i.commands } else i } :
        Engine).waiting name = e.waiting name := by
  unfold waiting
  rw [find?_hand]
  cases found : e.inboxes.find? (·.connection = name) with
  | none => rfl
  | some i =>
    have named : i.connection = name := of_decide_eq_true (List.find?_some found :)
    rw [Option.map_some, if_neg (named ▸ differ)]

/-- What waits in an inbox of a connection is changed with it. -/
theorem waiting_of_mem (hand : List Command → List Command)
    (mem : name ∈ e.inboxes.map (·.connection)) :
    ({ e with inboxes := e.inboxes.map fun i =>
      if i.connection = name then { i with commands := hand i.commands } else i } :
        Engine).waiting name = hand (e.waiting name) := by
  obtain ⟨i, hi, its⟩ := List.mem_map.mp mem
  unfold waiting
  rw [find?_hand]
  cases found : e.inboxes.find? (·.connection = name) with
  | none => exact absurd (decide_eq_true its) (List.find?_eq_none.mp found i hi)
  | some j =>
    have named : j.connection = name := of_decide_eq_true (List.find?_some found :)
    rw [Option.map_some, if_pos named]

/-- Nothing waits where there is no inbox. -/
theorem waiting_of_notMem (absent : name ∉ e.inboxes.map (·.connection)) :
    e.waiting name = [] := by
  have missing : e.inboxes.find? (·.connection = name) = none :=
    List.find?_eq_none.mpr fun i hi its => absent (List.mem_map.mpr ⟨i, hi, of_decide_eq_true its⟩)
  rw [waiting, missing]

/-- What an act brings in waits behind what waited. -/
theorem Act.waiting (act : e.Act e') (name : String) :
    ∃ more, e'.waiting name = e.waiting name ++ more := by
  cases act with
  | send | tell | setPending => exact ⟨[], (List.append_nil _).symm⟩
  | receive session bytes =>
    rw [Engine.receive]
    split
    · exact ⟨[], (List.append_nil _).symm⟩
    · next c found =>
      by_cases own : name = c.name
      · subst own
        by_cases mem : c.name ∈ e.inboxes.map (·.connection)
        · exact ⟨_, waiting_of_mem (e := e)
            (· ++ (c.receive e.valueCase bytes e.history).commands.toList) mem⟩
        · refine ⟨[], ?_⟩
          rw [waiting_of_notMem mem, waiting_of_notMem]
          · rfl
          · refine fun its => mem ?_
            obtain ⟨i, hi, same⟩ := List.mem_map.mp its
            obtain ⟨j, hj, rfl⟩ := List.mem_map.mp hi
            refine List.mem_map.mpr ⟨j, hj, Eq.trans ?_ same⟩
            split <;> rfl
      · exact ⟨[], (waiting_of_ne (e := e)
          (· ++ (c.receive e.valueCase bytes e.history).commands.toList) own).trans
            (List.append_nil _).symm⟩

/-- The command that is taken was the first that waited, and nothing changes for others. -/
theorem waiting_of_takeCommand (taken : e.takeCommand other = some (command, e')) :
    e.waiting other = command :: e'.waiting other ∧
      ∀ name, name ≠ other → e'.waiting name = e.waiting name := by
  constructor
  · cases held : e.waiting other with
    | nil =>
      rw [takeCommand_eq_none held] at taken
      cases taken
    | cons first rest =>
      obtain ⟨e₁, first_taken, left, -⟩ := exists_takeCommand held
      obtain ⟨rfl, rfl⟩ := Prod.mk.inj (Option.some.inj (first_taken.symm.trans taken))
      rw [left]
  · intro name differ
    obtain ⟨-, rfl⟩ := takeCommand_eq taken
    exact waiting_of_ne List.tail differ

/-- An inbox is served in order: what is dispatched from it, with what waits in it then, is what
waited and what joined it since. -/
def Serves (e : Engine) (name : String) (e' : Engine) : Prop :=
  ∃ es more, e.history.GoesOn es e'.history ∧
    es.filterMap (·.commandFor? name) ++ e'.waiting name = e.waiting name ++ more

/-- Nothing is dispatched and nothing joins. -/
theorem Serves.refl (e : Engine) (name : String) : e.Serves name e := ⟨[], [], .refl _, by simp⟩

/-- An inbox that is served further is served. -/
theorem Serves.trans (first : e.Serves name e') (second : e'.Serves name e'') :
    e.Serves name e'' := by
  obtain ⟨es, more, on, before⟩ := first
  obtain ⟨es', more', on', after⟩ := second
  refine ⟨es ++ es', more ++ more', on.trans on', ?_⟩
  rw [List.filterMap_append, List.append_assoc, after, ← List.append_assoc, before,
    List.append_assoc]

/-- Acts serve no inbox, but commands may join it. -/
theorem acts_serve (acts : ReflTransGen Act e e') (sound : Sound ⟨names, e⟩) (name : String) :
    e.Serves name e' := by
  obtain ⟨es, on, none⟩ := acts_dispatch acts sound
  have undispatched : es.filterMap (·.commandFor? name) = [] :=
    List.filterMap_eq_nil_iff.mpr fun entry he => Effect.commandFor?_of_not_dispatches
      (Bool.eq_false_iff.mpr (List.countP_eq_zero.mp none entry he))
  suffices joined : ∃ more, e'.waiting name = e.waiting name ++ more by
    obtain ⟨more, joined⟩ := joined
    exact ⟨es, more, on, by rw [undispatched, List.nil_append, joined]⟩
  clear on undispatched none
  induction acts with
  | refl => exact ⟨[], (List.append_nil _).symm⟩
  | tail _ act ih =>
    obtain ⟨more, first⟩ := ih
    obtain ⟨further, second⟩ := act.waiting name
    exact ⟨more ++ further, by rw [second, first, List.append_assoc]⟩

/-- Dispatching the next command of any inbox serves every inbox in order. -/
theorem dispatch_serves (sound : Sound ⟨names, e⟩)
    (taken : e.takeCommand other = some (command, e')) (name : String) :
    e.Serves name (e'.dispatch other command) := by
  have parted := sound.dispatch taken
  obtain ⟨front, others⟩ := waiting_of_takeCommand taken
  have same : e'.history = e.history := by
    obtain ⟨-, rfl⟩ := takeCommand_eq taken
    rfl
  have first : e.Serves name
      { e' with history := e'.history.record (.dispatched other command) } := by
    refine ⟨[.dispatched other command], [], same ▸ .record _ rfl, ?_⟩
    change _ ++ e'.waiting name = _
    by_cases own : name = other
    · simp [Effect.commandFor?, own, front]
    · simp [Effect.commandFor?, Ne.symm own, others name own]
  exact first.trans (acts_serve (react_acts _ _) parted name)

/-- Emptying an inbox serves every inbox in order. -/
theorem drainInbox_serves (sound : Sound ⟨names, e⟩) {bound count : Nat}
    (drained : drainInbox other bound e = some (count, e')) (name : String) :
    e.Serves name e' := by
  induction bound generalizing e count with
  | zero => cases drained
  | succ bound ih =>
    rcases drainInbox_succ drained with ⟨-, -, rfl⟩ | ⟨command, e₁, more, taken, rest, -⟩
    · exact .refl _ name
    · exact (dispatch_serves sound taken name).trans
        (ih (sound_of_moves (dispatch_moves taken) sound) rest)

/-- Emptying several inboxes dispatches what waits in each of them, before anything that joins it
meanwhile. -/
theorem drainInboxes_serves (sound : Sound ⟨names, e⟩) {order : List String} {bound count : Nat}
    (drained : drainInboxes bound order e = some (count, e')) (mem : name ∈ order) :
    ∃ es more, e.history.GoesOn es e'.history ∧
      es.filterMap (·.commandFor? name) = e.waiting name ++ more := by
  induction order generalizing e count with
  | nil => cases mem
  | cons next rest ih =>
    obtain ⟨first, e₁, more, one, others, -⟩ := drainInboxes_cons drained
    obtain ⟨moves, empty⟩ : ReflTransGen Move ⟨names, e⟩ ⟨names, e₁⟩ ∧
      e₁.takeCommand next = none := drainInbox_moves one
    obtain ⟨es, joined, on, served⟩ := drainInbox_serves sound one name
    have sound₁ := sound_of_moves moves sound
    rcases List.mem_cons.mp mem with rfl | mem
    · -- this inbox is empty now, whatever the others bring
      have none : e₁.waiting name = [] := by
        cases held : e₁.waiting name with
        | nil => rfl
        | cons command rest =>
          obtain ⟨e₂, taken, -⟩ := exists_takeCommand held
          rw [empty] at taken
          cases taken
      obtain ⟨es', on', -⟩ := drainInboxes_counts sound₁ others
      refine ⟨es ++ es', joined ++ es'.filterMap (·.commandFor? name), on.trans on', ?_⟩
      rw [none, List.append_nil] at served
      rw [List.filterMap_append, served, List.append_assoc]
    · obtain ⟨es', joined', on', served'⟩ := ih sound₁ others mem
      refine ⟨es ++ es', joined ++ joined', on.trans on', ?_⟩
      rw [List.filterMap_append, served', ← List.append_assoc, served, List.append_assoc]

/-- What a poll dispatches for a connection begins with what waited for it, in order. -/
theorem poll_serves (sound : Sound ⟨[], e⟩) {bound count : Nat}
    (polled : e.poll bound = some (count, e')) (mem : name ∈ e.inboxes.map (·.connection)) :
    ∃ es more, e.history.GoesOn es e'.history ∧
      es.filterMap (·.commandFor? name) = e.waiting name ++ more := by
  obtain ⟨first, e₁, more, drained, departed, -⟩ := poll_eq_some polled
  obtain ⟨es, joined, on, served⟩ := drainInboxes_serves sound drained mem
  obtain ⟨es', on', -⟩ :=
    applyDepartures_counts (sound_of_moves (drainInboxes_moves drained) sound) departed
  refine ⟨es ++ es', joined ++ es'.filterMap (·.commandFor? name), on.trans on', ?_⟩
  rw [List.filterMap_append, served, List.append_assoc]

/-- Nothing is dispatched where nothing waits. -/
theorem drainInboxes_of_idle (idle : ∀ name, e.waiting name = []) (bound : Nat)
    (order : List String) : drainInboxes (bound + 1) order e = some (0, e) := by
  induction order with
  | nil => rfl
  | cons name rest ih =>
    rw [drainInboxes, drainInbox, takeCommand_eq_none (idle name)]
    simp only [Option.bind_eq_bind, Option.bind_some]
    rw [ih]
    rfl

/-- Where one command waits and nothing arrives during its reaction, a poll dispatches it and does
nothing else. -/
theorem poll_of_single (mem : name ∈ e.inboxes.map (·.connection))
    (own : e.waiting name = [command]) (others : ∀ n, n ≠ name → e.waiting n = [])
    (parted : e.departures = [])
    (quiet : (Reaction.ofCommand (e.handlers.lookup ·) command).Quiet) (bound : Nat) :
    ∃ e₁, e.takeCommand name = some (command, e₁) ∧
      e.poll (bound + 2) = some (1, e₁.dispatch name command) := by
  obtain ⟨e₁, taken, left, shrinks⟩ := exists_takeCommand own
  refine ⟨e₁, taken, ?_⟩
  have still := (waiting_of_takeCommand taken).2
  rw [← shrinks.handlers] at quiet
  obtain ⟨inboxes, departures, -⟩ := react_of_quiet quiet
    { e₁ with history := e₁.history.record (.dispatched name command) }
  have idle : ∀ n, (e₁.dispatch name command).waiting n = [] := by
    intro n
    rw [waiting, dispatch, inboxes]
    by_cases its : n = name
    · exact its ▸ left
    · exact (still n its).trans (others n its)
  have one : drainInbox name (bound + 2) e = some (1, e₁.dispatch name command) := by
    rw [drainInbox, taken]
    simp only
    rw [drainInbox, takeCommand_eq_none (idle name)]
    rfl
  have all (order : List String) (here : name ∈ order) :
      drainInboxes (bound + 2) order e = some (1, e₁.dispatch name command) := by
    induction order with
    | nil => cases here
    | cons next rest ih =>
      rw [drainInboxes]
      by_cases its : name = next
      · subst its
        rw [one]
        simp only [Option.bind_eq_bind, Option.bind_some]
        rw [drainInboxes_of_idle idle]
        rfl
      · rw [drainInbox, takeCommand_eq_none (others next (Ne.symm its))]
        simp only [Option.bind_eq_bind, Option.bind_some]
        rw [ih ((List.mem_cons.mp here).resolve_left its)]
        rfl
  have none : (e₁.dispatch name command).departures = [] :=
    departures.trans (shrinks.departures.trans parted)
  rw [poll, all _ mem]
  simp only [Option.bind_eq_bind, Option.bind_some]
  rw [applyDepartures, none]
  rfl

end Engine

end Backbox
