import Backbox.Proofs.Command.RoundTrip
import Backbox.Proofs.Engine.Deed
import Backbox.Proofs.Engine.Held

/-!
# Triggers that ask for a callback

A trigger posts an event with its parameters, but its name and its callback. If it has a callback,
one reply is sent when the host completes the event, to the connections that there are then: a
trigger of this name with the same parameters. Meanwhile the event is held, and nothing else is sent
because of it.
-/

namespace Backbox

namespace Command

/-- The trigger that answers a trigger has the parameters that this one passes on, with the callback
for its name. -/
theorem callbackTrigger_eq {params : Params}
    (lowered : ∀ pair ∈ params.toList, Text.lower pair.1 = pair.1) (callback : String) :
    callbackTrigger callback params = ⟨"trigger", params.insert "name" callback⟩ := by
  have trigger : normalName "trigger" = "trigger" := by decide
  have name : Text.lower "name" = "name" := by decide
  rw [callbackTrigger, ofPairs_toList lowered, withParam, trigger, name]

/-- What is written of the trigger that answers a trigger reads as it is, where no part of it is
empty. -/
theorem ofWire_callbackTrigger {params : Params}
    (lowered : ∀ pair ∈ params.toList, Text.lower pair.1 = pair.1)
    (full : ∀ pair ∈ params.toList, pair.1 ≠ "" ∧ pair.2 ≠ "") {callback : String}
    (valued : callback ≠ "") : ofWire .preserve (callbackTrigger callback params).toWire =
      ⟨"trigger", params.insert "name" callback⟩ := by
  have normal : (callbackTrigger callback params).IsNormal := (isNormal_ofPairs ..).withParam ..
  rw [callbackTrigger_eq lowered] at normal ⊢
  have mark : '?' ∉ "trigger".toList := by decide
  refine ofWire_toWire normal mark (fun pair mem => ?_) fun _ _ => rfl
  rcases KeyMap.mem_insertEntry mem with rfl | mem
  · exact ⟨by simp, valued⟩
  · exact full pair mem

end Command

namespace Engine

variable {e e' : Engine}

/-- A reply, if there is one, is handed to every connection that there is, and nothing else is
done. -/
inductive Answered (e : Engine) : Option Command → Engine → Prop where
  | silent : Answered e none e
  | replied {reply : Command} {registry : List Connection} {history : History}
      (handed : Connection.Handed reply.toWire e.registry e.history registry history) :
    Answered e (some reply) { e with registry := registry, history := history }

/-- A reply that is sent is handed to every connection. -/
theorem answered_reply (e : Engine) (reply : Command) :
    Answered e (some reply) (react (.reply reply) e) := by
  obtain ⟨registry, history, sent, handed⟩ := handed_send e reply
  change Answered e (some reply) (e.send reply).2
  rw [sent]
  exact .replied handed

/-- Completing an event whose completion is a reply, or nothing, answers with it. -/
theorem complete_answered {place : Nat} {name : String} {fields : Params} {reply : Option Command}
    (held : e.pending[place]? = some ⟨name, fields, reply.map .reply⟩) :
    ∃ e', e.complete place = some (name, e') ∧
      Answered (e.withPending (e.pending.eraseIdx place)) reply e' := by
  rw [complete_eq, held]
  refine ⟨_, rfl, ?_⟩
  cases reply with
  | none => exact .silent
  | some reply => exact answered_reply _ reply

/-- An event that is posted is answered at once, or held behind the others. -/
theorem carryOut_post (c : Command) (e : Engine) (event : String) (fields : Params)
    (reply : Option Command) :
    let posted := { e with history := e.history.tell (.post event fields reply.isSome) }
    (e.completesAtOnce = true → Answered posted reply
      (Deed.carryOut c e (.post event fields reply))) ∧
    (e.completesAtOnce = false → Deed.carryOut c e (.post event fields reply) =
      posted.withPending (e.pending ++ [⟨event, fields, reply.map .reply⟩])) := by
  intro posted
  rw [Deed.carryOut]
  constructor
  · intro atOnce
    rw [if_pos atOnce]
    cases reply with
    | none => exact .silent
    | some reply => exact answered_reply _ reply
  · intro holds
    rw [if_neg (by simp [holds])]
    rfl

/-- A trigger with a name posts an event of its name with the other parameters as fields, but the
callback. Whatever is done later, step by step as in every run, the event is held until the host
completes it; with any other event in its place, the same would be done, and no other event is held
there. When the host completes it, one reply is handed to each connection that there is then, if a
callback was asked for, and nothing is sent otherwise; an event that is held no more was completed
so, once. The reply reads as a trigger that has the callback for its name, and the fields of the
event as its other parameters. -/
theorem callback_of_trigger (e : Engine) (connection : String) (valueCase : ValueCase)
    (message : String) {name : String}
    (trigger : (Command.ofWire valueCase message).name = "trigger")
    (named : (Command.ofWire valueCase message).params.get? "name" = some name) :
    let c := Command.ofWire valueCase message
    let rest := Deed.passedOn c.params
    let reply := (c.params.get? "callback").map (callbackTrigger · rest)
    let event : HostEvent := ⟨"trigger_" ++ name, rest, reply.map .reply⟩
    let posted : Engine := { e with
      history := (e.history.record (.dispatched connection c)).tell
        (.post event.name rest reply.isSome) }
    let holding := posted.withPending (e.pending ++ [event])
    (∀ key, rest.get? key =
      if key = "name" ∨ key = "callback" then none else c.params.get? key) ∧
    (∀ callback, c.params.get? "callback" = some callback → ∃ read,
      Command.ofWire .preserve (callbackTrigger callback rest).toWire = ⟨"trigger", read⟩ ∧
      ∀ key, read.get? key = if key = "name" then some callback
        else if key = "callback" then none else c.params.get? key) ∧
    (e.completesAtOnce = true → Answered posted reply (e.dispatch connection c)) ∧
    (e.completesAtOnce = false → e.dispatch connection c = holding) ∧
    ∀ completed e', Steps holding completed e' →
      (∀ place, heldAt e.pending.length completed = some place →
        (∀ other, Steps (posted.withPending (e.pending ++ [other])) completed
          (e'.withPending (e'.pending.set place other))) ∧
        (∀ older, heldAt older completed = some place → older = e.pending.length) ∧
        ∃ e'', e'.complete place = some (event.name, e'') ∧
          Answered (e'.withPending (e'.pending.eraseIdx place)) reply e'') ∧
      (heldAt e.pending.length completed = none → ∃ before place later e₁ e₂,
        completed = before ++ place :: later ∧ Steps holding before e₁ ∧
        heldAt e.pending.length before = some place ∧
        e₁.complete place = some (event.name, e₂) ∧
        Answered (e₁.withPending (e₁.pending.eraseIdx place)) reply e₂ ∧ Steps e₂ later e') := by
  intro c rest reply event posted holding
  have read := Command.isNormal_ofWire valueCase message
  have rest_mem {pair : String × String} (mem : pair ∈ rest.toList) : pair ∈ c.params.toList :=
    Deed.mem_of_mem_passedOn mem
  have passed := Deed.get?_passedOn c.params
  have due : Deed.Due (e.handlers.lookup ·) c (.post event.name rest reply) := .post trigger named
  obtain ⟨atOnce, holds⟩ := carryOut_post c
    { e with history := e.history.record (.dispatched connection c) } event.name rest reply
  rw [dispatch_of_due read due connection]
  have bound : e.pending.length < holding.pending.length := by simp [holding, withPending]
  have last : holding.pending[e.pending.length]? = some event := List.getElem?_concat_length
  have answered {completed : List Nat} {e' : Engine} (steps : Steps holding completed e')
      {place : Nat} (held : heldAt e.pending.length completed = some place) :
      ∃ e'', e'.complete place = some (event.name, e'') ∧
          Answered (e'.withPending (e'.pending.eraseIdx place)) reply e'' :=
    complete_answered ((steps.held bound held).1.trans last)
  refine ⟨passed, fun callback asked => ?_, atOnce, holds, fun completed e' steps =>
    ⟨fun place held => ⟨fun other => ?_, fun older its => heldAt_inj its held,
      answered steps held⟩, fun gone => ?_⟩⟩
  · have valued : callback ≠ "" := (Command.full_ofWire (KeyMap.mem_toList_iff.mpr asked)).1.2
    refine ⟨_, Command.ofWire_callbackTrigger (fun pair mem => read.keys_eq pair (rest_mem mem))
      (fun pair mem => (Command.full_ofWire (rest_mem mem)).1) valued, fun key => ?_⟩
    rw [KeyMap.get?_insert, passed]
    by_cases own : key = "name" <;> simp [own]
  · have replaced : holding.pending.set e.pending.length other = e.pending ++ [other] := by
      simp [holding, withPending]
    rw [← replaced]
    exact (steps.held bound held).2 other
  · obtain ⟨before, place, later, e₁, e₂, name', rfl, first, held, done, last⟩ :=
      steps.completed_of_heldAt gone
    obtain ⟨e₂', done', answers⟩ := answered first held
    obtain ⟨rfl, rfl⟩ := Prod.mk.inj (Option.some.inj (done'.symm.trans done))
    exact ⟨before, place, later, e₁, e₂', rfl, first, held, done', answers, last⟩

/-- The connection over which a trigger came leaves before its event is completed. The reply goes to
the connection that was added since. -/
theorem callback_of_trigger_departed :
    let e := (new fun _ _ _ => true).run [.configure [("a", .ofHost "host")], .start]
    let trigger := Command.ofWire .preserve "trigger?name=ball&callback=done&player=1"
    let later := [Request.receive 0 (Text.bytes "goodbye\n"), .poll 9,
      .configure [("b", .ofHost "other")]]
    let e' := (e.dispatch "a" trigger).run later
    trigger.name = "trigger" ∧ trigger.params.get? "name" = some "ball" ∧
      e'.registry.map (·.name) = ["b"] ∧
      e'.history.journal.filterMap Effect.accepted? = [] ∧
      ∃ e'', e'.complete 0 = some ("trigger_ball", e'') ∧
        Answered (e'.withPending (e'.pending.eraseIdx 0))
          (some (callbackTrigger "done" (Deed.passedOn trigger.params))) e'' ∧
        e''.history.journal.filterMap Effect.accepted? =
          [("b", "trigger?name=done&player=1")] := by
  intro e trigger later e'
  have isTrigger : trigger.name = "trigger" := by decide +kernel
  have named : trigger.params.get? "name" = some "ball" := by decide +kernel
  have asked : trigger.params.get? "callback" = some "done" := by decide +kernel
  have holds : e.completesAtOnce = false := by decide +kernel
  have place : heldAt e.pending.length ((e.dispatch "a" trigger).completions later) = some 0 := by
    decide +kernel
  obtain ⟨-, -, -, held, steps⟩ := callback_of_trigger e "a" .preserve _ isTrigger named
  have run := steps_run (e.dispatch "a" trigger) later
  rw [held holds] at run
  obtain ⟨-, -, e'', done, answered⟩ := (steps _ _ run).1 0 place
  rw [← held holds] at done answered
  have reply : (trigger.params.get? "callback").map
      (callbackTrigger · (Deed.passedOn trigger.params)) =
        some (callbackTrigger "done" (Deed.passedOn trigger.params)) := by rw [asked]; rfl
  have heard : ∀ result ∈ e'.complete 0, result.2.history.journal.filterMap Effect.accepted? =
      [("b", "trigger?name=done&player=1")] := by decide +kernel
  exact ⟨isTrigger, named, by decide +kernel, by decide +kernel, e'', done, reply ▸ answered,
    heard _ done⟩

end Engine

end Backbox
