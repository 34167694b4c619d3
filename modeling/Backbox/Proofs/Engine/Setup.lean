import Backbox.Proofs.Engine.Poll
import Backbox.Proofs.Engine.Run

/-!
# What an engine is set up with

The tables of an engine, its handlers, the letter case of values and the way to reach peers do not
change by what happens to the engine. Only registering adds a handler, and only shutting down is on
record there. A handler that was registered once is found ever after.
-/

namespace Backbox.Engine

open Relation

/-- An engine as it is set up, without its connections and what has happened to them. -/
def setup (e : Engine) : Engine :=
  { e with
    registry := []
    inboxes := []
    departures := []
    started := false
    pending := []
    history := .start }

variable {e e' : Engine}

/-- No act changes how an engine is set up. -/
theorem Act.setup (act : e.Act e') : e'.setup = e.setup := by
  cases act with
  | receive session bytes =>
    unfold Engine.receive
    split <;> rfl
  | send | tell | setPending => rfl

/-- No chain of acts changes how an engine is set up. -/
theorem setup_acts (acts : ReflTransGen Act e e') : e'.setup = e.setup := by
  induction acts with
  | refl => rfl
  | tail _ act ih => exact act.setup.trans ih

/-- A reaction does not change how an engine is set up. -/
theorem setup_react (reaction : Reaction) (e : Engine) : (react reaction e).setup = e.setup :=
  setup_acts (react_acts reaction e)

/-- Polling does not change how an engine is set up. -/
theorem setup_poll {bound count : Nat} (polled : e.poll bound = some (count, e')) :
    e'.setup = e.setup := by
  refine poll_keeps (p := fun _ e' => e'.setup = e.setup) (fun taken same => ?_)
    (fun _ same => same) (fun _ same => same) polled rfl
  obtain ⟨-, rfl⟩ := takeCommand_eq taken
  exact (setup_react _ _).trans same

private theorem setup_complete {index : Nat} {event : String}
    (completed : e.complete index = some (event, e')) : e'.setup = e.setup := by
  unfold complete at completed
  split at completed
  · cases completed
  · obtain ⟨-, rfl⟩ := Prod.mk.inj (Option.some.inj completed)
    split
    · exact setup_react _ _
    · rfl

private theorem setup_orRefuse {result : Except EngineFault Engine}
    (same : ∀ e', result = .ok e' → e'.setup = e.setup) :
    (e.orRefuse result).2.setup = e.setup := by
  cases result with
  | ok e' => exact same e' rfl
  | error fault => rfl

/-- Only registering and shutting down change how an engine is set up. -/
theorem setup_handle (e : Engine) {request : Request}
    (other : ∀ name handler, request ≠ .register name handler) (running : request ≠ .shutdown) :
    (e.handle request).2.setup = e.setup := by
  cases request with
  | configure batch =>
    refine setup_orRefuse fun e' configured => ?_
    obtain ⟨-, -, rfl⟩ := configure_eq configured
    rfl
  | start => exact setup_orRefuse fun e' started => start_eq started ▸ rfl
  | register name handler => exact absurd rfl (other name handler)
  | sendMapped event fields player => exact setup_acts (sendMapped_acts ..)
  | changePlayerVariable name value prevValue change =>
    exact setup_acts (changePlayerVariable_acts ..)
  | poll bound =>
    rw [handle]
    split
    · next polled => exact setup_poll polled
    · rfl
  | complete index =>
    rw [handle]
    split
    · next completed => exact setup_complete completed
    · rfl
  | receive session bytes => exact (Act.receive session bytes).setup
  | loseSession session =>
    change (e.loseSession session).setup = e.setup
    rw [Engine.loseSession]
    split <;> rfl
  | send | wait => rfl
  | shutdown => exact absurd rfl running

/-- A handler is registered under a name in its normal form, if the engine does not handle this
command itself and no handler does. -/
theorem register_ok_iff {name : String} {handler : Handler} : e.register name handler = .ok e' ↔
    Command.normalName name ∉ reservedCommands ∧
      e.handlers.lookup (Command.normalName name) = none ∧
      e' = { e with handlers := (Command.normalName name, handler) :: e.handlers } := by
  unfold register
  generalize Command.normalName name = command
  by_cases reserved : command ∈ reservedCommands
  · simp [reserved]
  · simp only [reserved, if_false, not_false_iff, true_and]
    cases e.handlers.lookup command with
    | none => exact ⟨fun same => ⟨rfl, (Except.ok.inj same).symm⟩, fun same => same.2 ▸ rfl⟩
    | some known => simp

/-- Short of shutting down, only the handlers change. -/
theorem exists_setup_handle (e : Engine) {request : Request} (running : request ≠ .shutdown) :
    ∃ handlers, (e.handle request).2.setup = { e.setup with handlers := handlers } := by
  cases request with
  | register name handler =>
    rw [handle]
    cases registered : e.register name handler with
    | error fault => exact ⟨e.handlers, rfl⟩
    | ok e' => exact ⟨e'.handlers, register_eq registered ▸ rfl⟩
  | _ => exact ⟨e.handlers, setup_handle e (by simp) running⟩

/-- Only registering changes the handlers. -/
theorem handlers_handle (e : Engine) {request : Request}
    (other : ∀ name handler, request ≠ .register name handler) :
    (e.handle request).2.handlers = e.handlers := by
  by_cases down : request = .shutdown
  · subst down
    rw [handle, shutdown]
    split <;> rfl
  · exact (congrArg Engine.handlers (setup_handle e other down) :)

/-- A handler that is registered stays so, whatever is requested. -/
theorem lookup_handle {name : String} {handler : Handler}
    (known : e.handlers.lookup name = some handler) (request : Request) :
    (e.handle request).2.handlers.lookup name = some handler := by
  cases request with
  | register other new =>
    rw [handle]
    cases registered : e.register other new with
    | error fault => exact known
    | ok e' =>
      obtain ⟨-, free, rfl⟩ := register_ok_iff.mp registered
      have differ : (name == Command.normalName other) = false := by
        rw [beq_eq_false_iff_ne]
        rintro rfl
        rw [free] at known
        cases known
      change List.lookup name ((_, new) :: e.handlers) = _
      rw [List.lookup_cons, differ]
      exact known
  | _ =>
    rw [handlers_handle e (by simp)]
    exact known

/-- A handler that is registered stays so in every run. -/
theorem lookup_run {name : String} {handler : Handler} {e : Engine}
    (known : e.handlers.lookup name = some handler) (requests : List Request) :
    (e.run requests).handlers.lookup name = some handler := by
  induction requests generalizing e with
  | nil => exact known
  | cons request rest ih => exact ih (lookup_handle known request)

/-- A handler that was registered is the one of its name in every run from then on. -/
theorem lookup_of_registered {name : String} {handler : Handler}
    (accepted : e.register name handler = .ok e') (later : List Request) :
    (e.run (.register name handler :: later)).handlers.lookup (Command.normalName name) =
      some handler := by
  have first : (e.handle (.register name handler)).2 = e' := by rw [handle, accepted]; rfl
  have known : e'.handlers.lookup (Command.normalName name) = some handler := by
    obtain ⟨-, -, rfl⟩ := register_ok_iff.mp accepted
    exact List.lookup_cons_self
  rw [run, List.foldl_cons, first]
  exact lookup_run known later

/-- After a registration that is not refused, its handler is the one of its name, and the others are
as before. -/
theorem lookup_handle_register_iff {given name : String} {new handler : Handler} :
    (e.handle (.register given new)).2.handlers.lookup name = some handler ↔
      e.handlers.lookup name = some handler ∨
        new = handler ∧ (e.handle (.register given new)).1 = .done ∧
          Command.normalName given = name := by
  have handled : e.handle (.register given new) = e.orRefuse (e.register given new) := rfl
  rw [handled]
  cases registered : e.register given new with
  | error fault => simp [orRefuse]
  | ok e' =>
    obtain ⟨-, free, rfl⟩ := register_ok_iff.mp registered
    change List.lookup name ((Command.normalName given, new) :: e.handlers) = _ ↔ _
    by_cases own : name = Command.normalName given
    · subst own
      rw [List.lookup_cons_self, free]
      simp [orRefuse]
    · rw [List.lookup_cons, beq_eq_false_iff_ne.mpr own]
      simp [Ne.symm own]

/-- After a request, the handler of a name is the one that it had before, or the one that the request
registers under a name of this normal form. -/
theorem lookup_handle_iff {request : Request} {name : String} {handler : Handler} :
    (e.handle request).2.handlers.lookup name = some handler ↔
      e.handlers.lookup name = some handler ∨ ∃ given, request = .register given handler ∧
        (e.handle request).1 = .done ∧ Command.normalName given = name := by
  cases request with
  | register given new =>
    rw [lookup_handle_register_iff]
    refine or_congr_right ⟨?_, ?_⟩
    · rintro ⟨rfl, accepted, its⟩
      exact ⟨given, rfl, accepted, its⟩
    · rintro ⟨_, same, accepted, its⟩
      obtain ⟨rfl, rfl⟩ := Request.register.inj same
      exact ⟨rfl, accepted, its⟩
  | _ => simp [handlers_handle e]

/-- In every run, the handler of a name is the one that it had at first, or one that was registered
under a name of this normal form and not refused. -/
theorem lookup_run_iff {e : Engine} {requests : List Request} {name : String} {handler : Handler} :
    (e.run requests).handlers.lookup name = some handler ↔
      e.handlers.lookup name = some handler ∨ ∃ before given later,
        requests = before ++ .register given handler :: later ∧
          ((e.run before).handle (.register given handler)).1 = .done ∧
            Command.normalName given = name := by
  induction requests generalizing e with
  | nil => simp [run]
  | cons request rest ih =>
    rw [run, List.foldl_cons, ← run, ih, lookup_handle_iff, or_assoc]
    refine or_congr_right ⟨?_, ?_⟩
    · rintro (⟨given, rfl, accepted, its⟩ | ⟨before, given, later, rfl, accepted, its⟩)
      · exact ⟨[], given, rest, rfl, accepted, its⟩
      · exact ⟨request :: before, given, later, rfl, accepted, its⟩
    · rintro ⟨before, given, later, split, accepted, its⟩
      cases before with
      | nil =>
        obtain ⟨rfl, -⟩ := List.cons.inj split
        exact .inl ⟨given, rfl, accepted, its⟩
      | cons first before =>
        obtain ⟨rfl, rest⟩ := List.cons.inj split
        exact .inr ⟨before, given, later, rest, accepted, its⟩

/-- No handler is registered for a command that the engine handles itself. -/
theorem lookup_reserved_handle {name : String} (reserved : name ∈ reservedCommands)
    (free : e.handlers.lookup name = none) (request : Request) :
    (e.handle request).2.handlers.lookup name = none := by
  cases request with
  | register other handler =>
    rw [handle]
    cases registered : e.register other handler with
    | error fault => exact free
    | ok e' =>
      obtain ⟨unreserved, -, rfl⟩ := register_ok_iff.mp registered
      have differ : (name == Command.normalName other) = false := by
        rw [beq_eq_false_iff_ne]
        exact fun same => unreserved (same ▸ reserved)
      change List.lookup name ((_, handler) :: e.handlers) = _
      rw [List.lookup_cons, differ]
      exact free
  | _ =>
    rw [handlers_handle e (by simp)]
    exact free

/-- No handler is registered for a command that the engine handles itself, in any run. -/
theorem lookup_reserved_run {name : String} {e : Engine} (reserved : name ∈ reservedCommands)
    (free : e.handlers.lookup name = none) (requests : List Request) :
    (e.run requests).handlers.lookup name = none := by
  induction requests generalizing e with
  | nil => exact free
  | cons request rest ih => exact ih (lookup_reserved_handle reserved free request)

/-- The letter case of values stays the same. -/
theorem valueCase_handle (e : Engine) (request : Request) :
    (e.handle request).2.valueCase = e.valueCase := by
  by_cases down : request = .shutdown
  · subst down
    rw [handle, shutdown]
    split <;> rfl
  · obtain ⟨handlers, same⟩ := exists_setup_handle e down
    exact (congrArg Engine.valueCase same :)

/-- The letter case of values stays the same in every run. -/
theorem valueCase_run (e : Engine) (requests : List Request) :
    (e.run requests).valueCase = e.valueCase := by
  induction requests generalizing e with
  | nil => rfl
  | cons request rest ih => exact (ih _).trans (valueCase_handle e request)

end Backbox.Engine
