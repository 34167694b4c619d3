import Backbox.Proofs.Connection.Budget
import Backbox.Proofs.Engine.Attempt
import Backbox.Proofs.Engine.Lifecycle
import Backbox.Proofs.Engine.Poll

/-!
# Every peer is called within its limit

In every run, no peer is called more often than its limit allows since it was last reached, and
a connection is given up exactly when the limit is used up. Who is given up is not called again,
and accepts nothing. The time of the last failure is noted until the next call.
-/

namespace Backbox.Engine

open Relation

/-- Whether a request may make attempts. Starting and sending do, and so may the reactions that
a poll or a completion carries out. -/
def mayAttempt (e : Engine) : Request → Bool
  | .start | .send _ => true
  | .sendMapped event fields player => (e.sendMapped event fields player).1
  | .changePlayerVariable name value prevValue change =>
    (e.changePlayerVariable name value prevValue change).1
  | .poll bound => (e.poll bound).any (0 < ·.1)
  | .complete index => e.pending[index]?.any (·.completion.isSome)
  | .configure _ | .register .. | .receive .. | .loseSession _ | .wait _ | .shutdown => false

/-- The attempts of every connection agree with the calls on record, all of which its limit
left. -/
structure Budgets (e : Engine) : Prop where
  connections : ∀ c ∈ e.registry, c.Budgeted e.history
  thrifty : Thrifty e.history.journal

variable {m m' : Moment} {e e' : Engine} {es : List Effect}

/-- Nobody was called yet. -/
theorem budgets_of_fresh (fresh : e.Fresh) : Budgets e where
  connections := by simp [fresh.registry]
  thrifty := by
    rw [fresh.history]
    intro dial older older_suffix
    cases List.suffix_nil.mp older_suffix

namespace Budgets

/-- Everybody stays within the limits while nobody is added or called. -/
theorem still (budgets : Budgets e) (on : e.history.GoesOn es e'.history)
    (registry : ∀ c ∈ e'.registry, c ∈ e.registry)
    (untried : ∀ entry ∈ es, entry.configures = false ∧ entry.dials = false) : Budgets e' where
  connections c hc :=
    have same := History.tries_of_untried on fun entry he _ => untried entry he
    (budgets.connections c (registry c hc)).keep same rfl rfl rfl rfl And.intro
  thrifty := by
    rw [on.journal]
    exact budgets.thrifty.append fun entry he => (untried entry he).2

/-- Everybody stays within the limits when something is done to one connection. -/
theorem touched {names : List String} (budgets : Budgets e) (sound : Sound ⟨names, e⟩)
    (touches : e.Touches es e') : Budgets e' := by
  cases touches with
  | told on registry host =>
    refine budgets.still on (fun c hc => registry ▸ hc) fun entry he => ?_
    obtain ⟨call, rfl⟩ := host entry he
    exact ⟨rfl, rfl⟩
  | @changed front back d d' split steps registry =>
    have course := steps.course
    have hd : d ∈ e.registry := split ▸ mem_changed.mpr (.inl rfl)
    obtain ⟨changed, thrifty⟩ := steps.budgeted (budgets.connections d hd) budgets.thrifty
    refine ⟨fun c hc => ?_, thrifty⟩
    rw [registry] at hc
    rcases mem_changed.mp hc with rfl | hc
    · exact changed
    · obtain ⟨mem, other⟩ := sound.others split c hc
      have same := History.tries_of_untried course.on fun entry he named =>
        absurd (course.named entry he c.name named) other
      exact (budgets.connections c mem).keep same rfl rfl rfl rfl And.intro

/-- Every shift keeps everybody within the limits. -/
theorem shifted (budgets : Budgets m.engine) (sound : Sound m) (shift : Shift m es m') :
    Budgets m'.engine := by
  cases shift with
  | touched touches => exact budgets.touched sound touches
  | dispatched name command entry on registry =>
    refine budgets.still on (fun c hc => registry ▸ hc) ?_
    simp [entry, Effect.configures, Effect.dials]
  | added name settings running new entry on registry =>
    subst entry
    refine ⟨fun c hc => ?_, ?_⟩
    · rw [registry] at hc
      rcases List.mem_append.mp hc with hc | hc
      · have same := History.tries_of_untried on fun entry he named => by
          rw [List.mem_singleton.mp he] at named
          exact absurd (Option.some.inj named).symm (new c hc)
        exact (budgets.connections c hc).keep same rfl rfl rfl rfl And.intro
      · rw [List.mem_singleton.mp hc]
        refine Connection.budgeted_of_untried ?_ rfl rfl fun _ => ⟨rfl, rfl⟩
        rw [History.tries_of_goesOn on]
        simp [Effect.tally, Connection.new]
    · rw [on.journal]
      exact budgets.thrifty.append (by simp [Effect.dials])
  | removed mem departed entry on registry =>
    refine budgets.still on (fun c hc => ((registry c).mp hc).1) ?_
    simp [entry, Effect.configures, Effect.dials]

end Budgets

/-- Every chain of moves keeps everybody within the limits. -/
theorem budgets_of_moves (moves : ReflTransGen Move m m') (sound : Sound m)
    (budgets : Budgets m.engine) : Budgets m'.engine := by
  induction moves with
  | refl => exact budgets
  | tail moves move ih =>
    have sound := sound_of_moves moves sound
    obtain ⟨es, shift⟩ := move.shift sound
    exact ih.shifted sound shift

/-- Everybody is within the limits after every run. -/
theorem budgets_of_run {e₀ : Engine} (fresh : e₀.Fresh) (requests : List Request) :
    Budgets (e₀.run requests) :=
  budgets_of_moves (run_moves e₀ requests) (sound_of_fresh fresh) (budgets_of_fresh fresh)

/-- The connections after a shift were there before it, with the same failures noted, unless
they were added or tried. -/
theorem Shift.exists_origin (shift : Shift m es m') {c' : Connection}
    (hc : c' ∈ m'.engine.registry) (untried : ∀ entry ∈ es, entry.Untried c'.name) :
    ∃ c ∈ m.engine.registry, c.name = c'.name ∧ c'.lastFailure = c.lastFailure := by
  cases shift with
  | touched touches =>
    cases touches with
    | told _ registry => exact ⟨c', registry ▸ hc, rfl, rfl⟩
    | changed split steps registry =>
      rw [registry] at hc
      rcases mem_changed.mp hc with rfl | hc
      · have course := steps.course
        refine ⟨_, split ▸ mem_changed.mpr (.inl rfl), course.name_eq.symm, ?_⟩
        refine steps.lastFailure_eq fun entry he => (untried entry he).dials_eq fun n named => ?_
        exact (course.named entry he n named).trans course.name_eq.symm
      · exact ⟨c', split ▸ mem_changed.mpr (.inr hc), rfl, rfl⟩
  | dispatched _ _ _ _ registry => exact ⟨c', registry ▸ hc, rfl, rfl⟩
  | added name settings _ _ entry _ registry =>
    rw [registry] at hc
    rcases List.mem_append.mp hc with hc | hc
    · exact ⟨c', hc, rfl, rfl⟩
    · obtain rfl := List.mem_singleton.mp hc
      obtain ⟨here, -⟩ := untried (.configured name) (by simp [entry]) rfl
      cases here
  | removed _ _ _ _ registry => exact ⟨c', ((registry c').mp hc).1, rfl, rfl⟩

/-- The connections after some moves were there before them, with the same failures noted,
unless they were added or tried. -/
theorem exists_origin_of_moves (moves : ReflTransGen Move m m') (sound : Sound m) :
    ∃ es, m.engine.history.GoesOn es m'.engine.history ∧ ∀ c' ∈ m'.engine.registry,
      (∀ entry ∈ es, entry.Untried c'.name) →
        ∃ c ∈ m.engine.registry, c.name = c'.name ∧ c'.lastFailure = c.lastFailure := by
  induction moves with
  | refl => exact ⟨[], .refl _, fun c hc _ => ⟨c, hc, rfl, rfl⟩⟩
  | tail moves move ih =>
    obtain ⟨es, on, origin⟩ := ih
    have sound := sound_of_moves moves sound
    obtain ⟨more, shift⟩ := move.shift sound
    refine ⟨es ++ more, on.trans shift.on, fun c hc untried => ?_⟩
    obtain ⟨d, hd, name, same⟩ := shift.exists_origin hc fun entry he =>
      untried entry (List.mem_append_right _ he)
    obtain ⟨c', hc', name', same'⟩ := origin d hd fun entry he =>
      name ▸ untried entry (List.mem_append_left _ he)
    exact ⟨c', hc', name'.trans name, same.trans same'⟩

-- A request that is refused changes nothing.
private theorem mem_orRefuse {result : Except EngineFault Engine} {c : Connection}
    (hc : c ∈ (e.orRefuse result).2.registry) :
    c ∈ e.registry ∨ ∃ e', result = .ok e' ∧ c ∈ e'.registry := by
  cases result with
  | ok e' => exact .inr ⟨e', rfl, hc⟩
  | error fault => exact .inl hc

-- A connection that was added is not tried yet.
private theorem mem_configure {batch : List (String × ConnectionSettings)} {c : Connection}
    (configured : e.configure batch = .ok e') (hc : c ∈ e'.registry) :
    c ∈ e.registry ∨ c.state = .disconnected := by
  obtain ⟨-, -, rfl⟩ := configure_eq configured
  refine (List.mem_append.mp hc).imp id fun new => ?_
  obtain ⟨entry, -, rfl⟩ := List.mem_map.mp new
  rfl

-- Completing an event that nothing follows is only noted.
private theorem registry_complete {index : Nat} {event : String}
    (completed : e.complete index = some (event, e'))
    (last : e.pending[index]?.any (·.completion.isSome) = false) : e'.registry = e.registry := by
  unfold complete at completed
  split at completed
  · cases completed
  · next pending =>
    obtain ⟨-, rfl⟩ := Prod.mk.inj (Option.some.inj completed)
    rw [pending] at last
    split
    · next follows => simp [follows] at last
    · rfl

-- What is heard or lost on a session disconnects the connection that holds it at most.
private theorem exists_of_changed {front back : List Connection} {c c' d : Connection}
    (split : e.registry = front ++ c :: back) (hd : d ∈ front ++ c' :: back)
    (name : c'.name = c.name) (still : c'.state = c.state ∨ c'.state = .disconnected)
    (up : d.state = .givingUp) : ∃ d' ∈ e.registry, d'.name = d.name ∧ d'.state = .givingUp := by
  rw [split]
  rcases mem_changed.mp hd with rfl | hd
  · refine ⟨c, mem_changed.mpr (.inl rfl), name.symm, ?_⟩
    rw [up] at still
    exact (still.resolve_right (by decide)).symm
  · exact ⟨d, mem_changed.mpr (.inr hd), rfl, up⟩

/-- A request that makes no attempts gives nobody up. -/
theorem exists_givingUp_of_handle (sound : Sound ⟨[], e⟩) {request : Request}
    (quiet : e.mayAttempt request = false) {c : Connection}
    (hc : c ∈ (e.handle request).2.registry) (up : c.state = .givingUp) :
    ∃ d ∈ e.registry, d.name = c.name ∧ d.state = .givingUp := by
  have same (hc : c ∈ e.registry) : ∃ d ∈ e.registry, d.name = c.name ∧ d.state = .givingUp :=
    ⟨c, hc, rfl, up⟩
  cases request with
  | start | send => cases quiet
  | sendMapped event fields player =>
    simp only [mayAttempt, handle, sendMapped] at quiet hc
    split at quiet
    · cases quiet
    · next none =>
      rw [none] at hc
      exact same hc
  | changePlayerVariable name value prevValue change =>
    simp only [mayAttempt, handle, changePlayerVariable] at quiet hc
    split at quiet
    · cases quiet
    · next none =>
      rw [none] at hc
      exact same hc
  | poll bound =>
    rw [handle] at hc
    split at hc
    · next count e' polled =>
      rw [mayAttempt, polled] at quiet
      obtain rfl : count = 0 := by simpa using quiet
      exact same (mem_poll_of_none polled c hc)
    · exact same hc
  | complete index =>
    rw [handle] at hc
    split at hc
    · next completed => exact same (registry_complete completed quiet ▸ hc)
    · exact same hc
  | configure batch =>
    rw [handle] at hc
    rcases mem_orRefuse hc with hc | ⟨e', configured, hc⟩
    · exact same hc
    · rcases mem_configure configured hc with hc | new
      · exact same hc
      · rw [new] at up
        cases up
  | register name handler =>
    rw [handle] at hc
    rcases mem_orRefuse hc with hc | ⟨e', registered, hc⟩
    · exact same hc
    · rw [register_eq registered] at hc
      exact same hc
  | receive session bytes =>
    change c ∈ (e.receive session bytes).registry at hc
    rcases sound.receive_eq session bytes with
      lost | ⟨front, back, d, es, split, -, steps, -, still, heard⟩
    · exact same (lost ▸ hc)
    · rw [heard] at hc
      exact exists_of_changed split hc steps.course.name_eq still up
  | loseSession session =>
    change c ∈ (e.loseSession session).registry at hc
    rcases sound.loseSession_eq session with
      past | ⟨front, back, d, es, split, steps, -, -, state, lost⟩
    · exact same (past ▸ hc)
    · rw [lost] at hc
      exact exists_of_changed split hc steps.course.name_eq (.inr state) up
  | wait => exact same hc
  | shutdown =>
    change c ∈ e.shutdown.registry at hc
    unfold shutdown at hc
    split at hc
    · exact same hc
    · have closed : c.state = .closed :=
        forall_overConnections (p := (·.state = .closed)) Connection.state_close _ _ c hc
      rw [closed] at up
      cases up

/-- In every run, every call was made while the limit left one, the calls since a peer was last
reached are counted, and they use up a limit exactly when the connection is given up. A limit
of zero is used up by the first start or send, and a request that makes no attempts gives nobody
up. Who is given up is neither called again nor accepts anything, and between two calls the time
of the last failure is kept. Whatever the engine, starting and sending call exactly those peers
whose attempt is due, each of them once. -/
theorem attempts_within_budget_of_run {e₀ : Engine} (fresh : e₀.Fresh)
    (requests more : List Request) :
    let e := e₀.run requests
    let h := e.history
    let later := e₀.run (requests ++ more)
    Thrifty h.journal ∧
    (∀ c ∈ e.registry, c.attemptsMade = min (h.tries c.name) AttemptLimit.maxCount ∧
      (c.lastFailure.isSome ↔ 0 < h.tries c.name) ∧
      (c.settings.attempts = .unbounded → c.state ≠ .givingUp) ∧
      ∀ n, c.settings.attempts = .bounded n → h.tries c.name ≤ n.toNat ∧
        (0 < n.toNat → c.state ≠ .closed → (c.state = .givingUp ↔ h.tries c.name = n.toNat))) ∧
    (∀ e', e.Attempts e' → ∀ c ∈ e'.registry, c.state ≠ .closed →
      ∀ n, c.settings.attempts = .bounded n →
        (c.state = .givingUp ↔ e'.history.tries c.name = n.toNat)) ∧
    (∀ request, e.mayAttempt request = false → ∀ c ∈ (e.handle request).2.registry,
      c.state = .givingUp → ∃ d ∈ e.registry, d.name = c.name ∧ d.state = .givingUp) ∧
    (∃ es, h.GoesOn es later.history ∧
      (∀ c ∈ e.registry, c.state = .givingUp → (∀ entry ∈ es, entry.Spares c.name) ∧
        ∃ c' ∈ later.registry, c'.name = c.name ∧ ∀ message h', (c'.send message h').1 = false) ∧
      ∀ c' ∈ later.registry, (∀ entry ∈ es, entry.Untried c'.name) →
        ∃ c ∈ e.registry, c.name = c'.name ∧ c'.lastFailure = c.lastFailure) ∧
    ∀ x x' : Engine, x.Attempts x' →
      List.Forall₂ (Connection.TriedAt x.history.now) x.registry x'.registry ∧
      ∃ es, x.history.GoesOn es x'.history ∧ es.filterMap Effect.call? =
        (x.registry.filter (·.isDue x.history.now)).map fun c => (c.name, c.settings) := by
  intro e h later
  have sound := sound_of_run fresh requests
  have budgets := budgets_of_run fresh requests
  refine ⟨budgets.thrifty, fun c hc => ?_, fun e' attempts c hc running n limit => ?_,
    fun request quiet c hc up => ?_, ?_, fun x x' attempts => attempts.calls⟩
  · have own := budgets.connections c hc
    have lifecycle := sound.lifecycle hc
    exact ⟨own.counted, own.noted, lifecycle.ne_givingUp, fun n limit =>
      ⟨own.within n limit, own.givingUp_iff lifecycle limit⟩⟩
  · obtain ⟨request, done⟩ := attempts.exists_request
    have run : e' = e₀.run (requests ++ [request]) := by
      rw [run_append]
      exact done
    have left := attempts.left c hc
    subst run
    exact ((budgets_of_run fresh _).connections c hc).givingUp_iff_of_left
      ((sound_of_run fresh _).lifecycle hc) limit running left
  · exact exists_givingUp_of_handle sound quiet hc up
  · have moves := run_moves e more
    obtain ⟨es, on, -, fates⟩ := fates_of_moves moves sound
    obtain ⟨also, on', origin⟩ := exists_origin_of_moves moves sound
    obtain rfl := on'.unique on
    have goes : later = e.run more := run_append ..
    rw [goes]
    refine ⟨also, on, fun c hc up => ?_, origin⟩
    have past : c.isAvailable = false := by
      simp [Connection.isAvailable, up, ConnectionState.isTerminal]
    have stays : c.departed = false := ((sound.lifecycle hc).gaveUp up).2.2.2
    cases fates c hc past with
    | rests mem name rests spared =>
      exact ⟨spared, _, mem, name, Connection.send_refused rests.past⟩
    | removed departed | renewed departed => exact absurd (stays ▸ departed) Bool.false_ne_true

/-- A peer that is reached once and then lost is called twice more, and then given up. -/
theorem attempts_within_budget_of_run_lost :
    let e₀ := new fun dials _ _ => dials.length = 1
    let settings := { ConnectionSettings.ofHost "host" with attempts := .bounded 2 }
    let requests := [Request.configure [("peer", settings)], .start, .send (.ofName "ball"),
      .loseSession 0, .send (.ofName "ball"), .send (.ofName "tilt"), .send (.ofName "tilt")]
    let e := e₀.run requests
    e₀.Fresh ∧ e.history.journal.countP Effect.dials = 4 ∧
      e.registry.map (fun c => (c.name, c.state)) = [("peer", .givingUp)] ∧
      (∀ c ∈ e.registry, c.settings.attempts = .bounded 2) ∧
      ∀ c ∈ e.registry, e.history.tries c.name = 2 := by
  intro e₀ settings requests e
  have fresh : e₀.Fresh := fresh_new _
  have limits : ∀ c ∈ e.registry, c.settings.attempts = .bounded 2 := by decide +kernel
  have states : ∀ c ∈ e.registry, c.state = .givingUp := by decide +kernel
  refine ⟨fresh, by decide +kernel, by decide +kernel, limits, fun c hc => ?_⟩
  obtain ⟨-, within, -⟩ := attempts_within_budget_of_run fresh requests []
  obtain ⟨-, -, -, bounded⟩ := within c hc
  obtain ⟨-, used⟩ := bounded 2 (limits c hc)
  exact (used (by decide) (by simp [states c hc])).mp (states c hc)

end Backbox.Engine
