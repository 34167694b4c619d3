import Backbox.Proofs.Connection.Alarm
import Backbox.Proofs.Engine.Budget

/-!
# The host is asked to shut down once

In every run the host is asked to shut down when a required peer is not reached or says goodbye for
the first time, whichever connection it is and whatever led to it, and never again. So a required
connection that is given up has had the host asked, unless its limit leaves no attempt at all.
-/

namespace Backbox.Engine

open Relation

/-- The host was asked to shut down if it had to be, and the journal tells of every connection
what it has set off. -/
structure Alert (e : Engine) : Prop where
  latched : e.history.Latched
  traced : ∀ c ∈ e.registry, c.Traced e.history

variable {m m' : Moment} {e e' : Engine} {es : List Effect}

/-- Nothing happened yet. -/
theorem alert_of_fresh (fresh : e.Fresh) : Alert e where
  latched := fresh.history ▸ .start
  traced := by simp [fresh.registry]

/-- No act asks the host to shut down without need. -/
theorem Act.latched (act : e.Act e') (alert : Alert e) : e'.history.Latched := by
  cases act with
  | send message split => exact alert.latched.send _ message
  | receive session bytes =>
    unfold Engine.receive
    split
    · exact alert.latched
    · next c found =>
      have known := (alert.traced c (List.mem_of_find?_eq_some found)).opened
      exact known.receive alert.latched e.valueCase bytes
  | tell call other =>
    refine alert.latched.record_plain ?_
    cases call with
    | requestShutdown => exact absurd rfl other
    | post | setSwitch | applyFrame | note => rfl
  | setPending => exact alert.latched

/-- No move asks the host to shut down without need. -/
theorem Move.latched (move : Move m m') (alert : Alert m.engine) : m'.engine.history.Latched := by
  cases move with
  | act act => exact act.latched alert
  | connect split => exact alert.latched.connect _
  | close split => exact alert.latched.close _
  | lose session =>
    unfold Engine.loseSession
    split
    · exact alert.latched
    · exact alert.latched.loseSession _ (by decide)
  | wait => exact alert.latched.congr rfl rfl
  | configure | remove => exact alert.latched.record_plain rfl
  | dispatch name command taken =>
    obtain ⟨-, rfl⟩ := takeCommand_eq taken
    exact alert.latched.record_plain rfl
  | setHandlers | setStarted | setShutDown | depart => exact alert.latched

/-- Every connection is still told of after a shift. -/
theorem Shift.traced (shift : Shift m es m') (traced : ∀ c ∈ m.engine.registry,
    c.Traced m.engine.history) : ∀ c ∈ m'.engine.registry, c.Traced m'.engine.history := by
  -- entries that open no session leave everybody as they are
  have still (none_opened : ∀ entry ∈ es, entry.opens = false) {c : Connection}
      (hc : c ∈ m.engine.registry) : c.Traced m'.engine.history :=
    (traced c hc).keep shift.on fun entry he opens => by
      rw [none_opened entry he] at opens
      cases opens
  intro c hc
  cases shift with
  | touched touches =>
    cases touches with
    | told on registry host =>
      refine still (fun entry he => ?_) (registry ▸ hc)
      obtain ⟨call, rfl⟩ := host entry he
      rfl
    | @changed front back d d' split steps registry =>
      rw [registry] at hc
      rcases mem_changed.mp hc with rfl | hc
      · exact steps.traced (traced d (split ▸ mem_changed.mpr (.inl rfl)))
      · exact (traced c (split ▸ mem_changed.mpr (.inr hc))).keep steps.course.on steps.opens_new
  | dispatched name command entry on registry =>
    exact still (by simp [entry, Effect.opens]) (registry ▸ hc)
  | added name settings running new entry on registry =>
    rw [registry] at hc
    rcases List.mem_append.mp hc with hc | hc
    · exact still (by simp [entry, Effect.opens]) hc
    · rw [List.mem_singleton.mp hc]
      exact Connection.traced_new ..
  | removed mem departed entry on registry =>
    exact still (by simp [entry, Effect.opens]) ((registry c).mp hc).1

/-- Every chain of moves asks the host to shut down if it has to, and tells of every
connection. -/
theorem alert_of_moves (moves : ReflTransGen Move m m') (sound : Sound m)
    (alert : Alert m.engine) : Alert m'.engine := by
  induction moves with
  | refl => exact alert
  | tail moves move ih =>
    obtain ⟨es, shift⟩ := move.shift (sound_of_moves moves sound)
    exact ⟨move.latched ih, shift.traced ih.traced⟩

/-- After every run the host was asked to shut down if it had to be. -/
theorem alert_of_run {e₀ : Engine} (fresh : e₀.Fresh) (requests : List Request) :
    Alert (e₀.run requests) :=
  alert_of_moves (run_moves e₀ requests) (sound_of_fresh fresh) (alert_of_fresh fresh)

/-- In every run the host is asked to shut down at most once. It is asked right after the first
entry which tells that a required peer was not reached or said goodbye, it is asked if there is
such an entry, and that it was asked is known exactly then. Whose peer it was that said goodbye is
told by the call that opened the session: that of the connection that holds it, with the settings
of this connection. -/
theorem shutdown_requested_once_of_run {e₀ : Engine} (fresh : e₀.Fresh)
    (requests : List Request) :
    let e := e₀.run requests
    let journal := e.history.journal
    journal.countP Effect.asksShutdown ≤ 1 ∧
    (∀ older, .host .requestShutdown :: older <:+ journal →
      ∃ cause before, older = cause :: before ∧ cause.isFatal before = true ∧ Calm before) ∧
    (∀ cause before, cause :: before <:+ journal → cause.isFatal before = true → Calm before →
      .host .requestShutdown :: cause :: before <:+ journal) ∧
    (e.shutdownRequested = true ↔
      ∃ cause before, cause :: before <:+ journal ∧ cause.isFatal before = true) ∧
    ∀ c ∈ e.registry, ∀ s, c.session = some s →
      callOf? s.id journal = some ⟨c.name, c.settings, some s.id⟩ := by
  intro e journal
  obtain ⟨⟨once, asked, answered, requested_iff⟩, traced⟩ := alert_of_run fresh requests
  exact ⟨once, asked, answered, requested_iff.trans not_calm_iff, fun c hc => (traced c hc).opened⟩

/-- Two required peers: one is not reached at the start, for which the host is asked to shut down,
and the other one says goodbye later, for which it is not asked again. -/
theorem shutdown_requested_once_of_run_twice_fatal :
    let e₀ := new fun _ name _ => name = "reached"
    let settings := { ConnectionSettings.ofHost "host" with required := true }
    let requests := [Request.configure [("reached", settings), ("missed", settings)], .start,
      .receive 0 (Text.bytes "goodbye\n")]
    e₀.Fresh ∧ (e₀.run requests).registry.map (·.departed) = [true, false] ∧
      (e₀.run requests).shutdownRequested = true ∧
      (e₀.run requests).history.journal.countP Effect.asksShutdown = 1 := by
  intro e₀ settings requests
  have fresh := fresh_new fun _ name _ => name = "reached"
  have asked : (e₀.run requests).history.journal.any Effect.asksShutdown = true := by
    decide +kernel
  obtain ⟨once, -, -, -, -⟩ := shutdown_requested_once_of_run fresh requests
  refine ⟨fresh, by decide +kernel, by decide +kernel, Nat.le_antisymm once ?_⟩
  exact List.countP_pos_iff.mpr (List.any_eq_true.mp asked)

/-- Whatever was fatal, a required peer was called. -/
theorem exists_dialled_of_isFatal {cause : Effect} {before : List Effect}
    (fatal : cause.isFatal before = true) :
    ∃ dial, .dialled dial ∈ cause :: before ∧ dial.settings.required = true := by
  unfold Effect.isFatal at fatal
  split at fatal
  · next dial =>
    exact ⟨dial, List.mem_cons_self, (Bool.and_eq_true_iff.mp fatal).2⟩
  · next session =>
    obtain ⟨dial, opener, required⟩ := (Option.any_eq_true _ _).mp fatal
    exact ⟨dial, List.mem_cons_of_mem _ (mem_of_callOf? opener), required⟩
  · cases fatal

/-- In every run the host was asked to shut down when a required connection is given up, unless
the limit of this connection leaves no attempt at all. Such a connection is given up without any
call, and it is never for such connections that the host is asked: behind every request there is a
call for a required connection whose limit leaves an attempt. -/
theorem shutdown_requested_of_givingUp {e₀ : Engine} (fresh : e₀.Fresh)
    (requests : List Request) :
    let e := e₀.run requests
    (∀ c ∈ e.registry, c.settings.required = true → c.state = .givingUp →
      e.shutdownRequested = true ∨ c.settings.attempts = .bounded 0) ∧
    (∀ dial, .dialled dial ∈ e.history.journal → dial.settings.attempts ≠ .bounded 0) ∧
    (e.shutdownRequested = true → ∃ dial, .dialled dial ∈ e.history.journal ∧
      dial.settings.required = true) := by
  intro e
  obtain ⟨latched, traced⟩ := alert_of_run fresh requests
  refine ⟨fun c hc required up => ?_, fun dial here limit => ?_, fun asked => ?_⟩
  · obtain ⟨⟨n, limit, made⟩, -⟩ := ((sound_of_run fresh requests).lifecycle hc).gaveUp up
    by_cases none_left : n = 0
    · exact .inr (none_left ▸ limit)
    · have tried : 0 < c.attemptsMade := by
        rw [made]
        exact Nat.pos_of_ne_zero fun zero => none_left (UInt32.toNat_inj.mp zero)
      exact .inl (latched.requested_iff.mpr ((traced c hc).failed required tried))
  · obtain ⟨newer, older, split⟩ := List.append_of_mem here
    have left : triesOf dial.connection older < 0 :=
      (budgets_of_run fresh requests).thrifty dial older ⟨newer, split.symm⟩ 0 limit
    exact Nat.not_lt_zero _ left
  · obtain ⟨cause, before, here, fatal⟩ := not_calm_iff.mp (latched.requested_iff.mp asked)
    obtain ⟨dial, mem, required⟩ := exists_dialled_of_isFatal fatal
    exact ⟨dial, here.subset mem, required⟩

/-- The host is asked to shut down when the only attempt on a required peer fails. -/
theorem shutdown_requested_of_givingUp_unreached :
    let e₀ := new fun _ _ _ => false
    let settings := { ConnectionSettings.ofHost "host" with
      attempts := .bounded 1, required := true }
    let requests := [Request.configure [("peer", settings)], .start]
    e₀.Fresh ∧ (∃ c ∈ (e₀.run requests).registry, c.settings.required = true ∧
      c.state = .givingUp) ∧ (e₀.run requests).shutdownRequested = true := by
  intro e₀ settings requests
  have up : (e₀.run requests).registry.map (fun c => (c.settings, c.state)) =
      [(settings, .givingUp)] := by decide +kernel
  have fresh := fresh_new fun _ _ _ => false
  obtain ⟨c, hc, its⟩ := List.mem_map.mp (up ▸ List.mem_cons_self)
  obtain ⟨own, state⟩ := Prod.mk.inj its
  have required : c.settings.required = true := by rw [own]
  obtain ⟨asked, -, -⟩ := shutdown_requested_of_givingUp fresh requests
  refine ⟨fresh, ⟨c, hc, required, state⟩, (asked c hc required state).resolve_right ?_⟩
  rw [own]
  decide

/-- A required connection without any attempt is given up, and the host is not asked to shut
down. -/
theorem givingUp_unrequested :
    let settings := { ConnectionSettings.ofHost "host" with
      attempts := .bounded 0, required := true }
    let e := (new fun _ _ _ => false).run [.configure [("peer", settings)], .start]
    e.registry.map (fun c => (c.settings.required, c.state)) = [(true, .givingUp)] ∧
      e.shutdownRequested = false := by
  decide +kernel

end Backbox.Engine
