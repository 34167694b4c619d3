import Mathlib.Data.List.Forall2
import Backbox.Engine.Request
import Backbox.Proofs.Connection.Attempt

/-!
# Starting and sending

Starting an engine and sending a command make one attempt on each connection, one after the
other. Every peer whose attempt is due is called once, in the order of the connections, and no
other peer is.
-/

namespace Backbox.Engine

variable {e e' : Engine}

/-- Starting, or sending a command. -/
inductive Attempts (e : Engine) : Engine → Prop where
  | start {e' : Engine} (started : e.start = .ok e') : Attempts e e'
  | send (command : Command) : Attempts e (e.send command).2

/-- What is done to one connection in an attempt on each. -/
structure IsAttempt (act : Connection → History → Connection × History) : Prop where
  tried : ∀ (c : Connection) (h : History), c.TriedAt h.now (act c h).1
  now_eq : ∀ (c : Connection) (h : History), (act c h).2.now = h.now
  calls : ∀ (c : Connection) (h : History), ∃ es, h.GoesOn es (act c h).2 ∧
    es.filterMap Effect.call? = if c.isDue h.now then [(c.name, c.settings)] else []

/-- Connecting is an attempt. -/
theorem isAttempt_connect : IsAttempt Connection.connect :=
  ⟨Connection.connect_triedAt, Connection.now_connect, Connection.connect_entries⟩

/-- Sending a message is an attempt. -/
theorem isAttempt_send (message : String) : IsAttempt fun c h => (c.send message h).2 where
  tried c h := c.send_triedAt message h
  now_eq c h := c.now_send message h
  calls c h := by
    obtain ⟨es, on, called, -⟩ := c.send_entries message h
    exact ⟨es, on, called⟩

/-- An attempt on each connection calls the peers that are due, each of them once. -/
theorem IsAttempt.overConnections {act : Connection → History → Connection × History}
    (attempt : IsAttempt act) (cs : List Connection) (h : History) :
    List.Forall₂ (Connection.TriedAt h.now) cs (overConnections act cs h).1 ∧
    ∃ es, h.GoesOn es (overConnections act cs h).2 ∧ es.filterMap Effect.call? =
      (cs.filter (·.isDue h.now)).map fun c => (c.name, c.settings) := by
  induction cs generalizing h with
  | nil => exact ⟨.nil, [], .refl h, rfl⟩
  | cons c rest ih =>
    obtain ⟨others, later, on', calls'⟩ := ih (act c h).2
    obtain ⟨es, on, calls⟩ := attempt.calls c h
    rw [attempt.now_eq] at others calls'
    refine ⟨.cons (attempt.tried c h) others, es ++ later, on.trans on', ?_⟩
    rw [List.filterMap_append, calls, calls', List.filter_cons]
    split <;> rfl

/-- Sending does to each connection the same, one after the other. -/
theorem sendOver_eq (message : String) (cs : List Connection) (h : History) :
    (sendOver message cs h).2 = overConnections (fun c h => (c.send message h).2) cs h := by
  induction cs generalizing h with
  | nil => rfl
  | cons c rest ih => simp only [sendOver, Engine.overConnections, ih]

/-- Of the connections to which a message is sent, each accepts it once at most. -/
theorem sendOver_entries (message : String) (cs : List Connection) (h : History) :
    ∃ es, h.GoesOn es (sendOver message cs h).2.2 ∧
      (es.filterMap Effect.accepted?).Sublist (cs.map fun c => (c.name, message)) := by
  induction cs generalizing h with
  | nil => exact ⟨[], .refl h, .slnil⟩
  | cons c rest ih =>
    obtain ⟨es, on, -, told⟩ := c.send_entries message h
    obtain ⟨more, on', others⟩ := ih (c.send message h).2.2
    refine ⟨es ++ more, on.trans on', ?_⟩
    rw [List.filterMap_append, Effect.filterMap_accepted?, told, List.map_cons]
    split
    · exact others.cons_cons _
    · exact others.cons _

/-- Starting and sending make an attempt on each connection. -/
theorem Attempts.exists_isAttempt (attempts : e.Attempts e') :
    ∃ act, IsAttempt act ∧ e'.registry = (overConnections act e.registry e.history).1 ∧
      e'.history = (overConnections act e.registry e.history).2 := by
  cases attempts with
  | start started =>
    unfold Engine.start at started
    split at started
    · cases started
    · split at started
      · cases started
      · obtain rfl := Except.ok.inj started
        exact ⟨_, isAttempt_connect, rfl, rfl⟩
  | send command =>
    refine ⟨_, isAttempt_send command.toWire, ?_, ?_⟩
    · exact congrArg Prod.fst (sendOver_eq ..)
    · exact congrArg Prod.snd (sendOver_eq ..)

/-- Starting and sending call the peers that are due, each of them once, and note what comes of
it. -/
theorem Attempts.calls (attempts : e.Attempts e') :
    List.Forall₂ (Connection.TriedAt e.history.now) e.registry e'.registry ∧
    ∃ es, e.history.GoesOn es e'.history ∧ es.filterMap Effect.call? =
      (e.registry.filter (·.isDue e.history.now)).map fun c => (c.name, c.settings) := by
  obtain ⟨act, attempt, registry, history⟩ := attempts.exists_isAttempt
  rw [registry, history]
  exact attempt.overConnections e.registry e.history

/-- Whatever an act makes of every connection holds of all connections after it. -/
theorem forall_overConnections {act : Connection → History → Connection × History}
    {p : Connection → Prop} (each : ∀ c h, p (act c h).1) (cs : List Connection) (h : History) :
    ∀ c ∈ (overConnections act cs h).1, p c := by
  induction cs generalizing h with
  | nil => exact fun _ hc => absurd hc List.not_mem_nil
  | cons c rest ih => exact List.forall_mem_cons.mpr ⟨each c h, ih (act c h).2⟩

/-- Starting and sending leave nobody unsettled who has no attempt left. -/
theorem Attempts.left (attempts : e.Attempts e') : ∀ c ∈ e'.registry, c.isSettled = false →
    c.settings.attempts.isExhausted c.attemptsMade = false := by
  obtain ⟨act, attempt, registry, -⟩ := attempts.exists_isAttempt
  rw [registry]
  exact forall_overConnections (fun c h => (attempt.tried c h).left) _ _

/-- Starting, where it is not refused, and sending are requests. -/
theorem Attempts.exists_request (attempts : e.Attempts e') :
    ∃ request, e' = (e.handle request).2 := by
  cases attempts with
  | start started => exact ⟨.start, by rw [handle, started]; rfl⟩
  | send command => exact ⟨.send command, rfl⟩

end Backbox.Engine
