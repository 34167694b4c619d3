import Backbox.Proofs.Connection.InVain
import Backbox.Proofs.Engine.Described
import Backbox.Proofs.Engine.Handler

/-!
# Engines that reach nobody

An engine whose attempts all fail gives each of its connections one chance at the start and one with
every command that is sent. Nothing arrives and nothing is dispatched meanwhile, whatever its peers
do; all that the host is told is to shut down, at the first chance, if a required connection is
allowed an attempt.
-/

namespace Backbox

/-- Whether a peer does it: bytes arrive from it, or it closes a session. -/
def Request.FromPeer : Request → Prop
  | .receive _ _ | .loseSession _ => True
  | _ => False

namespace Engine

/-- What is done to each connection when all of them get a chance. -/
structure IsChance (act : Connection → History → Connection × History) : Prop
    extends IsAttempt act where
  asks : ∀ (c : Connection) (h : History), h.OnlyAsks (act c h).2 ∧
    (act c h).2.shutdownRequested = (h.shutdownRequested || c.losesRequired h)
  vain : ∀ {c : Connection} {h : History} {chances : Nat}, c.Vain chances →
    c.settings.retryDelayMs = 0 → (act c h).2.sessions = 0 → (act c h).1.Vain (chances + 1) ∧
      c.losesRequired h = (!c.settings.attempts.isExhausted chances && c.settings.required)

/-- Connecting is a chance. -/
theorem isChance_connect : IsChance Connection.connect where
  toIsAttempt := isAttempt_connect
  asks := Connection.connect_asks
  vain := Connection.Vain.connect

/-- Sending is a chance. -/
theorem isChance_send (message : String) : IsChance fun c h => (c.send message h).2 where
  toIsAttempt := isAttempt_send message
  asks c h := c.send_asks message h
  vain := Connection.Vain.send

/-- What comes of a chance for each of these connections, if no session is opened. -/
theorem IsChance.overConnections {act : Connection → History → Connection × History}
    (chance : IsChance act) {chances : Nat} {cs : List Connection} {h : History}
    (vain : ∀ c ∈ cs, c.Vain chances) (prompt : ∀ c ∈ cs, c.settings.retryDelayMs = 0)
    (unopened : (overConnections act cs h).2.sessions = 0) :
    (overConnections act cs h).1.map (fun c => (c.name, c.settings)) =
      cs.map (fun c => (c.name, c.settings)) ∧
    (∀ c ∈ (overConnections act cs h).1, c.Vain (chances + 1)) ∧
    h.OnlyAsks (overConnections act cs h).2 ∧
    (overConnections act cs h).2.shutdownRequested = (h.shutdownRequested ||
      cs.any fun c => !c.settings.attempts.isExhausted chances && c.settings.required) := by
  induction cs generalizing h with
  | nil =>
    exact ⟨rfl, fun c mem => absurd mem List.not_mem_nil, .of_eq rfl rfl,
      (Bool.or_false _).symm⟩
  | cons c rest ih =>
    obtain ⟨-, es, on, -⟩ := chance.toIsAttempt.overConnections rest (act c h).2
    have first : (act c h).2.sessions = 0 := Nat.le_zero.mp (unopened ▸ on.sessions_le)
    obtain ⟨own, others⟩ := List.forall_mem_cons.mp vain
    obtain ⟨prompt, later⟩ := List.forall_mem_cons.mp prompt
    obtain ⟨tried, lost⟩ := chance.vain own prompt first
    obtain ⟨entries, all, asks, asked⟩ := ih others later unopened
    obtain ⟨asks', asked'⟩ := chance.asks c h
    have kept := chance.tried c h
    refine ⟨?_, List.forall_mem_cons.mpr ⟨tried, all⟩, asks'.trans asks, ?_⟩
    · rw [Engine.overConnections, List.map_cons, List.map_cons, entries, kept.name_eq,
        kept.settings_eq]
    · rw [Engine.overConnections, List.any_cons, ← lost, ← Bool.or_assoc, ← asked']
      exact asked

/-- Whether the host is asked to shut down when none of these connections reaches its peer: one of
them is required, and allowed an attempt. -/
def alarms (entries : List (String × ConnectionSettings)) : Bool :=
  entries.any fun entry => entry.2.required && decide (entry.2.attempts ≠ .bounded 0)

/-- An engine with these connections, each of which had so many chances in vain. -/
structure Vain (entries : List (String × ConnectionSettings)) (chances : Nat) (e : Engine) :
    Prop where
  named : e.registry.map (fun c => (c.name, c.settings)) = entries
  vain : ∀ c ∈ e.registry, c.Vain chances
  idle : e.Idle
  running : e.shutDown = false
  calls : e.history.hostCalls = if e.history.shutdownRequested then [.requestShutdown] else []
  /-- The host is asked to shut down at the first chance, if it is at all. -/
  asked : e.history.shutdownRequested = (decide (chances ≠ 0) && alarms entries)

variable {entries : List (String × ConnectionSettings)} {chances : Nat} {e e' : Engine}

/-- At the first chance, the host is asked to shut down for a required connection that is allowed an
attempt; at a later one, for none that it was not asked for already. -/
theorem asked_again (cs : List Connection) (chances : Nat) :
    ((decide (chances ≠ 0) && alarms (cs.map fun c => (c.name, c.settings))) ||
      cs.any fun c => !c.settings.attempts.isExhausted chances && c.settings.required) =
    alarms (cs.map fun c => (c.name, c.settings)) := by
  have first : (cs.any fun c => !c.settings.attempts.isExhausted 0 && c.settings.required) =
      alarms (cs.map fun c => (c.name, c.settings)) := by
    rw [alarms, List.any_map]
    refine congrArg cs.any (funext fun c => ?_)
    rw [Bool.and_comm, Function.comp_apply, ← Bool.decide_coe (c.settings.attempts.isExhausted 0)]
    simp only [AttemptLimit.isExhausted_zero_iff, ne_eq, decide_not]
  by_cases start : chances = 0
  · simp [start, first]
  · rw [decide_eq_true start, Bool.true_and, ← first, Bool.or_eq_left_iff_imp]
    simp only [List.any_eq_true, Bool.and_eq_true, Bool.not_eq_true']
    rintro ⟨c, mem, left, required⟩
    refine ⟨c, mem, ?_, required⟩
    by_contra none
    rw [Bool.not_eq_false] at none
    rw [AttemptLimit.isExhausted_of_zero none chances] at left
    cases left

/-- An engine that settings describe, with all that it holds. -/
theorem ofSettings_eq {s : Settings} {connector : Connector}
    (described : ofSettings s connector = .ok e) : e = { new connector with
      valueCase := s.valueCase
      eventMap := s.eventMap
      playerVariables := .ofNames s.playerVariables
      registry := s.connections.toList.map fun entry => .new entry.1 entry.2 connector
      inboxes := s.connections.toList.map fun entry => ⟨entry.1, []⟩
      history := History.start.recordAll
        (s.connections.toList.map fun entry => .configured entry.1) } := by
  unfold ofSettings at described
  split at described
  · cases described
  · exact (configure_eq described).2.2

/-- An engine that settings describe has had no chance. -/
theorem vain_ofSettings {s : Settings} {connector : Connector}
    (described : ofSettings s connector = .ok e) : e.Vain s.connections.toList 0 := by
  obtain rfl := ofSettings_eq described
  have silent : History.start.OnlyAsks (History.start.recordAll
      (s.connections.toList.map fun entry => .configured entry.1)) := by
    refine .recordAll _ fun entry mem => ?_
    obtain ⟨_, -, rfl⟩ := List.mem_map.mp mem
    rfl
  have unasked : (History.start.recordAll
      (s.connections.toList.map fun entry => .configured entry.1)).shutdownRequested = false := by
    rw [History.recordAll_eq]
    rfl
  constructor
  case named =>
    rw [List.map_map]
    exact List.map_id _
  case vain =>
    intro c mem
    obtain ⟨entry, -, rfl⟩ := List.mem_map.mp mem
    exact Connection.vain_new entry.1 entry.2 connector
  case idle =>
    refine ⟨fun i mem => ?_, rfl⟩
    obtain ⟨entry, -, rfl⟩ := List.mem_map.mp mem
    rfl
  case running => rfl
  case calls =>
    rw [unasked]
    exact silent.calls.trans (by rw [unasked]; rfl)
  case asked => exact unasked

/-- Another chance for every connection is one chance more, if no session is opened. -/
theorem Vain.round {act : Connection → History → Connection × History} (chance : IsChance act)
    (vain : e.Vain entries chances) (prompt : ∀ entry ∈ entries, entry.2.retryDelayMs = 0)
    (unopened : (Engine.overConnections act e.registry e.history).2.sessions = 0)
    (started : Bool) : Vain entries (chances + 1) { e with
      started := started
      registry := (Engine.overConnections act e.registry e.history).1
      history := (Engine.overConnections act e.registry e.history).2 } := by
  have all : ∀ c ∈ e.registry, c.settings.retryDelayMs = 0 := fun c mem =>
    prompt _ (vain.named ▸ List.mem_map_of_mem mem)
  obtain ⟨same, tried, asks, asked⟩ := chance.overConnections vain.vain all unopened
  have ever : (Engine.overConnections act e.registry e.history).2.shutdownRequested =
      alarms entries := by
    rw [asked, vain.asked, ← vain.named]
    exact asked_again e.registry chances
  refine ⟨same.trans vain.named, tried, ⟨vain.idle.commands, vain.idle.departures⟩, vain.running,
    ?_, ?_⟩
  · have calls := asks.calls
    have kept := asks.kept
    rw [vain.calls] at calls
    refine calls.trans ?_
    cases before : e.history.shutdownRequested with
    | true => simp [kept before]
    | false => simp
  · simp [ever]

/-- Starting is the first chance. -/
theorem Vain.start (vain : e.Vain entries chances)
    (prompt : ∀ entry ∈ entries, entry.2.retryDelayMs = 0) (started : e.start = .ok e')
    (unopened : e'.history.sessions = 0) : e'.Vain entries (chances + 1) := by
  obtain rfl := start_eq started
  exact vain.round isChance_connect prompt unopened true

/-- Every command that is sent is a chance. -/
theorem Vain.send (vain : e.Vain entries chances)
    (prompt : ∀ entry ∈ entries, entry.2.retryDelayMs = 0) (command : Command)
    (unopened : (e.send command).2.history.sessions = 0) :
    (e.send command).2.Vain entries (chances + 1) := by
  have sent : (e.send command).2 = { e with
      registry := (sendOver command.toWire e.registry e.history).2.1
      history := (sendOver command.toWire e.registry e.history).2.2 } := rfl
  rw [sent] at unopened ⊢
  rw [sendOver_eq] at unopened ⊢
  exact vain.round (isChance_send command.toWire) prompt unopened e.started

/-- Sending commands takes no session back. -/
theorem sessions_le_sends (e : Engine) (commands : List Command) : e.history.sessions ≤
    (commands.foldl (fun e command => (e.send command).2) e).history.sessions := by
  induction commands generalizing e with
  | nil => exact Nat.le_refl _
  | cons command rest ih =>
    obtain ⟨-, es, on, -⟩ := (Attempts.send (e := e) command).calls
    exact Nat.le_trans on.sessions_le (ih (e.send command).2)

/-- All commands that are sent are chances, one for each. -/
theorem Vain.sends (vain : e.Vain entries chances)
    (prompt : ∀ entry ∈ entries, entry.2.retryDelayMs = 0) (commands : List Command)
    (unopened : (commands.foldl (fun e command => (e.send command).2) e).history.sessions = 0) :
    Vain entries (chances + commands.length)
      (commands.foldl (fun e command => (e.send command).2) e) := by
  induction commands generalizing e chances with
  | nil => exact vain
  | cons command rest ih =>
    have first : (e.send command).2.history.sessions = 0 :=
      Nat.le_zero.mp (unopened ▸ sessions_le_sends (e.send command).2 rest)
    have later := ih (vain.send prompt command first) unopened
    rw [Nat.add_assoc, Nat.add_comm 1] at later
    exact later

/-! ### While nothing happens -/

/-- Nothing waits on any connection of an engine that is idle. -/
theorem Idle.waiting (idle : e.Idle) (name : String) : e.waiting name = [] := by
  unfold Engine.waiting
  split
  · next i found => exact idle.commands i (List.mem_of_find?_eq_some found)
  · rfl

/-- A poll of an engine that is idle does nothing. -/
theorem Idle.poll (idle : e.Idle) (bound : Nat) : e.poll (bound + 1) = some (0, e) := by
  rw [Engine.poll, drainInboxes_of_idle idle.waiting]
  simp only [Option.bind_eq_bind, Option.bind_some]
  rw [applyDepartures, idle.departures]
  rfl

/-- No connection of an engine that reached nobody holds a session. -/
theorem Vain.connectionOf? (vain : e.Vain entries chances) (session : Nat) :
    e.connectionOf? session = none := by
  refine List.find?_eq_none.mpr fun c mem => ?_
  rw [(vain.vain c mem).idle]
  exact Bool.false_ne_true

/-- Peers that were never reached do nothing. -/
theorem Vain.run_peers (vain : e.Vain entries chances) {requests : List Request}
    (peers : ∀ request ∈ requests, request.FromPeer) : e.run requests = e := by
  induction requests with
  | nil => rfl
  | cons request rest ih =>
    obtain ⟨peer, others⟩ := List.forall_mem_cons.mp peers
    have still : (e.handle request).2 = e := by
      cases request with
      | receive session bytes => simp only [handle, receive, vain.connectionOf? session]
      | loseSession session => simp only [handle, loseSession, vain.connectionOf? session]
      | _ => exact absurd peer id
    rw [run, List.foldl_cons, still]
    exact ih others

/-- Time that passes is no chance. -/
theorem Vain.wait (vain : e.Vain entries chances) (milliseconds : Nat) :
    (e.wait milliseconds).Vain entries chances :=
  ⟨vain.named, vain.vain, ⟨vain.idle.commands, vain.idle.departures⟩, vain.running, vain.calls,
    vain.asked⟩

private theorem closes_of_idle {cs : List Connection} (idle : ∀ c ∈ cs, c.session = none)
    (h : History) : (overConnections Connection.close cs h).2 = h := by
  induction cs with
  | nil => rfl
  | cons c rest ih =>
    obtain ⟨own, others⟩ := List.forall_mem_cons.mp idle
    have closed : (c.close h).2 = h := by
      rw [Connection.close, Connection.endSession]
      simp only [own]
    rw [overConnections]
    simp only [closed]
    exact ih others

/-- Shutting down tells nobody anything. -/
theorem Vain.history_shutdown (vain : e.Vain entries chances) :
    e.shutdown.history = e.history := by
  have idle : ∀ c ∈ e.registry, c.session = none := fun c mem => (vain.vain c mem).idle
  unfold shutdown
  rw [vain.running]
  exact closes_of_idle idle e.history

end Engine

end Backbox
