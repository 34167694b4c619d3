import Backbox.Probe.Run
import Backbox.Proofs.Engine.InVain

/-!
# Runs of the probe that reach nobody

A run whose attempts all fail ends by itself, when the host is asked to shut down or when its time
is over. It tells of the request, and of every connection in the order of the names: so many
attempts were made as there were chances, one at the start and one for each message, as far as the
limit allows. A run whose settings or messages are refused begins with no engine at all.
-/

namespace Backbox

namespace History

/-- Every attempt on record failed. -/
def Unreached (h : History) : Prop := ∀ e ∈ h.journal, e.opens = false

/-- Where every attempt failed, no session was opened. -/
theorem Unreached.sessions_eq {h : History} {es : List Effect} (unreached : h.Unreached)
    (on : History.start.GoesOn es h) : h.sessions = 0 := by
  have all : ∀ e ∈ es, e.opens = false := by
    intro e mem
    refine unreached e ?_
    rw [on.journal]
    exact List.mem_append_left _ (List.mem_reverse.mpr mem)
  rw [on.sessions, List.countP_eq_zero.mpr fun e mem => by simp [all e mem]]
  rfl

end History

namespace Probe

open Engine

variable {o : Options} {s : Surroundings} {settings : Settings} {commands : List Command}
  {connector : Connector} {e : Engine}

private theorem exists_of_bind {ε α β : Type} {x : Except ε α} {f : α → Except ε β} {b : β}
    (bound : x >>= f = .ok b) : ∃ a, x = .ok a ∧ f a = .ok b := by
  cases x with
  | error fault => cases bound
  | ok a => exact ⟨a, rfl, bound⟩

private theorem ok_of_mapError {ε ε' α : Type} {f : ε → ε'} {x : Except ε α} {a : α}
    (mapped : x.mapError f = .ok a) : x = .ok a := by
  cases x with
  | error fault => cases mapped
  | ok b => exact congrArg Except.ok (Except.ok.inj mapped)

/-- Settings that the probe runs with are valid. -/
theorem validate_of_settings (resolved : o.settings s = .ok settings) :
    settings.validate = .ok () := by
  unfold Options.settings at resolved
  obtain ⟨base, -, resolved⟩ := exists_of_bind resolved
  obtain ⟨added, -, resolved⟩ := exists_of_bind resolved
  obtain ⟨overridden, -, resolved⟩ := exists_of_bind resolved
  obtain ⟨_, valid, resolved⟩ := exists_of_bind resolved
  split at resolved
  · cases resolved
  · obtain rfl := Except.ok.inj resolved
    exact ok_of_mapError valid

/-- Whether a message is read as a command with a name. -/
def IsNamed (message : String) : Prop := (Command.ofWire .preserve (Text.trim message)).name ≠ ""

/-- A message with a name stands for the command that it is read as. -/
theorem command?_of_isNamed {message : String} (named : IsNamed message) :
    command? message = .ok (Command.ofWire .preserve (Text.trim message)) := by
  rw [command?, if_neg (by rwa [String.isEmpty_iff])]

/-- A message without a name is refused. -/
theorem command?_of_not_isNamed {message : String} (unnamed : ¬ IsNamed message) :
    command? message = .error (.notCommand message) := by
  rw [command?, if_pos (String.isEmpty_iff.mpr (of_not_not unnamed))]

/-- Messages that all have names are sent as so many commands. -/
theorem commands_eq_ok (named : ∀ message ∈ o.messages, IsNamed message) : o.commands =
    .ok (o.messages.map fun message => Command.ofWire .preserve (Text.trim message)) := by
  unfold Options.commands
  generalize o.messages = messages at named
  induction messages with
  | nil => rfl
  | cons message rest ih =>
    obtain ⟨own, others⟩ := List.forall_mem_cons.mp named
    rw [List.mapM_cons, command?_of_isNamed own, ih others]
    rfl

/-- Messages of which one has no name are refused. -/
theorem commands_eq_error (unnamed : ∃ message ∈ o.messages, ¬ IsNamed message) :
    ∃ message, o.commands = .error (.notCommand message) := by
  unfold Options.commands
  generalize o.messages = messages at unnamed
  induction messages with
  | nil => simp at unnamed
  | cons message rest ih =>
    rw [List.mapM_cons]
    by_cases own : IsNamed message
    · obtain ⟨other, mem, its⟩ := unnamed
      have later : other ∈ rest := (List.mem_cons.mp mem).resolve_left fun same => its (same ▸ own)
      obtain ⟨refused, fault⟩ := ih ⟨other, later, its⟩
      rw [command?_of_isNamed own, fault]
      exact ⟨refused, rfl⟩
    · rw [command?_of_not_isNamed own]
      exact ⟨message, rfl⟩

/-- What the probe begins with is described by the settings, started, and sent the commands. -/
theorem begin_eq_ok_iff : begin settings commands connector = .ok e ↔ ∃ e₁ e₂,
    ofSettings settings connector = .ok e₁ ∧
      { e₁ with completesAtOnce := true }.start = .ok e₂ ∧
        e = commands.foldl (fun e command => (e.send command).2) e₂ := by
  constructor
  · intro begun
    obtain ⟨e₁, described, begun⟩ := exists_of_bind begun
    obtain ⟨e₂, started, sent⟩ := exists_of_bind begun
    exact ⟨e₁, e₂, described, started, (Except.ok.inj sent).symm⟩
  · rintro ⟨e₁, e₂, described, started, rfl⟩
    rw [begin, described]
    simp only [Except.bind, bind, started]
    rfl

/-- Valid settings and commands begin with an engine. -/
theorem exists_begin (valid : settings.validate = .ok ()) (commands : List Command)
    (connector : Connector) : ∃ e, begin settings commands connector = .ok e := by
  obtain ⟨e₁, described, -⟩ := exists_describes (Settings.validate_eq_ok_iff.mp valid) connector
  have fresh := ofSettings_eq described
  have started : ∃ e₂, { e₁ with completesAtOnce := true }.start = .ok e₂ := by
    rw [fresh]
    exact ⟨_, rfl⟩
  obtain ⟨e₂, started⟩ := started
  exact ⟨_, begin_eq_ok_iff.mpr ⟨e₁, e₂, described, started, rfl⟩⟩

/-- What the probe begins with is reached by a run of an engine to which nothing had happened. -/
theorem exists_run_of_begin (begun : begin settings commands connector = .ok e) :
    ∃ e₀ : Engine, e₀.Fresh ∧ ∃ requests, e = e₀.run requests := by
  obtain ⟨e₁, e₂, described, started, rfl⟩ := begin_eq_ok_iff.mp begun
  obtain ⟨e₀, fresh, configured⟩ := exists_fresh_of_ofSettings described true
  have first : (e₀.run [.configure settings.connections.toList]).run [.start] = e₂ := by
    rw [← configured, Engine.run, List.foldl_cons, handle, started]
    rfl
  refine ⟨e₀, fresh, .configure settings.connections.toList :: .start :: commands.map .send, ?_⟩
  have sent : commands.foldl (fun e command => (e.send command).2) e₂ =
      e₂.run (commands.map .send) := by
    rw [Engine.run, List.foldl_map]
    rfl
  rw [sent, ← first, ← run_append, ← run_append]
  rfl

/-- The start and every command are chances. -/
theorem vain_of_begin (begun : begin settings commands connector = .ok e)
    (prompt : ∀ entry ∈ settings.connections.toList, entry.2.retryDelayMs = 0)
    (unopened : e.history.sessions = 0) :
    e.Vain settings.connections.toList (commands.length + 1) := by
  obtain ⟨e₁, e₂, described, started, rfl⟩ := begin_eq_ok_iff.mp begun
  have before : Engine.Vain settings.connections.toList 0 { e₁ with completesAtOnce := true } := by
    have vain := vain_ofSettings described
    exact ⟨vain.named, vain.vain, ⟨vain.idle.commands, vain.idle.departures⟩, vain.running,
      vain.calls, vain.asked⟩
  have first : e₂.history.sessions = 0 :=
    Nat.le_zero.mp (unopened ▸ sessions_le_sends e₂ commands)
  have sent := (before.start prompt started first).sends prompt commands unopened
  rwa [Nat.zero_add, Nat.add_comm 1] at sent

/-- Polling is a request. -/
theorem exists_run_polled (e : Engine) : ∃ requests, polled e = e.run requests := by
  refine ⟨[.poll (e.inboxes.foldl (fun n inbox => n + inbox.commands.length) 0 +
    e.departures.length + 1)], ?_⟩
  rw [polled]
  simp only [Engine.run, List.foldl_cons, List.foldl_nil, handle]
  cases e.poll (e.inboxes.foldl (fun n inbox => n + inbox.commands.length) 0 +
    e.departures.length + 1) with
  | none => rfl
  | some answer => rfl

/-- All that the probe does from its start on is a run. -/
theorem exists_run_tickUntil (o : Options) (meanwhile : Nat → List Request)
    (patience round : Nat) (e : Engine) :
    ∃ requests, tickUntil o meanwhile patience round e = e.run requests := by
  induction patience generalizing round e with
  | zero => exact exists_run_polled e
  | succ patience ih =>
    obtain ⟨first, polled⟩ := exists_run_polled e
    rw [tickUntil, polled]
    by_cases stopped : isOver o.durationMs (e.run first) = true
    · rw [if_pos stopped]
      exact ⟨first, rfl⟩
    · rw [if_neg stopped]
      obtain ⟨later, ticked⟩ := ih (round + 1)
        (((e.run first).run (meanwhile round)).wait (max o.tickMs 1))
      refine ⟨first ++ meanwhile round ++ .wait (max o.tickMs 1) :: later, ?_⟩
      rw [ticked, run_append, run_append]
      rfl

/-- What is on record at the end of a run began with nothing, and went on from the start. -/
theorem record_of_tickUntil (begun : begin settings commands connector = .ok e) (o : Options)
    (meanwhile : Nat → List Request) (patience round : Nat) :
    (tickUntil o meanwhile patience round e).history.Numbered ∧
      e.history.sessions ≤ (tickUntil o meanwhile patience round e).history.sessions ∧
      ∃ es, History.start.GoesOn es (tickUntil o meanwhile patience round e).history := by
  obtain ⟨e₀, fresh, before, rfl⟩ := exists_run_of_begin begun
  obtain ⟨later, ticked⟩ := exists_run_tickUntil o meanwhile patience round (e₀.run before)
  obtain ⟨_, on⟩ := goesOn_of_moves (run_moves (e₀.run before) later) (sound_of_run fresh before)
  obtain ⟨es, whole⟩ := goesOn_of_moves (run_moves e₀ (before ++ later)) (sound_of_fresh fresh)
  rw [ticked]
  rw [run_append] at whole
  have sound := sound_of_run fresh (before ++ later)
  rw [run_append] at sound
  exact ⟨sound.orderly.numbered, on.sessions_le, es, fresh.history ▸ whole⟩

/-- Polling does nothing where nothing waits. -/
theorem polled_of_idle (idle : e.Idle) : polled e = e := by
  rw [polled, idle.poll]

/-- Where nobody was reached, the probe does nothing but wait, until it stops by itself or is
interrupted. -/
theorem exists_tickUntil_eq_wait {entries : List (String × ConnectionSettings)} {chances : Nat}
    (vain : e.Vain entries chances) (o : Options) {meanwhile : Nat → List Request}
    (peers : ∀ round, ∀ request ∈ meanwhile round, request.FromPeer) (patience round : Nat) :
    ∃ ms, tickUntil o meanwhile patience round e = e.wait ms ∧
      (isOver o.durationMs (e.wait ms) = true ∨ patience ≤ ms) := by
  induction patience generalizing round e with
  | zero => exact ⟨0, polled_of_idle vain.idle, .inr (Nat.le_refl 0)⟩
  | succ patience ih =>
    rw [tickUntil, polled_of_idle vain.idle]
    by_cases stopped : isOver o.durationMs e = true
    · rw [if_pos stopped]
      exact ⟨0, rfl, .inl stopped⟩
    · rw [if_neg stopped, vain.run_peers (peers round)]
      obtain ⟨ms, ticked, ended⟩ := ih (vain.wait (max o.tickMs 1)) (round + 1)
      have waited : (e.wait (max o.tickMs 1)).wait ms = e.wait (max o.tickMs 1 + ms) := by
        simp only [Engine.wait, Nat.add_assoc]
      rw [waited] at ticked ended
      refine ⟨_, ticked, ended.imp id fun more => ?_⟩
      omega

/-- All that is echoed of an engine that reached nobody is the request to shut down, if it was
made. -/
theorem echoes_of_vain {entries : List (String × ConnectionSettings)} {chances : Nat}
    (vain : e.Vain entries (chances + 1)) (numbered : e.history.Numbered)
    (unopened : e.history.sessions = 0) : e.history.journal.reverse.filterMap echoOf? =
      if alarms entries then ["shutdown requested"] else [] := by
  have told : ∀ entry ∈ e.history.journal.reverse,
      echoOf? entry = entry.hostCall?.bind echo? := by
    intro entry mem
    cases entry with
    | framed session payload =>
      have opened := numbered _ (List.mem_reverse.mp mem) session rfl
      rw [unopened] at opened
      exact absurd opened (Nat.not_lt_zero session)
    | _ => rfl
  have asked : e.history.shutdownRequested = alarms entries := by simp [vain.asked]
  have calls : e.history.hostCalls.filterMap echo? =
      if alarms entries then ["shutdown requested"] else [] := by
    rw [vain.calls, asked]
    split <;> rfl
  rw [List.filterMap_congr told, ← calls, History.hostCalls, List.filterMap_filterMap]

/-- The line that tells of a connection after so many chances, all of them in vain. -/
def lineInVain (chances : Nat) (entry : String × ConnectionSettings) : String :=
  "status " ++ entry.1 ++ " " ++ entry.2.endpoint ++ " " ++
    (if entry.2.attempts.isExhausted chances then "giving_up" else "connecting") ++ " attempts=" ++
      toString (entry.2.attempts.spent chances)

/-- The lines that tell of connections after so many chances, all of them in vain. -/
theorem statusLines_of_vain {entries : List (String × ConnectionSettings)} {chances : Nat}
    (vain : e.Vain entries (chances + 1)) :
    statusLines e = entries.map (lineInVain (chances + 1)) := by
  rw [statusLines, Engine.status, ← vain.named, List.map_map, List.map_map]
  refine List.map_congr_left fun c mem => ?_
  have its := vain.vain c mem
  have state := its.state
  rw [if_neg (Nat.succ_ne_zero chances)] at state
  have label : c.state.label =
      if c.settings.attempts.isExhausted (chances + 1) then "giving_up" else "connecting" := by
    rw [state]
    split <;> rfl
  simp only [Function.comp_apply, statusLine, Connection.status, lineInVain, label, its.spent]

/-- The outcome of a run whose attempts all fail: it succeeds unless the host was asked to shut
down, and tells of this and of every connection. -/
theorem finish_of_vain {entries : List (String × ConnectionSettings)} {chances : Nat}
    (vain : e.Vain entries (chances + 1)) (numbered : e.history.Numbered)
    (unopened : e.history.sessions = 0) : finish e = ⟨!alarms entries,
      String.join (((if alarms entries then ["shutdown requested"] else []) ++
        entries.map (lineInVain (chances + 1))).map (· ++ "\n")), ""⟩ := by
  have asked : e.history.shutdownRequested = alarms entries := by simp [vain.asked]
  rw [finish, statusLines_of_vain vain, shutdownRequested, vain.history_shutdown,
    echoes_of_vain vain numbered unopened, asked]

/-- The probe leaves behind what its options lead to. -/
theorem run_of_ok {c : Course} {arguments : List String} {outcome : Outcome}
    (parsed : Invocation.parse arguments = .ok (.run o)) (ran : o.run s c = .ok outcome) :
    run s c arguments = outcome := by
  simp only [run, parsed, ran]

/-- The probe leaves behind what its options are refused for. -/
theorem run_of_error {c : Course} {arguments : List String} {fault : Fault}
    (parsed : Invocation.parse arguments = .ok (.run o)) (refused : o.run s c = .error fault) :
    run s c arguments = fault.outcome := by
  simp only [run, parsed, refused]

/-- Let settings be resolved in which no connection waits between attempts, and let all messages
have names. Then the probe begins with an engine, whatever happens later. If all attempts up to the
end fail, while only peers do anything, then the probe prints one line for each connection, in
ascending order of the names, with as many attempts as there were chances and the limit allows. The
request to shut down is printed before them, and the probe fails, exactly if a connection is
required and allowed an attempt. If time is limited, the probe ends by itself. Where a message has
no name, or the settings are refused, there is nothing to begin with, and nothing is printed but
what is wrong. -/
theorem run_unreached {arguments : List String}
    (parsed : Invocation.parse arguments = .ok (.run o)) (s : Surroundings) :
    (∀ settings, o.settings s = .ok settings →
      (∀ entry ∈ settings.connections.toList, entry.2.retryDelayMs = 0) →
      (∀ message ∈ o.messages, IsNamed message) →
      ∀ c : Course, (∀ round, ∀ request ∈ c.meanwhile round, request.FromPeer) →
        ∃ commands e₀, o.commands = .ok commands ∧
          begin settings commands c.connector = .ok e₀ ∧
          let e := tickUntil o c.meanwhile c.patience 0 e₀
          let entries := settings.connections.toList
          e.history.Unreached →
            run s c arguments = ⟨!alarms entries,
              String.join (((if alarms entries then ["shutdown requested"] else []) ++
                entries.map (lineInVain (o.messages.length + 1))).map (· ++ "\n")), ""⟩ ∧
            entries.Pairwise (fun a b => a.1 < b.1) ∧
            ∀ d, o.durationMs = some d → d ≤ c.patience → isOver o.durationMs e = true) ∧
    ((∃ message ∈ o.messages, ¬ IsNamed message) ∨ (∃ fault, o.settings s = .error fault) →
      (¬ ∃ settings commands, o.settings s = .ok settings ∧ o.commands = .ok commands) ∧
      ∃ fault : Fault, ∀ c, run s c arguments = ⟨false, "", fault.message ++ "\n"⟩) := by
  constructor
  · intro settings resolved prompt named c peers
    have commands := commands_eq_ok named
    obtain ⟨e₀, begun⟩ := exists_begin (validate_of_settings resolved)
      (o.messages.map fun message => Command.ofWire .preserve (Text.trim message)) c.connector
    refine ⟨_, e₀, commands, begun, ?_⟩
    intro e entries unreached
    have through : run s c arguments = finish e := by
      refine run_of_ok parsed ?_
      rw [Options.run, resolved, commands]
      simp only [Except.bind, bind, begun, Except.mapError]
      rfl
    obtain ⟨numbered, before, es, on⟩ := record_of_tickUntil begun o c.meanwhile c.patience 0
    have unopened : e.history.sessions = 0 := unreached.sessions_eq on
    have vain := vain_of_begin begun prompt (Nat.le_zero.mp (unopened ▸ before))
    rw [List.length_map] at vain
    obtain ⟨ms, waited, ended⟩ := exists_tickUntil_eq_wait vain o peers c.patience 0
    have same : e = e₀.wait ms := waited
    have still : e.Vain entries (o.messages.length + 1) := same ▸ vain.wait ms
    refine ⟨through.trans (finish_of_vain still numbered unopened), settings.connections.ordered,
      fun d finite within => ?_⟩
    rw [same]
    rcases ended with stopped | late
    · exact stopped
    · have past : d ≤ (e₀.wait ms).history.now :=
        Nat.le_trans within (Nat.le_trans late (Nat.le_add_left ms e₀.history.now))
      simp [isOver, finite, past]
  · intro refused
    cases resolved : o.settings s with
    | error fault =>
      refine ⟨?_, fault, fun c => run_of_error parsed (by rw [Options.run, resolved]; rfl)⟩
      rintro ⟨settings, commands, accepted, -⟩
      cases accepted
    | ok settings =>
      have unnamed := refused.resolve_right (by simp [resolved])
      obtain ⟨message, faulty⟩ := commands_eq_error unnamed
      refine ⟨?_, .notCommand message, fun c => run_of_error parsed ?_⟩
      · rintro ⟨settings, commands, -, accepted⟩
        rw [faulty] at accepted
        cases accepted
      · rw [Options.run, resolved, faulty]
        rfl

/-- A required peer is not reached at the start, nor when the first of two messages is sent: then
it is given up. A message without a name is refused. -/
theorem run_unreached_required :
    let s : Surroundings := ⟨fun _ => none, fun _ => .error "no file"⟩
    let arguments := ["--host", "h", "--attempts", "2", "--require", "--send", "a",
      "--send", "b?c=d", "--duration-ms", "9"]
    run s (.quiet (fun _ _ _ => false) 9) arguments =
      ⟨false, "shutdown requested\nstatus peer h:5050 giving_up attempts=2\n", ""⟩ ∧
    ∃ fault : Fault, ∀ c, run s c ["--host", "h", "--send", "a", "--send", "?c=d"] =
      ⟨false, "", fault.message ++ "\n"⟩ := by
  intro s arguments
  constructor
  · have parsed : Invocation.parse arguments = .ok (.run { Options.default with
        host := some "h"
        attempts := some 2
        required := true
        messages := ["a", "b?c=d"]
        durationMs := some 9 }) := by decide +kernel
    obtain ⟨reached, -⟩ := run_unreached parsed s
    obtain ⟨commands, e₀, commanded, begun, outcome⟩ := reached
      (Settings.default.withConnection "peer" { ConnectionSettings.ofHost "h" with
        attempts := .bounded 2
        required := true }) rfl (by decide +kernel) (by unfold IsNamed; decide +kernel)
      (.quiet (fun _ _ _ => false) 9) (fun _ _ mem => absurd mem List.not_mem_nil)
    cases commanded
    cases begun
    obtain ⟨printed, -⟩ := outcome (by unfold History.Unreached; decide +kernel)
    exact printed.trans (by decide +kernel)
  · have parsed : Invocation.parse ["--host", "h", "--send", "a", "--send", "?c=d"] =
        .ok (.run { Options.default with host := some "h", messages := ["a", "?c=d"] }) := by
      decide +kernel
    obtain ⟨-, refused⟩ := run_unreached parsed s
    exact (refused (.inl ⟨"?c=d", by decide, by unfold IsNamed; decide +kernel⟩)).2

end Probe

end Backbox
