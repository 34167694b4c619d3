import Mathlib.Data.List.Perm.Basic
import Backbox.Proofs.Engine.Reply
import Backbox.Proofs.Engine.Setup
import Backbox.Proofs.Engine.Silence

/-!
# Exchanges between engines

An engine without handlers speaks of its own accord only where it greets its peers and takes its
leave of them. Everything else that it says, the host says through it, or it answers a line that it
has read: while a poll dispatches the command, or later, when the host completes the event of a
trigger. Each connection accepts no more such replies than commands were dispatched, and another
engine without handlers that reads them has nothing to reply.
-/

namespace Backbox.Engine

open Relation

/-- What is added to the journal from one engine to another, in its order. -/
def added (e e' : Engine) : List Effect :=
  (e'.history.journal.take (e'.history.journal.length - e.history.journal.length)).reverse

/-- The replies in a run: the messages that connections accept without the host speaking, each with
the name of the connection. -/
def replies (e : Engine) : List Request → List (String × String)
  | [] => []
  | request :: rest =>
    let e' := (e.handle request).2
    (if request.speaks then [] else (e.added e').filterMap Effect.accepted?) ++ e'.replies rest

/-- The lines that were read on all sessions, session by session. -/
def linesRead (e : Engine) : List Bytes := e.history.linesRead (List.range e.history.sessions)

/-- A line that was read draws this reply. -/
def Draws (e : Engine) (reply : Command) : Prop :=
  ∃ line ∈ e.linesRead, (Reaction.ofLine e.valueCase line).Answers (some reply)

/-- The number of events that the host is to complete before something follows. -/
def owed (e : Engine) : Nat := e.pending.countP (·.completion.isSome)

/-- The number of commands that were dispatched. -/
def dispatched (e : Engine) : Nat := e.history.journal.countP Effect.dispatches

/-- Nothing but replies that lines have drawn is to follow when the host completes events. -/
def Owes (e : Engine) : Prop :=
  ∀ event ∈ e.pending, ∀ completion ∈ event.completion,
    ∃ reply, completion = .reply reply ∧ e.Draws reply

variable {names : List String} {e e' e'' : Engine} {es : List Effect} {reply : Command}

/-- What is added is what the history goes on by. -/
theorem added_eq (on : e.history.GoesOn es e'.history) : e.added e' = es := by
  have count : es.reverse.length =
      e'.history.journal.length - e.history.journal.length := by
    rw [on.journal, List.length_append, Nat.add_sub_cancel]
  rw [added, ← count, on.journal, List.take_left, List.reverse_reverse]

/-- What was drawn stays drawn. -/
theorem Draws.mono (drawn : e.Draws reply) (on : e.history.GoesOn es e'.history)
    (same : e'.valueCase = e.valueCase) : e'.Draws reply := by
  obtain ⟨line, mem, answers⟩ := drawn
  refine ⟨line, ?_, same ▸ answers⟩
  obtain ⟨id, known, mem⟩ := List.mem_flatMap.mp mem
  refine List.mem_flatMap.mpr ⟨id, ?_, ?_⟩
  · exact List.mem_range.mpr (Nat.lt_of_lt_of_le (List.mem_range.mp known) on.sessions_le)
  · obtain ⟨more, bytes⟩ := SessionLog.bytes_prefix_after (e.history.log id) id es
    rw [History.log_of_goesOn on, ← bytes, Line.linesOf_append]
    exact List.mem_append_left _ mem

/-- The commands that were dispatched before and since are counted together. -/
theorem dispatched_eq (on : e.history.GoesOn es e'.history) :
    e'.dispatched = es.countP Effect.dispatches + e.dispatched := by
  rw [dispatched, on.journal, List.countP_append, List.countP_reverse, dispatched]

/-- A command that waits was told by a line that was read. -/
theorem Sound.exists_line (sound : Sound ⟨names, e⟩) {i : Inbox} (hi : i ∈ e.inboxes)
    {command : Command} (mem : command ∈ i.commands) :
    ∃ line ∈ e.linesRead, Line.said e.valueCase line = .command command := by
  obtain ⟨c, hc, its⟩ := List.mem_map.mp (sound.inboxes ▸ List.mem_map_of_mem hi)
  obtain ⟨l, hl, name, present⟩ := sound.alive c hc
  have agrees := sound.agree c hc i hi l hl its.symm name present
  have told : command ∈ l.dispatched ++ i.commands := List.mem_append_right _ mem
  rw [← agrees.incoming.heard.commands] at told
  obtain ⟨said, heard, its⟩ := List.mem_filterMap.mp told
  obtain ⟨line, read, rfl⟩ := List.mem_map.mp (List.takeWhile_subset _ heard)
  obtain ⟨id, opened, mem⟩ := List.mem_flatMap.mp read
  have known := List.mem_range.mpr (sound.orderly.opened_lt l hl id opened)
  refine ⟨line, List.mem_flatMap.mpr ⟨id, known, mem⟩, ?_⟩
  cases said : Line.said e.valueCase line with
  | command read =>
    rw [said] at its
    rw [Option.some.inj its]
  | frame | hello | goodbye =>
    rw [said] at its
    cases its

/-- Each connection accepts a command once at most. -/
theorem send_entries (sound : Sound ⟨names, e⟩) (command : Command) :
    ∃ es, e.history.GoesOn es (e.send command).2.history ∧
      (∀ pair ∈ es.filterMap Effect.accepted?, pair.2 = command.toWire) ∧
      ∀ name, (es.filterMap Effect.accepted?).countP (·.1 = name) ≤ 1 := by
  obtain ⟨es, on, sublist⟩ := sendOver_entries command.toWire e.registry e.history
  refine ⟨es, on, fun pair mem => ?_, fun name => ?_⟩
  · obtain ⟨c, -, rfl⟩ := List.mem_map.mp (sublist.subset mem)
    rfl
  · have once := List.nodup_iff_count_le_one.mp sound.names name
    refine (sublist.countP_le).trans ?_
    rw [List.countP_map]
    rw [List.count, List.countP_map] at once
    exact once

/-- An answer is carried out: connections accept nothing else, and each of them accepts it once at
most, now or when the host has completed an event. -/
structure Carries (e : Engine) (answer : Option Command) (es : List Effect) (e' : Engine) :
    Prop where
  on : e.history.GoesOn es e'.history
  single : ∀ pair ∈ es.filterMap Effect.accepted?, ∃ reply ∈ answer, pair.2 = reply.toWire
  count : ∀ name, (es.filterMap Effect.accepted?).countP (·.1 = name) + e'.owed ≤ e.owed + 1
  pending : ∀ event ∈ e'.pending, event ∈ e.pending ∨
    ∀ completion ∈ event.completion, ∃ reply ∈ answer, completion = .reply reply

private theorem carries_of_tell {answer : Option Command} {call : HostCall}
    (told : e'.history = e.history.tell call) (owed : e'.owed ≤ e.owed + 1)
    (pending : ∀ event ∈ e'.pending, event ∈ e.pending ∨
      ∀ completion ∈ event.completion, ∃ reply ∈ answer, completion = .reply reply) :
    e.Carries answer [.host call] e' where
  on := told ▸ .record _ rfl
  single _ mem := absurd mem List.not_mem_nil
  count _ := (Nat.zero_add _).trans_le owed
  pending := pending

-- What the host is told first is no message.
private theorem carries_of_send (sound : Sound ⟨names, e'⟩) (calls : List HostCall)
    (told : e.history.GoesOn (calls.map .host) e'.history) (pending : e'.pending = e.pending)
    (reply : Command) : ∃ es, e.Carries (some reply) es (e'.send reply).2 := by
  obtain ⟨es, on, single, once⟩ := send_entries sound reply
  have quiet : (calls.map Effect.host).filterMap Effect.accepted? = [] := by
    rw [List.filterMap_map, List.filterMap_eq_nil_iff]
    exact fun _ _ => rfl
  refine ⟨_, told.trans on, ?_, ?_, fun _ mem => .inl (pending ▸ mem)⟩
  · rw [List.filterMap_append, quiet, List.nil_append]
    exact fun pair mem => ⟨reply, rfl, single pair mem⟩
  · intro name
    have same : (e'.send reply).2.owed = e.owed := congrArg (List.countP _) pending
    rw [List.filterMap_append, quiet, List.nil_append, same, Nat.add_comm e.owed]
    exact Nat.add_le_add_right (once name) _

/-- Every answer is carried out: not at all, at once, or when the host has completed an event. -/
theorem react_carries (sound : Sound ⟨names, e⟩) {reaction : Reaction} {answer : Option Command}
    (answers : reaction.Answers answer) : ∃ es, e.Carries answer es (react reaction e) := by
  cases answers with
  | silent =>
    exact ⟨[], .refl _, fun _ mem => absurd mem List.not_mem_nil,
      fun _ => (Nat.zero_add _).trans_le (Nat.le_succ _), fun _ mem => .inl mem⟩
  | setSwitch name active logical =>
    exact ⟨_, carries_of_tell rfl (Nat.le_succ _) fun _ mem => .inl mem⟩
  | post event fields =>
    rw [react]
    split
    · exact ⟨_, carries_of_tell rfl (Nat.le_succ _) fun _ mem => .inl mem⟩
    · refine ⟨_, carries_of_tell rfl ?_ fun event mem => (List.mem_append.mp mem).imp_right ?_⟩
      · simp [react, owed]
      · intro new
        simp [List.mem_singleton.mp new]
  | atOnce reply => exact carries_of_send sound [] (.refl _) rfl reply
  | onCompletion event fields reply =>
    rw [react]
    split
    · exact carries_of_send (sound.tell (.post event fields true)) [.post event fields true]
        (.record _ rfl) rfl reply
    · refine ⟨_, carries_of_tell rfl ?_ fun event mem => (List.mem_append.mp mem).imp_right ?_⟩
      · simp [react, owed]
      · intro new
        simp [List.mem_singleton.mp new]

/-- From one engine to another there are only replies that lines have drawn, and each connection
accepts no more of them, with those that are still owed, than commands are dispatched and replies
were owed. -/
structure Replying (e : Engine) (replies : List (String × String)) (e' : Engine) : Prop where
  draws : ∀ {reply}, e.Draws reply → e'.Draws reply
  drawn : ∀ pair ∈ replies, ∃ reply, pair.2 = reply.toWire ∧ e'.Draws reply
  count : ∀ name, replies.countP (·.1 = name) + e'.owed + e.dispatched ≤ e'.dispatched + e.owed
  owes : e'.Owes

namespace Replying

variable {replies more : List (String × String)}

/-- What is said to the host or by it, and what happens meanwhile, is no reply. -/
theorem silent (owes : e.Owes) (on : e.history.GoesOn es e'.history)
    (same : e'.valueCase = e.valueCase) (pending : e'.pending.Sublist e.pending) :
    e.Replying [] e' := by
  refine ⟨fun drawn => drawn.mono on same, fun _ mem => absurd mem List.not_mem_nil, ?_, ?_⟩
  · intro name
    have fewer : e'.owed ≤ e.owed := pending.countP_le
    rw [dispatched_eq on, List.countP_nil]
    omega
  · intro event mem completion follows
    obtain ⟨reply, its, drawn⟩ := owes event (pending.subset mem) completion follows
    exact ⟨reply, its, drawn.mono on same⟩

/-- One thing happens after another. -/
theorem trans (first : e.Replying replies e') (second : e'.Replying more e'') :
    e.Replying (replies ++ more) e'' := by
  refine ⟨fun drawn => second.draws (first.draws drawn), ?_, ?_, second.owes⟩
  · intro pair mem
    rcases List.mem_append.mp mem with mem | mem
    · obtain ⟨reply, its, drawn⟩ := first.drawn pair mem
      exact ⟨reply, its, second.draws drawn⟩
    · exact second.drawn pair mem
  · intro name
    have before := first.count name
    have after := second.count name
    rw [List.countP_append]
    omega

/-- An answer that a line drew is carried out when a command was dispatched for it, or it was
owed. -/
theorem of_carries {answer : Option Command} {more : List Effect}
    (carries : e'.Carries answer more e'') (same' : e''.valueCase = e'.valueCase)
    (owes : e'.Owes) (drawn : ∀ reply ∈ answer, e'.Draws reply)
    (on : e.history.GoesOn es e'.history) (same : e'.valueCase = e.valueCase)
    (quiet : es.filterMap Effect.accepted? = [])
    (credit : e'.owed + 1 + e.dispatched ≤ e'.dispatched + e.owed) :
    e.Replying ((es ++ more).filterMap Effect.accepted?) e'' := by
  obtain ⟨on', single, count, pending⟩ := carries
  have later {reply : Command} (mem : reply ∈ answer) : e''.Draws reply :=
    (drawn reply mem).mono on' same'
  rw [List.filterMap_append, quiet, List.nil_append]
  refine ⟨fun before => (before.mono on same).mono on' same', ?_, ?_, ?_⟩
  · intro pair mem
    obtain ⟨reply, its, told⟩ := single pair mem
    exact ⟨reply, told, later its⟩
  · intro name
    have := count name
    rw [dispatched_eq on']
    omega
  · intro event mem completion follows
    rcases pending event mem with old | new
    · obtain ⟨reply, its, drawn⟩ := owes event old completion follows
      exact ⟨reply, its, drawn.mono on' same'⟩
    · obtain ⟨reply, its, rfl⟩ := new completion follows
      exact ⟨reply, rfl, later its⟩

end Replying

/-- An engine goes on, and all that it says meanwhile are replies. -/
def Replies (e e' : Engine) : Prop :=
  ∃ es, e.history.GoesOn es e'.history ∧ e.Replying (es.filterMap Effect.accepted?) e'

/-- One thing happens after another. -/
theorem Replies.trans (first : e.Replies e') (second : e'.Replies e'') : e.Replies e'' := by
  obtain ⟨es, on, replying⟩ := first
  obtain ⟨more, on', replying'⟩ := second
  refine ⟨es ++ more, on.trans on', ?_⟩
  rw [List.filterMap_append]
  exact replying.trans replying'

/-- Where nothing is said there are only replies. -/
theorem Replies.silent (owes : e.Owes) (on : e.history.GoesOn es e'.history)
    (quiet : es.filterMap Effect.accepted? = []) (same : e'.valueCase = e.valueCase)
    (pending : e'.pending.Sublist e.pending) : e.Replies e' :=
  ⟨es, on, quiet ▸ .silent owes on same pending⟩

/-- Nothing but replies is owed then. -/
theorem Replies.owes (replies : e.Replies e') : e'.Owes := by
  obtain ⟨es, -, replying⟩ := replies
  exact replying.owes

/-- Dispatching a command without handlers, an engine replies to a line that it has read. -/
theorem dispatch_replies (sound : Sound ⟨names, e⟩) (alone : e.handlers = []) (owes : e.Owes)
    {name : String} {command : Command} (taken : e.takeCommand name = some (command, e')) :
    e.Replies (e'.dispatch name command) := by
  have parted := sound.dispatch taken
  obtain ⟨⟨i, hi, -, rest, first⟩, rfl⟩ := takeCommand_eq taken
  obtain ⟨line, read, told⟩ := sound.exists_line hi (first ▸ List.mem_cons_self)
  obtain ⟨answer, answers, -⟩ := Reaction.answers_ofLine e.valueCase line
  have own : Reaction.ofLine e.valueCase line =
      .ofCommand (fun name => List.lookup name e.handlers) command := by
    rw [alone, Reaction.ofLine, told]
    rfl
  obtain ⟨more, carries⟩ := react_carries parted (own ▸ answers)
  have on := History.GoesOn.record e.history (e := .dispatched name command) rfl
  refine ⟨_, on.trans carries.on, .of_carries carries ?_ ?_ ?_ on rfl rfl ?_⟩
  · exact (congrArg Engine.valueCase (setup_react _ _) :)
  · intro event mem completion follows
    obtain ⟨reply, its, drawn⟩ := owes event mem completion follows
    exact ⟨reply, its, drawn.mono on rfl⟩
  · exact fun reply mem => Draws.mono ⟨line, read, mem ▸ answers⟩ on rfl
  · change e.owed + 1 + e.dispatched ≤
      (Effect.dispatched name command :: e.history.journal).countP Effect.dispatches + e.owed
    rw [List.countP_cons_of_pos rfl, dispatched]
    omega

/-- Completing an event, an engine sends the reply that it owes, if it owes one. -/
theorem complete_replies (sound : Sound ⟨[], e⟩) (owes : e.Owes) {index : Nat} {event : String}
    (completed : e.complete index = some (event, e')) : e.Replies e' := by
  unfold complete at completed
  split at completed
  · cases completed
  · next known found =>
    obtain ⟨-, rfl⟩ := Prod.mk.inj (Option.some.inj completed)
    obtain ⟨bound, rfl⟩ := List.getElem?_eq_some_iff.mp found
    have fewer := e.pending.eraseIdx_sublist index
    split
    · next completion follows =>
      obtain ⟨reply, rfl, drawn⟩ := owes _ (List.getElem_mem bound) _ follows
      have sound₁ := sound_of_moves
        (.single (.act (.setPending (e.pending.eraseIdx index)))) sound
      obtain ⟨more, carries⟩ := react_carries sound₁ (.atOnce reply)
      refine ⟨[] ++ more, carries.on, .of_carries carries rfl ?_ ?_ (.refl _) rfl rfl ?_⟩
      · exact fun other mem => owes other (fewer.subset mem)
      · exact fun other mem => Option.some.inj mem ▸ drawn
      · have split := (List.getElem_cons_eraseIdx_perm bound).countP_eq (·.completion.isSome)
        rw [List.countP_cons_of_pos (by rw [follows]; rfl)] at split
        exact Nat.le_of_eq ((congrArg (· + e.dispatched) split).trans (Nat.add_comm ..))
    · exact .silent owes (.refl _) rfl rfl fewer

/-- In a poll, an engine without handlers only replies. -/
theorem poll_replies (sound : Sound ⟨[], e⟩) (alone : e.handlers = []) (owes : e.Owes)
    {bound count : Nat} (polled : e.poll bound = some (count, e')) : e.Replies e' := by
  refine (poll_keeps (p := fun names e' => Sound ⟨names, e'⟩ ∧ e'.handlers = [] ∧ e.Replies e')
    ?_ ?_ ?_ polled ⟨sound, alone, .silent owes (.refl _) rfl rfl (.refl _)⟩).2.2
  · rintro names d d' name command taken ⟨sound, alone, replies⟩
    refine ⟨sound_of_moves (dispatch_moves taken) sound, ?_,
      replies.trans (dispatch_replies sound alone replies.owes taken)⟩
    obtain ⟨-, rfl⟩ := takeCommand_eq taken
    exact (congrArg Engine.handlers (setup_react _ _) :).trans alone
  · rintro names rest d name departures ⟨sound, alone, replies⟩
    exact ⟨sound.depart departures, alone,
      replies.trans (.silent replies.owes (.refl _) rfl rfl (.refl _))⟩
  · rintro names d name drained ⟨sound, alone, replies⟩
    exact ⟨sound.remove drained, alone,
      replies.trans (.silent replies.owes (.record _ rfl) rfl rfl (.refl _))⟩

/-- Unless the host speaks, an engine without handlers only replies. -/
theorem handle_replies (sound : Sound ⟨[], e⟩) (alone : e.handlers = []) (owes : e.Owes)
    {request : Request} (mute : request.speaks = false) : e.Replies (e.handle request).2 := by
  by_cases answers : request.answers = true
  · cases request with
    | poll bound =>
      rw [handle]
      split
      · next polled => exact poll_replies sound alone owes polled
      · exact .silent owes (.refl _) rfl rfl (.refl _)
    | complete index =>
      rw [handle]
      split
      · next completed => exact complete_replies sound owes completed
      · exact .silent owes (.refl _) rfl rfl (.refl _)
    | _ => cases answers
  · have other := Bool.eq_false_iff.mpr answers
    obtain ⟨es, on, quiet⟩ := silent_handle sound mute other
    exact .silent owes on quiet (valueCase_handle e request) (pending_handle e other ▸ .refl _)

/-- Whatever is requested of an engine without handlers, its replies are those of this request. -/
theorem handle_replying (sound : Sound ⟨[], e⟩) (alone : e.handlers = []) (owes : e.Owes)
    (request : Request) :
    e.Replying (e.replies [request]) (e.handle request).2 := by
  rw [replies, replies, List.append_nil]
  split
  · next speaks =>
    have other : request.answers = false := by
      cases request with
      | poll | complete => cases speaks
      | _ => rfl
    obtain ⟨es, on⟩ := goesOn_of_moves (handle_moves e request) sound
    exact .silent owes on (valueCase_handle e request) (pending_handle e other ▸ .refl _)
  · next mute =>
    obtain ⟨es, on, replying⟩ := handle_replies sound alone owes (Bool.eq_false_iff.mpr mute)
    rw [added_eq on]
    exact replying

/-- An engine to which nothing has happened yet, without connections and without handlers. -/
structure Plain (e : Engine) : Prop extends e.Fresh where
  handlers : e.handlers = []
  pending : e.pending = []

/-- No handler is registered. -/
def Handlerless (requests : List Request) : Prop :=
  ∀ request ∈ requests, ∀ name handler, request ≠ .register name handler

/-- Whatever happens to an engine without handlers, its replies are those of the run. -/
theorem run_replying (sound : Sound ⟨[], e⟩) (alone : e.handlers = []) (owes : e.Owes)
    {requests : List Request} (handlerless : Handlerless requests) :
    e.Replying (e.replies requests) (e.run requests) := by
  induction requests generalizing e with
  | nil => exact .silent owes (.refl _) rfl (.refl _)
  | cons request rest ih =>
    have first := handle_replying sound alone owes request
    have sound' := sound_of_moves (handle_moves e request) sound
    have alone' : (e.handle request).2.handlers = [] :=
      (handlers_handle e (handlerless request List.mem_cons_self)).trans alone
    have later := ih sound' alone' first.owes fun r mem =>
      handlerless r (List.mem_cons_of_mem _ mem)
    rw [replies, replies, List.append_nil] at first
    exact first.trans later

/-- What an engine without handlers replies in a run. -/
theorem Plain.replying (plain : e.Plain) {requests : List Request}
    (handlerless : Handlerless requests) : e.Replying (e.replies requests) (e.run requests) :=
  run_replying (sound_of_fresh plain.toFresh) plain.handlers
    (fun _ mem => by simp [plain.pending] at mem) handlerless

/-- A line that was read draws one reply at most, and only an error report or the trigger that
answers a callback. -/
theorem Draws.isReply (drawn : e.Draws reply) : reply.IsReply := by
  obtain ⟨line, -, answers⟩ := drawn
  obtain ⟨answer, also, only⟩ := Reaction.answers_ofLine e.valueCase line
  exact only reply (also.unique answers)

/-- There is no storm of replies between engines without handlers. Whatever line arrives, it draws
one reply at most, and what is read of this reply draws none, in whatever letter case values are
read: neither when the command is dispatched nor when the host completes the event that it posts. So
in every run all replies are drawn by lines that were read, each connection accepts no more of them
than commands were dispatched, and an engine that reads only these replies and lines that draw none
never replies. -/
theorem replies_of_run {e₀ : Engine} (plain : e₀.Plain) {requests : List Request}
    (handlerless : Handlerless requests) :
    (∀ valueCase line, ∃ answer, (Reaction.ofLine valueCase line).Answers answer ∧
      ∀ reply ∈ answer, IsOneLine reply.toWire ∧ ∀ otherCase,
        (Reaction.ofLine otherCase (Text.bytes reply.toWire)).Answers none) ∧
    (∀ pair ∈ e₀.replies requests, ∃ reply, pair.2 = reply.toWire ∧
      (e₀.run requests).Draws reply) ∧
    (∀ name, (e₀.replies requests).countP (·.1 = name) ≤ (e₀.run requests).dispatched) ∧
    ∀ d₀ : Engine, d₀.Plain → ∀ more, Handlerless more →
      (∀ line ∈ (d₀.run more).linesRead,
        (Reaction.ofLine (d₀.run more).valueCase line).Answers none ∨
          ∃ pair ∈ e₀.replies requests, line = Text.bytes pair.2) →
      d₀.replies more = [] := by
  have replying := plain.replying handlerless
  refine ⟨fun valueCase line => ?_, replying.drawn, fun name => ?_, ?_⟩
  · obtain ⟨answer, answers, only⟩ := Reaction.answers_ofLine valueCase line
    exact ⟨answer, answers, fun reply mem => ⟨(only reply mem).isOneLine, (only reply mem).silent⟩⟩
  · have count := replying.count name
    have none : e₀.owed = 0 := by rw [owed, plain.pending, List.countP_nil]
    omega
  · intro d₀ plain' more handlerless' reads
    refine List.eq_nil_iff_forall_not_mem.mpr fun pair mem => ?_
    obtain ⟨reply, -, line, read, answers⟩ := (plain'.replying handlerless').drawn pair mem
    have unanswered : (Reaction.ofLine (d₀.run more).valueCase line).Answers none := by
      rcases reads line read with other | ⟨first, told, rfl⟩
      · exact other
      · obtain ⟨reply, message, drawn⟩ := replying.drawn first told
        rw [message]
        exact drawn.isReply.silent _
    cases answers.unique unanswered

/-- A trigger draws the trigger that its callback asks for, which draws nothing. -/
theorem replies_of_run_callback :
    let e₀ := new fun _ _ _ => true
    let d₀ := { new fun _ _ _ => true with valueCase := .lowercase, completesAtOnce := true }
    let before := [Request.configure [("peer", .ofHost "host")], .start]
    let requests := before ++
      [.receive 0 (Text.bytes "trigger?name=a&Callback=B&x=1\n"), .poll 9, .complete 0]
    let more := before ++ [.receive 0 (Text.bytes "trigger?name=B&x=1\n"), .poll 9]
    e₀.Plain ∧ Handlerless requests ∧ d₀.Plain ∧ Handlerless more ∧
      e₀.replies requests = [("peer", "trigger?name=B&x=1")] ∧
      (d₀.run more).dispatched = 1 ∧ d₀.replies more = [] := by
  intro e₀ d₀ before requests more
  have plain : e₀.Plain := ⟨fresh_new _, rfl, rfl⟩
  have plain' : d₀.Plain := ⟨⟨rfl, rfl, rfl, rfl⟩, rfl, rfl⟩
  have handlerless : Handlerless requests := by simp [Handlerless, requests, before]
  have handlerless' : Handlerless more := by simp [Handlerless, more, before]
  have told : e₀.replies requests = [("peer", "trigger?name=B&x=1")] := by decide +kernel
  have read : (d₀.run more).linesRead = [Text.bytes "trigger?name=B&x=1"] := by decide +kernel
  refine ⟨plain, handlerless, plain', handlerless', told, by decide +kernel, ?_⟩
  refine (replies_of_run plain handlerless).2.2.2 d₀ plain' more handlerless' fun line mem => ?_
  rw [read] at mem
  have here : ("peer", "trigger?name=B&x=1") ∈ e₀.replies requests := by
    rw [told]
    exact List.mem_cons_self
  exact .inr ⟨_, here, List.mem_singleton.mp mem⟩

end Backbox.Engine
