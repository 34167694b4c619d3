import Backbox.Proofs.Engine.Registry
import Backbox.Proofs.Text.Blank

/-!
# Batches of connections

Connections are added in batches, all of a batch or none. A batch is legal if every host is more
than blanks, and every name is new and stands in it once. An illegal batch is refused for its first
entry that does not fit, judged by what was there before and by the entries in front of it; and the
engine is the one that it was.
-/

namespace Backbox

/-- Nothing was done with a connection yet. -/
structure Connection.Untried (c : Connection) : Prop where
  state : c.state = .disconnected
  attemptsMade : c.attemptsMade = 0
  session : c.session = none
  messages : c.queue.messages = []

namespace Engine

/-- A batch that can be added to connections of some names. -/
structure Legal (taken : List String) (batch : List (String × ConnectionSettings)) : Prop where
  hosts : ∀ entry ∈ batch, Text.trim entry.2.host ≠ ""
  distinct : (batch.map (·.1)).Nodup
  new : ∀ entry ∈ batch, entry.1 ∉ taken

/-- What an entry does not fit for, given the names that are taken in front of it. A blank host
comes before a name that is taken. -/
inductive Offends (taken : List String) : String × ConnectionSettings → EngineFault → Prop where
  | emptyHost {name : String} {settings : ConnectionSettings}
      (blank : Text.trim settings.host = "") : Offends taken (name, settings) (.emptyHost name)
  | duplicate {name : String} {settings : ConnectionSettings}
      (named : Text.trim settings.host ≠ "") (old : name ∈ taken) :
      Offends taken (name, settings) (.duplicateConnection name)

/-- The first entry of a batch that does not fit, and what it does not fit for. -/
def FirstOffends (taken : List String) (batch : List (String × ConnectionSettings))
    (fault : EngineFault) : Prop :=
  ∃ front entry back, batch = front ++ entry :: back ∧ Legal taken front ∧
    Offends (front.map (·.1) ++ taken) entry fault

variable {e e' : Engine} {taken : List String} {name : String} {settings : ConnectionSettings}
  {entry : String × ConnectionSettings} {rest batch : List (String × ConnectionSettings)}
  {fault : EngineFault}

private theorem isBlankText_eq_false_iff {s : String} :
    Text.isBlankText s = false ↔ Text.trim s ≠ "" := by
  rw [← Bool.not_eq_true, Text.isBlankText_iff]

/-- A batch is legal exactly if nothing is found wrong with it. -/
theorem legal_iff : Legal taken batch ↔ batchFault? taken batch = none := by
  simp only [batchFault?_eq_none_iff, isBlankText_eq_false_iff]
  exact ⟨fun ⟨hosts, distinct, new⟩ => ⟨hosts, distinct, new⟩,
    fun ⟨hosts, distinct, new⟩ => ⟨hosts, distinct, new⟩⟩

/-- A batch is legal if its first entry fits, and the others do with the name of this one taken. -/
theorem legal_cons_iff : Legal taken ((name, settings) :: rest) ↔
    (Text.trim settings.host ≠ "" ∧ name ∉ taken) ∧ Legal (name :: taken) rest := by
  rw [legal_iff, legal_iff, batchFault?, ← isBlankText_eq_false_iff]
  split
  · next blank => simp [blank]
  · next named =>
    split
    · next old => simp [old]
    · next new => simp [named, new]

/-- A batch is refused for its first entry, or for another one if the first entry fits. -/
theorem batchFault?_cons_eq_some_iff :
    batchFault? taken ((name, settings) :: rest) = some fault ↔
      Offends taken (name, settings) fault ∨ (Text.trim settings.host ≠ "" ∧ name ∉ taken) ∧
        batchFault? (name :: taken) rest = some fault := by
  rw [batchFault?]
  split
  · next blank =>
    rw [Text.isBlankText_iff] at blank
    constructor
    · rintro ⟨⟩
      exact .inl (.emptyHost blank)
    · rintro ((_ | named) | ⟨⟨named, -⟩, -⟩)
      · rfl
      · exact absurd blank named
      · exact absurd blank named
  · next named =>
    rw [Text.isBlankText_iff] at named
    split
    · next old =>
      constructor
      · rintro ⟨⟩
        exact .inl (.duplicate named old)
      · rintro ((blank | _) | ⟨⟨-, new⟩, -⟩)
        · exact absurd blank named
        · rfl
        · exact absurd old new
    · next new =>
      constructor
      · exact fun later => .inr ⟨⟨named, new⟩, later⟩
      · rintro ((blank | ⟨-, old⟩) | ⟨-, later⟩)
        · exact absurd blank named
        · exact absurd old new
        · exact later

/-- Only which names are taken counts, not their order. -/
theorem Offends.congr {taken' : List String} (same : ∀ name, name ∈ taken ↔ name ∈ taken')
    (offends : Offends taken entry fault) : Offends taken' entry fault := by
  cases offends with
  | emptyHost blank => exact .emptyHost blank
  | duplicate named old => exact .duplicate named ((same _).mp old)

/-- A batch is refused exactly for its first entry that does not fit. -/
theorem batchFault?_eq_some_iff :
    batchFault? taken batch = some fault ↔ FirstOffends taken batch fault := by
  have shift (taken : List String) (name other : String)
      (front : List (String × ConnectionSettings)) : other ∈ front.map (·.1) ++ name :: taken ↔
        other ∈ name :: (front.map (·.1) ++ taken) :=
    List.perm_middle.mem_iff
  constructor
  · intro refused
    induction batch generalizing taken with
    | nil => cases refused
    | cons entry rest ih =>
      obtain ⟨name, settings⟩ := entry
      rcases batchFault?_cons_eq_some_iff.mp refused with offends | ⟨fits, later⟩
      · exact ⟨[], _, rest, rfl, legal_iff.mpr rfl, offends⟩
      · obtain ⟨front, entry, back, rfl, legal, offends⟩ := ih later
        exact ⟨(name, settings) :: front, entry, back, rfl, legal_cons_iff.mpr ⟨fits, legal⟩,
          offends.congr (shift taken name · front)⟩
  · rintro ⟨front, entry, back, rfl, legal, offends⟩
    induction front generalizing taken with
    | nil => exact batchFault?_cons_eq_some_iff.mpr (.inl offends)
    | cons first front ih =>
      obtain ⟨fits, legal⟩ := legal_cons_iff.mp legal
      exact batchFault?_cons_eq_some_iff.mpr (.inr ⟨fits, ih legal
        (offends.congr fun other => (shift taken first.1 other front).symm)⟩)

/-- The answers to a sequence of requests. -/
def answers (e : Engine) : List Request → List Reply
  | [] => []
  | request :: rest => (e.handle request).1 :: answers (e.handle request).2 rest

/-- The names in the registry are those that a batch must not have. -/
theorem Consistent.names_eq (consistent : e.Consistent) :
    e.status.map (·.name) = e.inboxes.map (·.connection) := by
  rw [status, List.map_map, consistent.inboxes]
  rfl

/-- Connections stand behind those that were there, with empty inboxes, and are on record; nothing
else is different. -/
def withAdded (e : Engine) (added : List Connection) : Engine :=
  { e with
    registry := e.registry ++ added
    inboxes := e.inboxes ++ added.map fun c => ⟨c.name, []⟩
    history := { e.history with
      journal := (added.map fun c => .configured c.name).reverse ++ e.history.journal } }

/-- Before shutdown, a legal batch is added, behind the connections that are there. -/
theorem configure_of_legal (consistent : e.Consistent) (running : e.shutDown = false)
    (legal : Legal (e.status.map (·.name)) batch) :
    ∃ added : List Connection, added.map (fun c => (c.name, c.settings)) = batch ∧
      (∀ c ∈ added, c.Untried) ∧ e.configure batch = .ok (e.withAdded added) := by
  rw [consistent.names_eq, legal_iff] at legal
  refine ⟨batch.map fun entry => .new entry.1 entry.2 e.connector, ?_, fun c mem => ?_, ?_⟩
  · rw [List.map_map]
    exact List.map_id batch
  · obtain ⟨entry, -, rfl⟩ := List.mem_map.mp mem
    exact ⟨rfl, rfl, rfl, rfl⟩
  · simp only [configure, running, legal, History.recordAll_eq, withAdded, List.map_map]
    rfl

/-- Before shutdown, any other batch is refused for its first entry that does not fit. -/
theorem configure_of_not_legal (consistent : e.Consistent) (running : e.shutDown = false)
    (illegal : ¬ Legal (e.status.map (·.name)) batch) :
    ∃ fault, FirstOffends (e.status.map (·.name)) batch fault ∧
      e.configure batch = .error fault := by
  rw [consistent.names_eq] at illegal ⊢
  obtain ⟨fault, refused⟩ := Option.ne_none_iff_exists'.mp (legal_iff.not.mp illegal)
  refine ⟨fault, batchFault?_eq_some_iff.mp refused, ?_⟩
  simp only [configure, running, refused]
  rfl

/-- No legal batch is refused. -/
theorem FirstOffends.illegal (offends : FirstOffends taken batch fault) : ¬ Legal taken batch := by
  rw [legal_iff, batchFault?_eq_some_iff.mpr offends]
  exact Option.some_ne_none fault

/-- A batch is refused for one fault only. -/
theorem FirstOffends.unique {other : EngineFault} (offends : FirstOffends taken batch fault)
    (also : FirstOffends taken batch other) : fault = other := by
  rw [← batchFault?_eq_some_iff] at offends also
  exact Option.some.inj (offends.symm.trans also)

/-- In every run, configuring is all or nothing. Before shutdown a batch is added exactly if it is
legal beside the connections that are there: these stay as they are, and behind them come those of
the batch in its order, untried, with empty inboxes; nobody is dialled. Any other batch is refused
exactly for its first entry that does not fit, and after shutdown every batch is. A refused batch
leaves the engine as it was, so that all later answers are the same as without it. -/
theorem configure_all_or_nothing_of_run {e₀ : Engine} (fresh : e₀.Fresh) (requests : List Request)
    (batch : List (String × ConnectionSettings)) :
    let e := e₀.run requests
    let names := e.status.map (·.name)
    let answer := e.handle (.configure batch)
    (e.shutDown = true → answer.1 = .refused .shutDown) ∧
    (e.shutDown = false → (answer.1 = .done ↔ Legal names batch) ∧
      ∀ fault, answer.1 = .refused fault ↔ FirstOffends names batch fault) ∧
    (answer.1 = .done ∧
        (∃ added : List Connection, added.map (fun c => (c.name, c.settings)) = batch ∧
          (∀ c ∈ added, c.Untried) ∧ answer.2 = e.withAdded added) ∨
      (∃ fault, answer.1 = .refused fault) ∧ answer.2 = e ∧
        ∀ later, e.answers (.configure batch :: later) = answer.1 :: e.answers later) := by
  intro e names answer
  have consistent : e.Consistent := e.consistent (sound_of_run fresh requests)
    (listed_of_moves (run_moves e₀ requests) (sound_of_fresh fresh) (listed_of_fresh fresh))
  -- a refusal changes nothing, now or later
  have kept {fault : EngineFault} (refused : e.configure batch = .error fault) :
      answer.1 = .refused fault ∧ answer.2 = e ∧
        ∀ later, e.answers (.configure batch :: later) = answer.1 :: e.answers later := by
    have whole : answer = (.refused fault, e) := by simp only [answer, handle, refused, orRefuse]
    refine ⟨by rw [whole], by rw [whole], fun later => ?_⟩
    exact congrArg (answer.1 :: answers ·.2 later) whole
  cases running : e.shutDown with
  | true =>
    obtain ⟨reply, same⟩ := kept (by simp only [configure, running, if_true] :
      e.configure batch = .error .shutDown)
    exact ⟨fun _ => reply, fun up => absurd up (by simp), .inr ⟨⟨_, reply⟩, same⟩⟩
  | false =>
    refine ⟨fun down => absurd down (by simp), ?_⟩
    by_cases legal : Legal names batch
    · obtain ⟨added, entries, untried, accepted⟩ := configure_of_legal consistent running legal
      have whole : answer = (.done, e.withAdded added) := by
        simp only [answer, handle, accepted, orRefuse]
      rw [whole]
      refine ⟨fun _ => ⟨iff_of_true rfl legal, fun fault => ?_⟩,
        .inl ⟨rfl, added, entries, untried, rfl⟩⟩
      exact iff_of_false (by simp) fun offends => offends.illegal legal
    · obtain ⟨fault, offends, refused⟩ := configure_of_not_legal consistent running legal
      obtain ⟨reply, same⟩ := kept refused
      refine ⟨fun _ => ⟨?_, fun other => ?_⟩, .inr ⟨⟨fault, reply⟩, same⟩⟩
      · rw [reply]
        exact iff_of_false (by simp) legal
      · rw [reply, Reply.refused.injEq]
        exact ⟨fun its => its ▸ offends, offends.unique⟩

/-- The name of a connection whose peer said goodbye is new again, but an entry behind it has a host
of blanks, and the name of a connection that is still there. -/
theorem configure_all_or_nothing_of_run_blank :
    let e₀ := new fun _ _ _ => true
    let host := ConnectionSettings.ofHost "host"
    let requests := [Request.configure [("peer", host), ("other", host)], .start,
      .receive 0 (Text.bytes "goodbye\n"), .poll 2]
    let e := e₀.run requests
    let front := [("peer", host), ("new", host)]
    let refused := e.handle (.configure (front ++ [("other", .ofHost " \u00a0")]))
    e₀.Fresh ∧ e.status.map (·.name) = ["other"] ∧ (e.handle (.configure front)).1 = .done ∧
      refused.1 = .refused (.emptyHost "other") ∧ refused.2 = e := by
  intro e₀ host requests e front refused
  have fresh : e₀.Fresh := fresh_new _
  have names : e.status.map (·.name) = ["other"] := by decide +kernel
  have running : e.shutDown = false := by decide +kernel
  have legal : Legal (e.status.map (·.name)) front := by
    rw [names]
    exact ⟨by decide +kernel, by decide +kernel, by decide +kernel⟩
  have offends : FirstOffends (e.status.map (·.name)) (front ++ [("other", .ofHost " \u00a0")])
      (.emptyHost "other") := ⟨front, _, [], rfl, legal, .emptyHost (by decide +kernel)⟩
  obtain ⟨-, added, -⟩ := configure_all_or_nothing_of_run fresh requests front
  obtain ⟨-, told, whole⟩ := configure_all_or_nothing_of_run fresh requests
    (front ++ [("other", .ofHost " \u00a0")])
  have reply : refused.1 = .refused (.emptyHost "other") := ((told running).2 _).mpr offends
  refine ⟨fresh, names, (added running).1.mpr legal, reply, ?_⟩
  rcases whole with ⟨done, -⟩ | ⟨-, same, -⟩
  · exact absurd (reply.symm.trans done) (by simp)
  · exact same

end Engine

end Backbox
