import Backbox.Proofs.Engine.Kept

/-!
# Runs of an engine

A run begins with an engine to which nothing has happened yet. Whatever its tables, its
handlers and the way it reaches peers, it is sound before and after every request.
-/

namespace Backbox.Engine

/-- Nothing has happened to an engine yet, and it has no connections. -/
structure Fresh (e : Engine) : Prop where
  registry : e.registry = []
  inboxes : e.inboxes = []
  departures : e.departures = []
  history : e.history = .start

/-- An engine without connections is fresh. -/
theorem fresh_new (connector : Connector) : (new connector).Fresh := ⟨rfl, rfl, rfl, rfl⟩

/-- An engine that settings describe is one to which its connections were added. -/
theorem exists_fresh_of_ofSettings {s : Settings} {connector : Connector} {e : Engine}
    (described : ofSettings s connector = .ok e) (completesAtOnce : Bool) :
    ∃ e₀ : Engine, e₀.Fresh ∧ { e with completesAtOnce := completesAtOnce } =
      e₀.run [.configure s.connections.toList] := by
  unfold ofSettings at described
  split at described
  · cases described
  · refine ⟨{ new connector with
      valueCase := s.valueCase
      eventMap := s.eventMap
      playerVariables := .ofNames s.playerVariables
      completesAtOnce := completesAtOnce }, ⟨rfl, rfl, rfl, rfl⟩, ?_⟩
    unfold configure at described
    split at described
    · cases described
    · split at described
      · cases described
      · next free =>
        obtain rfl := Except.ok.inj described
        simp only [new] at free
        simp only [run, List.foldl_cons, List.foldl_nil, handle, configure, new, free]
        rfl

/-- A fresh engine is sound. -/
theorem sound_of_fresh {e : Engine} (fresh : e.Fresh) : Sound ⟨[], e⟩ := by
  obtain ⟨registry, inboxes, departures, history⟩ := fresh
  have lives : e.history.lives = [] := by
    rw [history]
    rfl
  constructor
  · simp [inboxes, registry]
  · simp [registry]
  · simp [history, History.orderly_start]
  · simp [registry]
  · simp [lives]
  · simp [registry]
  · simp [lives]
  · simp [departures]
  · simp [departures]
  · simp [registry]

/-- An engine is sound after every run. -/
theorem sound_of_run {e : Engine} (fresh : e.Fresh) (requests : List Request) :
    Sound ⟨[], e.run requests⟩ :=
  sound_of_moves (run_moves e requests) (sound_of_fresh fresh)

/-- A longer run goes on from a shorter one. -/
theorem run_append (e : Engine) (requests more : List Request) :
    e.run (requests ++ more) = (e.run requests).run more :=
  List.foldl_append

end Backbox.Engine
