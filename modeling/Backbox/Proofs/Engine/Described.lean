import Backbox.Proofs.Engine.Configure
import Backbox.Proofs.Settings.Validation

/-!
# Engines that settings describe

The hosts of settings are checked when the settings are, and once more when their connections are
added. Both checks agree: settings describe an engine exactly if they are valid, and are refused for
nothing but their own fault. An engine that settings describe has not dialled anybody. Its peers
hear about the player variables that the settings name, however often and in whatever order.
-/

namespace Backbox.Engine

/-- An engine with the connections that settings name, to which nothing else has happened. -/
structure Describes (s : Settings) (connector : Connector) (e : Engine) : Prop where
  entries : e.registry.map (fun c => (c.name, c.settings)) = s.connections.toList
  ascending : e.registry.Pairwise fun c d => c.name < d.name
  untried : ∀ c ∈ e.registry, c.Untried
  connector : ∀ c ∈ e.registry, c.connector = connector
  inboxes : e.inboxes = e.registry.map fun c => ⟨c.name, []⟩
  undialled : e.history.dials = []
  /-- All that is on record is that the connections were added. -/
  journal : e.history.journal = (e.registry.map fun c => .configured c.name).reverse
  idle : e.started = false ∧ e.shutDown = false ∧ e.shutdownRequested = false

variable {s : Settings} {connector : Connector}

/-- The connections of settings that can be used are a batch that can be added. -/
theorem legal_of_usable (usable : s.Usable) : Legal [] s.connections.toList where
  hosts _ mem := usable.hosts _ _ (KeyMap.mem_toList_iff.mp mem)
  distinct := s.connections.nodup_keys
  new _ _ := List.not_mem_nil

/-- Settings that can be used describe an engine. -/
theorem exists_describes (usable : s.Usable) (connector : Connector) :
    ∃ e, ofSettings s connector = .ok e ∧ Describes s connector e := by
  let bare : Engine := { new connector with
    valueCase := s.valueCase
    eventMap := s.eventMap
    playerVariables := .ofNames s.playerVariables }
  have fresh : bare.Fresh := ⟨rfl, rfl, rfl, rfl⟩
  have consistent := bare.consistent (sound_of_fresh fresh) (listed_of_fresh fresh)
  obtain ⟨added, entries, untried, configured⟩ :=
    configure_of_legal consistent rfl (legal_of_usable usable)
  obtain ⟨-, -, whole⟩ := configure_eq configured
  have made : added = s.connections.toList.map fun entry => .new entry.1 entry.2 connector :=
    congrArg Engine.registry whole
  have ordered : s.connections.toList.Pairwise fun a b => a.1 < b.1 := s.connections.ordered
  rw [← entries, List.pairwise_map] at ordered
  refine ⟨bare.withAdded added, ?_, entries, ordered, untried, fun c mem => ?_, rfl, rfl,
    List.append_nil _, rfl, rfl, rfl⟩
  · rw [ofSettings, Settings.validate_eq_ok_iff.mpr usable]
    exact configured
  · change c ∈ added at mem
    rw [made] at mem
    obtain ⟨entry, -, rfl⟩ := List.mem_map.mp mem
    rfl

/-- Settings are refused for their own fault, before any connection is added. -/
theorem ofSettings_of_faulty {fault : SettingsFault} (faulty : s.Faulty fault) :
    ofSettings s connector = .error (.invalidSettings fault) := by
  rw [ofSettings, Settings.validate_eq_error_iff.mpr faulty]

/-- Settings are valid exactly if every host and every mapped command is more than blanks, and have
otherwise the fault of the smallest name, where hosts come before commands. They describe an engine
exactly if they are valid, and are refused for this fault only; and the engine has one untried
connection for each entry, in ascending order of the names, and nobody was dialled. -/
theorem ofSettings_agrees (s : Settings) (connector : Connector) :
    (s.validate = .ok () ↔ s.Usable) ∧
    (∀ fault, s.validate = .error fault ↔ s.Faulty fault) ∧
    ((∃ e, ofSettings s connector = .ok e) ↔ s.validate = .ok ()) ∧
    (∀ fault, ofSettings s connector = .error fault ↔
      ∃ own, fault = .invalidSettings own ∧ s.validate = .error own) ∧
    ∀ e, ofSettings s connector = .ok e → Describes s connector e := by
  refine ⟨Settings.validate_eq_ok_iff, fun _ => Settings.validate_eq_error_iff, ?_⟩
  cases valid : s.validate with
  | ok =>
    obtain ⟨e, configured, describes⟩ :=
      exists_describes (Settings.validate_eq_ok_iff.mp valid) connector
    rw [configured]
    refine ⟨by simp, fun fault => iff_of_false (by simp) (by simp), ?_⟩
    rintro _ ⟨⟩
    exact describes
  | error own =>
    rw [ofSettings_of_faulty (Settings.validate_eq_error_iff.mp valid)]
    simp [eq_comm]

/-- The connections stand in the order of their names. With a blank host among them, and a blank
command too, the settings are refused for the host. -/
theorem ofSettings_agrees_ordered :
    let host := ConnectionSettings.ofHost "host"
    let settings := (Settings.default.withConnection "zeta" host).withConnection "alpha" host
    let blank := (settings.withConnection "peer" (.ofHost " \u00a0")).withEventMapping "event"
      ⟨"\u2003", .empty⟩
    let connector : Connector := fun _ _ _ => true
    (∃ e, ofSettings settings connector = .ok e ∧ Describes settings connector e ∧
      e.registry.map (·.name) = ["alpha", "zeta"]) ∧
    ofSettings blank connector = .error (.invalidSettings (.emptyHost "peer")) := by
  intro host settings blank connector
  obtain ⟨-, -, accepted, -, describes⟩ := ofSettings_agrees settings connector
  obtain ⟨-, -, -, refused, -⟩ := ofSettings_agrees blank connector
  obtain ⟨e, its⟩ := accepted.mpr (by decide +kernel)
  refine ⟨⟨e, its, describes e its, ?_⟩, (refused _).mpr ⟨_, rfl, by decide +kernel⟩⟩
  have names : e.registry.map (·.name) = settings.connections.toList.map (·.1) := by
    rw [← (describes e its).entries, List.map_map]
    rfl
  rw [names]
  decide +kernel

end Backbox.Engine

namespace Backbox.PlayerVariables

/-- A list of names selects the variables in it, and every variable if it has the name that stands
for all of them. -/
theorem selects_ofNames (names : List String) (name : String) :
    (ofNames names).selects name = true ↔ allPlayerVariables ∈ names ∨ name ∈ names := by
  unfold ofNames
  split
  · next nothing =>
    rw [List.isEmpty_iff.mp nothing]
    simp [selects]
  split
  · next every => exact iff_of_true rfl (.inl (List.contains_iff_mem.mp every))
  · next notEvery =>
    rw [List.contains_iff_mem] at notEvery
    have listed : name ∈ sortedNames names ↔ name ∈ names := by
      rw [sortedNames, KeyMap.mem_keys_ofList, List.map_map]
      exact List.mem_map.trans (by simp)
    rw [selects, List.contains_iff_mem, listed, or_iff_right notEvery]

end Backbox.PlayerVariables
