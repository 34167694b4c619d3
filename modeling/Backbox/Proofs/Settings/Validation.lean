import Backbox.Proofs.KeyMap
import Backbox.Proofs.Text.Blank
import Backbox.Settings.Basic

/-!
# Settings that can be used

Settings can be used if every host and every command of an event is more than blanks. Other settings
have one fault: the blank host of the first connection by name, or, only where no host is blank, the
blank command of the first event by name.
-/

namespace Backbox.Settings

variable {β : Type} {text : β → String} {m : KeyMap β} {name : String} {s : Settings}
  {fault : SettingsFault}

/-- No value of a map has a blank text. -/
def NoneBlank (text : β → String) (m : KeyMap β) : Prop :=
  ∀ name value, m.get? name = some value → Text.trim (text value) ≠ ""

/-- The value of a name has a blank text, and no value of a smaller name does. -/
structure LeastBlank (text : β → String) (m : KeyMap β) (name : String) : Prop where
  blank : ∃ value, m.get? name = some value ∧ Text.trim (text value) = ""
  least : ∀ other value, m.get? other = some value → Text.trim (text value) = "" → name ≤ other

/-- Every connection has a host, and every event that is mapped a command. -/
structure Usable (s : Settings) : Prop where
  hosts : NoneBlank ConnectionSettings.host s.connections
  commands : NoneBlank EventMapping.command s.eventMap

/-- What settings cannot be used for. A blank command counts only where no host is blank. -/
inductive Faulty (s : Settings) : SettingsFault → Prop where
  | emptyHost {name : String} (least : LeastBlank ConnectionSettings.host s.connections name) :
    Faulty s (.emptyHost name)
  | emptyEventCommand {event : String}
    (hosts : NoneBlank ConnectionSettings.host s.connections)
    (least : LeastBlank EventMapping.command s.eventMap event) :
    Faulty s (.emptyEventCommand event)

/-- No entry is found if no text is blank. -/
theorem firstBlank?_eq_none_iff : firstBlank? text m = none ↔ NoneBlank text m := by
  rw [firstBlank?, Option.map_eq_none_iff, List.find?_eq_none]
  constructor
  · intro none name value held blank
    exact none _ (KeyMap.mem_toList_iff.mpr held) (Text.isBlankText_iff.mpr blank)
  · intro none entry mem blank
    exact none _ _ (KeyMap.mem_toList_iff.mp mem) (Text.isBlankText_iff.mp blank)

/-- The entry that is found is the one of the smallest name whose text is blank. -/
theorem firstBlank?_eq_some_iff : firstBlank? text m = some name ↔ LeastBlank text m name := by
  rw [firstBlank?, Option.map_eq_some_iff]
  constructor
  · rintro ⟨⟨name, value⟩, found, rfl⟩
    obtain ⟨held, blank, least⟩ := KeyMap.find?_toList_eq_some_iff.mp found
    exact ⟨⟨value, held, Text.isBlankText_iff.mp blank⟩, fun other value' held' blank' =>
      least other value' held' (Text.isBlankText_iff.mpr blank')⟩
  · rintro ⟨⟨value, held, blank⟩, least⟩
    refine ⟨(name, value), KeyMap.find?_toList_eq_some_iff.mpr
      ⟨held, Text.isBlankText_iff.mpr blank, fun other value' held' blank' => ?_⟩, rfl⟩
    exact least other value' held' (Text.isBlankText_iff.mp blank')

/-- Settings are refused exactly for their fault. -/
theorem validate_eq_error_iff : s.validate = .error fault ↔ s.Faulty fault := by
  unfold validate
  split
  · next name found =>
    have least := firstBlank?_eq_some_iff.mp found
    constructor
    · rintro ⟨⟩
      exact .emptyHost least
    · rintro (also | ⟨hosts, -⟩)
      · rw [← firstBlank?_eq_some_iff, found] at also
        rw [Option.some.inj also]
      · exact absurd (found.symm.trans (firstBlank?_eq_none_iff.mpr hosts)) (by simp)
  · next none =>
    have hosts := firstBlank?_eq_none_iff.mp none
    split
    · next event found =>
      constructor
      · rintro ⟨⟩
        exact .emptyEventCommand hosts (firstBlank?_eq_some_iff.mp found)
      · rintro (least | ⟨-, also⟩)
        · exact absurd (none.symm.trans (firstBlank?_eq_some_iff.mpr least)) (by simp)
        · rw [← firstBlank?_eq_some_iff, found] at also
          rw [Option.some.inj also]
    · next none' =>
      refine iff_of_false (by simp) ?_
      rintro (least | ⟨-, least⟩)
      · exact absurd (none.symm.trans (firstBlank?_eq_some_iff.mpr least)) (by simp)
      · exact absurd (none'.symm.trans (firstBlank?_eq_some_iff.mpr least)) (by simp)

/-- Settings are valid exactly if they can be used. -/
theorem validate_eq_ok_iff : s.validate = .ok () ↔ s.Usable := by
  have usable : s.Usable ↔ firstBlank? ConnectionSettings.host s.connections = none ∧
      firstBlank? EventMapping.command s.eventMap = none := by
    rw [firstBlank?_eq_none_iff, firstBlank?_eq_none_iff]
    exact ⟨fun ⟨hosts, commands⟩ => ⟨hosts, commands⟩,
      fun ⟨hosts, commands⟩ => ⟨hosts, commands⟩⟩
  rw [usable, validate]
  split
  · next found => simp [found]
  · next hosts =>
    split
    · next found => simp [found]
    · next commands => simp [hosts, commands]

end Backbox.Settings
