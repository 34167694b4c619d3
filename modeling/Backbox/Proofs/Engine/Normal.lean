import Backbox.Command.Catalog
import Backbox.Proofs.Engine.Handler

/-!
# Commands in normal form, up to their handlers

However a command is built, changed or read, its name is trimmed and lower-cased, and so are its
keys lower-cased. So what is done to names and keys once more, on the way to a peer or to a handler,
does nothing: a command is written with the name and the keys that it has, it is handed on as it is,
and the handler of its name is the one that was registered under a name of the same normal form.
-/

namespace Backbox

namespace Command

/-- A command that can be built, changed or read. -/
inductive Built : Command → Prop where
  | empty : Built empty
  | ofName (name : String) : Built (ofName name)
  | ofPairs (name : String) (pairs : List (String × String)) : Built (ofPairs name pairs)
  | ofWire (valueCase : ValueCase) (message : String) : Built (ofWire valueCase message)
  | withParam {c : Command} (built : Built c) (key value : String) : Built (c.withParam key value)
  | withInt {c : Command} (built : Built c) (key : String) (value : Int) :
    Built (c.withInt key value)
  | takeParam {c : Command} (built : Built c) (key : String) : Built (c.takeParam key).2
  | hello (version : String) : Built (hello version)
  | goodbye : Built goodbye
  | error (message command : String) : Built (error message command)
  | switch (name : String) (active : Bool) : Built (switch name active)
  | trigger (name : String) : Built (trigger name)
  | modeStart (name : String) (priority : Int) : Built (modeStart name priority)
  | modeStop (name : String) : Built (modeStop name)
  | gameStart : Built gameStart
  | playerAdded (number : Int) : Built (playerAdded number)
  | playerScore (value prevValue change : Int) : Built (playerScore value prevValue change)
  | playerVariable (name value prevValue change : String) :
    Built (playerVariable name value prevValue change)
  | reset : Built reset

/-- The command without a name is in normal form. -/
theorem isNormal_empty : empty.IsNormal := ⟨by decide, fun _ mem => absurd mem List.not_mem_nil⟩

/-- Every command that can be built, changed or read is in normal form. -/
theorem Built.isNormal {c : Command} (built : c.Built) : c.IsNormal := by
  induction built with
  | empty => exact isNormal_empty
  | ofName name => exact isNormal_ofName name
  | ofPairs name pairs => exact isNormal_ofPairs name pairs
  | ofWire valueCase message => exact isNormal_ofWire valueCase message
  | withParam _ key value ih => exact ih.withParam key value
  | withInt _ key value ih => exact ih.withParam key (toString value)
  | takeParam _ key ih => exact ih.takeParam key
  | goodbye | gameStart | reset => exact isNormal_ofName _
  | hello | trigger | modeStop | playerAdded => exact (isNormal_ofName _).withParam _ _
  | error | switch | modeStart => exact ((isNormal_ofName _).withParam _ _).withParam _ _
  | playerScore =>
    exact (((isNormal_ofName _).withParam _ _).withParam _ _).withParam _ _
  | playerVariable =>
    exact ((((isNormal_ofName _).withParam _ _).withParam _ _).withParam _ _).withParam _ _

variable {c : Command}

/-- A name in normal form is trimmed and lower-cased. -/
theorem trim_and_lower_of_normalName {name : String} (normal : normalName name = name) :
    Text.trim name = name ∧ Text.lower name = name := by
  have lowered : Text.lower name = name := by
    rw [← normal, normalName, Text.lower_lower]
  have trimmed : Text.IsTrimmed name.toList := by
    rw [← normal, normalName, Text.lower, Text.trim, String.toList_ofList, String.toList_ofList]
    exact Text.isTrimmed_lowerList (Text.isTrimmed_trimList name.toList)
  refine ⟨?_, lowered⟩
  rw [Text.trim, Text.trimList_of_isTrimmed trimmed, String.ofList_toList]

/-- The keys of a command in normal form are lower-cased. -/
theorem IsNormal.lower_key (normal : c.IsNormal) {key : String} (mem : key ∈ c.params.keys) :
    Text.lower key = key := by
  obtain ⟨pair, held, rfl⟩ := List.mem_map.mp mem
  exact normal.keys_eq pair held

/-- No two keys of a command in normal form have one lower-cased form. -/
theorem IsNormal.nodup_lower_keys (normal : c.IsNormal) :
    (c.params.keys.map Text.lower).Nodup := by
  have same : c.params.keys.map Text.lower = c.params.keys :=
    (List.map_congr_left fun key mem => normal.lower_key mem).trans (List.map_id _)
  rw [same]
  exact KeyMap.nodup_keys c.params

end Command

namespace Engine

/-- Whatever a command was built, changed or read from, its name is trimmed and lower-cased, and its
keys are lower-cased. So it is written with the name and the keys that it has. Building it once more
of its name and its parameters changes nothing, and it is left to the handlers as it is. No two of
its keys have one lower-cased form. In every run, the handler of its name is the one that was
registered under a name of the same normal form, and it is called for this very command. -/
theorem normalForm_of_built {c : Command} (built : c.Built) :
    (Text.trim c.name = c.name ∧ Text.lower c.name = c.name ∧
      ∀ key ∈ c.params.keys, Text.lower key = key) ∧
    c.toWire = (if c.params.isEmpty then c.name
      else c.name ++ "?" ++ Text.Form.encode c.params.toList) ∧
    Command.ofPairs c.name c.params.toList = c ∧
    (∀ read, Inbound.ofCommand c = .ok (.other read) →
      read = Command.ofPairs c.name c.params.toList ∧ read = c) ∧
    (c.params.keys.map Text.lower).Nodup ∧
    ∀ e₀ : Engine, e₀.handlers = [] → ∀ requests handler,
      let e := e₀.run requests
      (e.handlers.lookup c.name = some handler ↔ ∃ before name later,
        requests = before ++ .register name handler :: later ∧
          ((e₀.run before).handle (.register name handler)).1 = .done ∧
            Command.normalName name = Command.normalName c.name) ∧
      (e.handlers.lookup c.name = some handler → c.name ≠ "" →
        Reaction.ofCommand (e.handlers.lookup ·) c = handler c) := by
  have normal := built.isNormal
  obtain ⟨trimmed, lowered⟩ := Command.trim_and_lower_of_normalName normal.name_eq
  refine ⟨⟨trimmed, lowered, fun key mem => normal.lower_key mem⟩, normal.toWire_eq,
    normal.ofPairs_eq, fun read other => ?_, normal.nodup_lower_keys,
    fun e₀ none requests handler => ?_⟩
  · obtain ⟨its, -⟩ := Inbound.ofCommand_eq_other other
    exact ⟨its, its.trans normal.ofPairs_eq⟩
  · have unknown (name : String) : e₀.handlers.lookup name = .none := by rw [none]; rfl
    refine ⟨?_, fun found named => ?_⟩
    · rw [lookup_run_iff, unknown, normal.name_eq]
      simp
    · refine Reaction.ofCommand_of_handler normal named (fun reserved => ?_) found
      rw [lookup_reserved_run reserved (unknown c.name)] at found
      cases found

/-- A command is read, gets a parameter and loses it again. Its handler was registered under another
spelling of the name, with a dot above the letter instead of in it. -/
theorem normalForm_of_built_spelled :
    let c := (((Command.ofWire .preserve "\tTİLT ?RΣ=Ä&rς=x").withParam "N" "1").takeParam "n").2
    let handler : Handler := fun command => .note (.handled "tilt" command) .done
    let e := (new fun _ _ _ => true).run
      [.register "tilt" fun _ => .done, .register "Ti\u0307lt " handler]
    c.Built ∧ c.params.toList = [("rς", "Ä")] ∧ Command.ofPairs c.name c.params.toList = c ∧
      e.handlers.lookup c.name = some handler ∧
      Reaction.ofCommand (e.handlers.lookup ·) c = handler c := by
  intro c handler e
  have built : c.Built := ((Command.Built.ofWire .preserve _).withParam "N" "1").takeParam "n"
  obtain ⟨-, -, rebuilt, -, -, called⟩ := normalForm_of_built built
  obtain ⟨registered, reaction⟩ := called (new fun _ _ _ => true) rfl
    [.register "tilt" fun _ => .done, .register "Ti\u0307lt " handler] handler
  have found := registered.mpr ⟨[.register "tilt" fun _ => .done], "Ti\u0307lt ", [], rfl,
    by decide +kernel, by decide +kernel⟩
  exact ⟨built, by decide +kernel, rebuilt, found, reaction found (by decide +kernel)⟩

end Engine

end Backbox
