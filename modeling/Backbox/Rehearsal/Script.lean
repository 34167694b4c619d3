import Backbox.Engine.Reaction
import Backbox.KeyMap

/-!
# Scripts

What is laid down before a rehearsal: which attempts to reach a host succeed, and what the
host's handlers do.
-/

namespace Backbox.Rehearsal

/-- How attempts to reach a host end, one after the other; the last outcome repeats, and
without any outcome every attempt succeeds. -/
def outcome (outcomes : List Bool) (attempt : Nat) : Bool :=
  outcomes.getD attempt (outcomes.getLastD true)

/-- The connector of a script. Attempts on a host are counted over all connections to it,
those of the `apart` names left out; hosts without a script are always reached. -/
def scripted (script : KeyMap (List Bool)) (apart : List String) : Connector :=
  fun dials _ settings =>
    match script.get? settings.host with
    | none => true
    | some outcomes =>
      outcome outcomes <| dials.countP fun d =>
        d.settings.host = settings.host && !apart.contains d.connection

/-- What a handler does with a command, after it has noted it. -/
inductive HandlerScript where
  | nothing
  /-- Sends an answer with the same parameters, and notes how many accepted it. -/
  | acknowledge
  /-- Posts an event with the same parameters, and notes its completion. -/
  | post
  /-- Changes the switch of the same name. -/
  | setSwitch
  /-- A peer sends bytes meanwhile. -/
  | arrival (session : SessionChoice) (bytes : Bytes)

/-- The handler of a script, registered under a name. -/
def HandlerScript.handler (script : HandlerScript) (name : String) : Handler := fun c =>
  .note (.handled name c) <|
    match script with
    | nothing => .done
    | acknowledge =>
      .send (.ofPairs (c.name ++ "_ack") c.params.toList) fun accepted =>
        .note (.acknowledged accepted) .done
    | post => .postAwaited ("handled_" ++ c.name) c.params (.note .completed .done) .done
    | setSwitch => .setSwitch c.name true false .done
    | arrival session bytes => .arrival session bytes .done

end Backbox.Rehearsal
