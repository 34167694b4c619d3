import Backbox.Proofs.Document
import Backbox.Settings.Load

/-!
# Settings that are written and read back

Settings that are valid are what their written form is read as. Fields that stand at their defaults
may be left out of it, of the settings as well as of connections and mapped events: the defaults
that are read for missing fields are those that settings begin with. A field of any other name
makes the settings unreadable, wherever it stands.
-/

namespace Backbox

namespace AttemptLimit

/-- A limit is what the integer that stands for it is read as. -/
theorem ofInt_toInt (limit : AttemptLimit) : ofInt limit.toInt = .ok limit := by
  cases limit with
  | unbounded => rfl
  | bounded count =>
    have small := count.toNat_lt
    rw [toInt, ofInt, if_neg (by omega), if_pos (by simp only [maxCount]; omega), Int.toNat_natCast,
      UInt32.ofNat_toNat]

/-- An integer is read as the limit that it stands for. -/
theorem ofInt_eq_ok_iff {value : Int} {limit : AttemptLimit} :
    ofInt value = .ok limit ↔ limit.toInt = value := by
  refine ⟨fun read => ?_, fun same => same ▸ ofInt_toInt limit⟩
  unfold ofInt at read
  split at read
  · next endless =>
    obtain rfl := Except.ok.inj read
    exact endless.symm
  · split at read
    · next within =>
      obtain rfl := Except.ok.inj read
      obtain ⟨n, rfl⟩ := Int.eq_ofNat_of_zero_le within.1
      have small : n < UInt32.size := by
        have := within.2
        simp only [maxCount, UInt32.size] at this ⊢
        omega
      rw [toInt, Int.toNat_natCast, UInt32.toNat_ofNat_of_lt' small]
    · cases read

/-- Only `-1` and the counts are read as limits. -/
theorem exists_ofInt_iff {value : Int} :
    (∃ limit, ofInt value = .ok limit) ↔ value = -1 ∨ 0 ≤ value ∧ value ≤ maxCount := by
  constructor
  · rintro ⟨limit, read⟩
    rw [← ofInt_eq_ok_iff.mp read]
    cases limit with
    | unbounded => exact .inl rfl
    | bounded count =>
      have small := count.toNat_lt
      simp only [toInt, maxCount]
      omega
  · rintro (rfl | within)
    · exact ⟨unbounded, rfl⟩
    · exact ⟨bounded _, by rw [ofInt, if_neg (by omega), if_pos within]⟩

end AttemptLimit

namespace Document

/-- A number within the bound is read as it is written. -/
theorem natUpTo?_integer {greatest n : Nat} (within : n ≤ greatest) :
    natUpTo? greatest (.integer n) = some n := by
  have both : (0 : Int) ≤ n ∧ (n : Int) ≤ greatest := ⟨by omega, by omega⟩
  simp [natUpTo?, integer?, both]

end Document

open Document

/-- A limit is read as it is written. -/
theorem AttemptLimit.ofDocument?_toDocument (limit : AttemptLimit) :
    ofDocument? limit.toDocument = some limit := by
  have within : -9223372036854775808 ≤ limit.toInt ∧ limit.toInt ≤ 9223372036854775807 := by
    cases limit with
    | unbounded => decide
    | bounded count =>
      have small := count.toNat_lt
      rw [toInt]
      omega
  simp [ofDocument?, toDocument, int64?, integer?, within, ofInt_toInt, Except.toOption]

/-- A format is read as it is written. -/
theorem LogFormat.ofDocument?_toDocument (format : LogFormat) :
    ofDocument? format.toDocument = some format := by
  cases format <;> decide

namespace ConnectionSettings

/-- The fields under their names. -/
def fields (s : ConnectionSettings) : List (String × Document) :=
  [("host", .text s.host), ("port", .integer s.port.toNat),
    ("connection_attempts", s.attempts.toDocument), ("require_connection", .boolean s.required),
    ("connect_timeout_ms", .integer s.connectTimeoutMs.toNat),
    ("retry_delay_ms", .integer s.retryDelayMs.toNat)]

/-- They make the written form. -/
theorem toDocument_eq (s : ConnectionSettings) : s.toDocument = record s.fields := rfl

/-- The fields stand under their names. -/
theorem fields_names (s : ConnectionSettings) : s.fields.map (·.1) = fieldNames := rfl

/-- Whether a field may be left out: it stands at the default of settings for the host. -/
def isDefault (s : ConnectionSettings) : String → Bool
  | "port" => s.port = (ofHost s.host).port
  | "connection_attempts" => s.attempts = (ofHost s.host).attempts
  | "require_connection" => s.required = (ofHost s.host).required
  | "connect_timeout_ms" => s.connectTimeoutMs = (ofHost s.host).connectTimeoutMs
  | "retry_delay_ms" => s.retryDelayMs = (ofHost s.host).retryDelayMs
  | _ => false

/-- What stands for missing fields is what they are in settings of which only the host is given. -/
theorem ofHost_eq (host : String) : ofHost host =
    ⟨host, defaultPort, default, default, defaultConnectTimeoutMs, default⟩ := rfl

/-- A port is read as it is written. -/
theorem port?_integer (port : UInt16) : port? (.integer port.toNat) = some port := by
  have small := port.toNat_lt
  rw [port?, natUpTo?_integer (by omega), Option.map_some, UInt16.ofNat_toNat]

/-- A number of milliseconds is read as it is written. -/
theorem milliseconds?_integer (ms : UInt64) : milliseconds? (.integer ms.toNat) = some ms := by
  have small := ms.toNat_lt
  rw [milliseconds?, natUpTo?_integer (by rw [Duration.maxMilliseconds]; omega), Option.map_some,
    UInt64.ofNat_toNat]

/-- Settings of a connection are what their written form is read as, with or without fields that
stand at their defaults. -/
theorem ofDocument?_recordWithout {s : ConnectionSettings} {left : List String}
    (allowed : ∀ name ∈ left, s.isDefault name = true) :
    ofDocument? (recordWithout left s.fields) = some s := by
  obtain ⟨kept, read, remains⟩ :=
    fields?_recordWithout s.fields_names (by decide) left
  have host : kept.get? "host" = some (.text s.host) :=
    remains.get?_of_mem (by simp [fields]) fun out => Bool.false_ne_true (allowed _ out)
  have text : Document.text? (.text s.host) = some s.host := rfl
  simp only [isDefault, ofHost_eq] at allowed
  have port : fieldOr kept "port" defaultPort port? = some s.port :=
    remains.fieldOr_eq (port?_integer s.port) (by simp [fields])
      fun out => of_decide_eq_true (allowed _ out)
  have attempts : fieldOr kept "connection_attempts" default AttemptLimit.ofDocument? =
      some s.attempts :=
    remains.fieldOr_eq s.attempts.ofDocument?_toDocument (by simp [fields])
      fun out => of_decide_eq_true (allowed _ out)
  have required : fieldOr kept "require_connection" default boolean? = some s.required :=
    remains.fieldOr_eq (d := .boolean s.required) rfl (by simp [fields])
      fun out => of_decide_eq_true (allowed _ out)
  have timeout : fieldOr kept "connect_timeout_ms" defaultConnectTimeoutMs milliseconds? =
      some s.connectTimeoutMs :=
    remains.fieldOr_eq (milliseconds?_integer s.connectTimeoutMs) (by simp [fields])
      fun out => of_decide_eq_true (allowed _ out)
  have delay : fieldOr kept "retry_delay_ms" default milliseconds? = some s.retryDelayMs :=
    remains.fieldOr_eq (milliseconds?_integer s.retryDelayMs) (by simp [fields])
      fun out => of_decide_eq_true (allowed _ out)
  simp only [ofDocument?, read, host, text, port, attempts, required, timeout, delay,
    Option.bind_eq_bind, Option.bind_some]
  rfl

/-- Settings of a connection that tell nothing but the host are read as those of the host. -/
theorem ofDocument?_host (host : String) :
    ofDocument? (record [("host", .text host)]) = some (ofHost host) := by
  have bare : recordWithout fieldNames.tail (ofHost host).fields =
      record [("host", .text host)] := rfl
  have allowed : ∀ name ∈ fieldNames.tail, (ofHost host).isDefault name = true := by
    simp [fieldNames, isDefault, ofHost_eq]
  rw [← bare, ofDocument?_recordWithout allowed]

/-- A field of any other name makes settings of a connection unreadable. -/
theorem ofDocument?_of_unknown {fields : List (Document × Document)} {key : String}
    {value : Document} (mem : (.text key, value) ∈ fields) (unknown : key ∉ fieldNames) :
    ofDocument? (.map fields) = none := by
  rw [ofDocument?, fields?_of_unknown mem unknown]
  rfl

end ConnectionSettings

namespace EventMapping

/-- The fields under their names. -/
def fields (m : EventMapping) : List (String × Document) :=
  [("command", .text m.command),
    ("params", .record (m.params.toList.map fun entry => (entry.1, .text entry.2)))]

/-- They make the written form. -/
theorem toDocument_eq (m : EventMapping) : m.toDocument = record m.fields := by
  simp only [toDocument, fields, record, List.map_cons, List.map_nil, List.map_map]
  rfl

/-- The fields stand under their names. -/
theorem fields_names (m : EventMapping) : m.fields.map (·.1) = fieldNames := rfl

/-- Whether a field may be left out: it stands at its default. -/
def isDefault (m : EventMapping) : String → Bool
  | "params" => m.params = .empty
  | _ => false

/-- A mapping is what its written form is read as, with or without parameters if it has none. -/
theorem ofDocument?_recordWithout {m : EventMapping} {left : List String}
    (allowed : ∀ name ∈ left, m.isDefault name = true) :
    ofDocument? (recordWithout left m.fields) = some m := by
  obtain ⟨kept, read, remains⟩ :=
    fields?_recordWithout m.fields_names (by decide) left
  have command : kept.get? "command" = some (.text m.command) :=
    remains.get?_of_mem (by simp [fields]) fun out => Bool.false_ne_true (allowed _ out)
  have text : Document.text? (.text m.command) = some m.command := rfl
  have entries : (record (m.params.toList.map fun entry => (entry.1, .text entry.2))).keyMap?
      text? = some m.params := keyMap?_record fun _ _ => rfl
  have params : fieldOr kept "params" .empty (keyMap? text?) = some m.params :=
    remains.fieldOr_eq entries (by simp [fields]) fun out => of_decide_eq_true (allowed _ out)
  simp only [ofDocument?, read, command, text, params, Option.bind_eq_bind, Option.bind_some]
  rfl

/-- A field of any other name makes a mapping unreadable. -/
theorem ofDocument?_of_unknown {fields : List (Document × Document)} {key : String}
    {value : Document} (mem : (.text key, value) ∈ fields) (unknown : key ∉ fieldNames) :
    ofDocument? (.map fields) = none := by
  rw [ofDocument?, fields?_of_unknown mem unknown]
  rfl

end EventMapping

namespace Settings

/-- The names of the fields that are left out of written settings: of the settings themselves, and
of each connection and each mapped event by its name. -/
structure Omission where
  settings : List String
  connection : String → List String
  event : String → List String

/-- Nothing is left out. -/
def Omission.none : Omission := ⟨[], fun _ => [], fun _ => []⟩

/-- The fields under their names, without those of connections and mapped events that are left
out. -/
def fields (s : Settings) (left : Omission) : List (String × Document) :=
  [("log_filter", .text s.logFilter), ("log_format", s.logFormat.toDocument),
    ("lowercase_values", .boolean s.lowercaseValues),
    ("connections", .record (s.connections.toList.map fun entry =>
      (entry.1, recordWithout (left.connection entry.1) entry.2.fields))),
    ("event_map", .record (s.eventMap.toList.map fun entry =>
      (entry.1, recordWithout (left.event entry.1) entry.2.fields))),
    ("player_variables", .list (s.playerVariables.map .text))]

/-- The written form without the fields that are left out. -/
def toDocumentWithout (s : Settings) (left : Omission) : Document :=
  recordWithout left.settings (s.fields left)

/-- The fields stand under their names. -/
theorem fields_names (s : Settings) (left : Omission) :
    (s.fields left).map (·.1) = fieldNames := rfl

/-- Without anything left out it is the written form. -/
theorem toDocumentWithout_none (s : Settings) : s.toDocumentWithout .none = s.toDocument := by
  have all (fields : List (String × Document)) : recordWithout [] fields = record fields := by
    rw [recordWithout, List.filter_eq_self.mpr fun _ _ => by simp]
  simp only [toDocumentWithout, Omission.none, all, fields, ← ConnectionSettings.toDocument_eq,
    ← EventMapping.toDocument_eq]
  simp only [record, List.map_cons, List.map_nil, List.map_map]
  rfl

/-- Whether a field may be left out: it stands at the default of settings. -/
def isDefault (s : Settings) : String → Bool
  | "log_filter" => s.logFilter = default.logFilter
  | "log_format" => s.logFormat = default.logFormat
  | "lowercase_values" => s.lowercaseValues = default.lowercaseValues
  | "connections" => s.connections = default.connections
  | "event_map" => s.eventMap = default.eventMap
  | "player_variables" => s.playerVariables = default.playerVariables
  | _ => false

/-- Only fields that stand at their defaults are left out. -/
structure Omission.Allowed (left : Omission) (s : Settings) : Prop where
  settings : ∀ name ∈ left.settings, s.isDefault name = true
  connections : ∀ entry ∈ s.connections.toList, ∀ name ∈ left.connection entry.1,
    entry.2.isDefault name = true
  events : ∀ entry ∈ s.eventMap.toList, ∀ name ∈ left.event entry.1, entry.2.isDefault name = true

/-- Settings are what their written form is read as, with or without fields that stand at their
defaults. -/
theorem ofDocument?_toDocumentWithout {s : Settings} {left : Omission} (allowed : left.Allowed s) :
    ofDocument? (s.toDocumentWithout left) = some s := by
  obtain ⟨kept, read, remains⟩ :=
    fields?_recordWithout (s.fields_names left) (by decide) left.settings
  have filter : fieldOr kept "log_filter" defaultLogFilter text? = some s.logFilter :=
    remains.fieldOr_eq (d := .text s.logFilter) rfl (by simp [fields])
      fun out => of_decide_eq_true (allowed.settings _ out)
  have format : fieldOr kept "log_format" defaultLogFormat LogFormat.ofDocument? =
      some s.logFormat :=
    remains.fieldOr_eq s.logFormat.ofDocument?_toDocument (by simp [fields])
      fun out => of_decide_eq_true (allowed.settings _ out)
  have lowercase : fieldOr kept "lowercase_values" false boolean? = some s.lowercaseValues :=
    remains.fieldOr_eq (d := .boolean s.lowercaseValues) rfl (by simp [fields])
      fun out => of_decide_eq_true (allowed.settings _ out)
  have each_connection : (record (s.connections.toList.map fun entry =>
      (entry.1, recordWithout (left.connection entry.1) entry.2.fields))).keyMap?
        ConnectionSettings.ofDocument? = some s.connections :=
    keyMap?_record fun entry mem =>
      ConnectionSettings.ofDocument?_recordWithout (allowed.connections entry mem)
  have connections : fieldOr kept "connections" .empty
      (keyMap? ConnectionSettings.ofDocument?) = some s.connections :=
    remains.fieldOr_eq each_connection (by simp [fields])
      fun out => of_decide_eq_true (allowed.settings _ out)
  have each_event : (record (s.eventMap.toList.map fun entry =>
      (entry.1, recordWithout (left.event entry.1) entry.2.fields))).keyMap?
        EventMapping.ofDocument? = some s.eventMap :=
    keyMap?_record fun entry mem =>
      EventMapping.ofDocument?_recordWithout (allowed.events entry mem)
  have events : fieldOr kept "event_map" .empty (keyMap? EventMapping.ofDocument?) =
      some s.eventMap :=
    remains.fieldOr_eq each_event (by simp [fields])
      fun out => of_decide_eq_true (allowed.settings _ out)
  have each_variable : (s.playerVariables.map Document.text).mapM text? =
      some s.playerVariables := mapM_map fun _ _ => rfl
  have selected : fieldOr kept "player_variables" [] (fun d => do
      (← d.items?).mapM Document.text?) = some s.playerVariables :=
    remains.fieldOr_eq (d := .list (s.playerVariables.map .text)) each_variable (by simp [fields])
      fun out => of_decide_eq_true (allowed.settings _ out)
  simp only [ofDocument?, toDocumentWithout, read, filter, format, lowercase, connections, events,
    Option.bind_eq_bind, Option.bind_some]
  simp only [Option.bind_eq_bind] at selected
  rw [selected]
  rfl

/-- Where settings are read, so is each of their connections and each of their mapped events. -/
theorem exists_of_ofDocument? {entries : List (Document × Document)} {s : Settings}
    (read : ofDocument? (.map entries) = some s) :
    (∀ key value, (.text key, value) ∈ entries → key ∈ fieldNames) ∧
    (∀ connections name d, (.text "connections", .map connections) ∈ entries →
      (.text name, d) ∈ connections → ∃ c, ConnectionSettings.ofDocument? d = some c) ∧
    ∀ events name d, (.text "event_map", .map events) ∈ entries → (.text name, d) ∈ events →
      ∃ m, EventMapping.ofDocument? d = some m := by
  simp only [ofDocument?, Option.bind_eq_bind, Option.bind_eq_some_iff] at read
  obtain ⟨fields, known, -, -, -, -, -, -, connections, all_connections, events, all_events, -⟩ :=
    read
  have entry {key : String} {value : Document} (mem : (.text key, value) ∈ entries) :=
    get?_fields? known mem
  refine ⟨fun key value mem => (entry mem).2, fun written name d mem its => ?_,
    fun written name d mem its => ?_⟩
  · rw [fieldOr, (entry mem).1] at all_connections
    obtain ⟨c, one, -⟩ := exists_of_keyMap? all_connections its
    exact ⟨c, one⟩
  · rw [fieldOr, (entry mem).1] at all_events
    obtain ⟨m, one, -⟩ := exists_of_keyMap? all_events its
    exact ⟨m, one⟩

/-- A field that is not asked for stands in written settings, whatever else they hold: among the
fields of the settings themselves, of a connection or of a mapped event. -/
inductive HasUnknown : Document → Prop where
  | settings {entries : List (Document × Document)} {key : String} {value : Document}
      (mem : (.text key, value) ∈ entries) (unknown : key ∉ fieldNames) : HasUnknown (.map entries)
  | connection {entries connections fields : List (Document × Document)} {name key : String}
      {value : Document} (mem : (.text "connections", .map connections) ∈ entries)
      (its : (.text name, .map fields) ∈ connections) (field : (.text key, value) ∈ fields)
      (unknown : key ∉ ConnectionSettings.fieldNames) : HasUnknown (.map entries)
  | event {entries events fields : List (Document × Document)} {name key : String}
      {value : Document} (mem : (.text "event_map", .map events) ∈ entries)
      (its : (.text name, .map fields) ∈ events) (field : (.text key, value) ∈ fields)
      (unknown : key ∉ EventMapping.fieldNames) : HasUnknown (.map entries)

/-- Settings with a field that is not asked for are unreadable. -/
theorem HasUnknown.ofDocument?_eq {d : Document} (unknown : HasUnknown d) :
    ofDocument? d = none := by
  refine Option.eq_none_iff_forall_not_mem.mpr fun s read => ?_
  cases unknown with
  | settings mem unknown => exact unknown ((exists_of_ofDocument? read).1 _ _ mem)
  | connection mem its field unknown =>
    obtain ⟨c, one⟩ := (exists_of_ofDocument? read).2.1 _ _ _ mem its
    rw [ConnectionSettings.ofDocument?_of_unknown field unknown] at one
    cases one
  | event mem its field unknown =>
    obtain ⟨m, one⟩ := (exists_of_ofDocument? read).2.2 _ _ _ mem its
    rw [EventMapping.ofDocument?_of_unknown field unknown] at one
    cases one

/-- Settings that are valid are what their written form is loaded as, also when any fields that
stand at their defaults are left out. Any field that is not asked for makes loading fail, of the
settings, of a connection or of a mapped event. An integer is read as a limit of attempts only if it
is `-1` or a count of 32 bits, and reading and writing limits undo each other. -/
theorem load_toDocument {s : Settings} (valid : s.validate = .ok ()) (origin : String) :
    load origin (some s.toDocument) = .ok s ∧
    (∀ left : Omission, left.Allowed s →
      load origin (some (s.toDocumentWithout left)) = .ok s) ∧
    (∀ d, HasUnknown d → load origin (some d) = .error (.unparsable origin)) ∧
    (∀ value, (∃ limit, AttemptLimit.ofInt value = .ok limit) ↔
      value = -1 ∨ 0 ≤ value ∧ value ≤ AttemptLimit.maxCount) ∧
    ∀ value limit, AttemptLimit.ofInt value = .ok limit ↔ limit.toInt = value := by
  have loaded {d : Document} (read : ofDocument? d = some s) : load origin (some d) = .ok s := by
    simp only [load, Option.bind_some, read, valid, Except.map]
  have whole : Omission.none.Allowed s :=
    ⟨fun _ out => absurd out List.not_mem_nil, fun _ _ _ out => absurd out List.not_mem_nil,
      fun _ _ _ out => absurd out List.not_mem_nil⟩
  refine ⟨?_, fun left allowed => loaded (ofDocument?_toDocumentWithout allowed), ?_,
    fun _ => AttemptLimit.exists_ofInt_iff, fun _ _ => AttemptLimit.ofInt_eq_ok_iff⟩
  · rw [← toDocumentWithout_none]
    exact loaded (ofDocument?_toDocumentWithout whole)
  · intro d unknown
    simp only [load, Option.bind_some, unknown.ofDocument?_eq]

/-- Settings of which each kind of field is left out somewhere, and the same settings with a field
that a connection does not have. -/
theorem load_toDocument_without_defaults :
    let peer := { ConnectionSettings.ofHost "host" with attempts := .bounded 3 }
    let s := { default with
      connections := .ofList [("peer", peer)]
      eventMap := .ofList [("tilted", ⟨"tilt", .empty⟩)] }
    let left : Omission :=
      ⟨["log_filter", "player_variables"], fun _ => ["port", "retry_delay_ms"], fun _ => ["params"]⟩
    let peers := Document.record [("peer", .record (peer.fields ++ [("user", .text "me")]))]
    s.validate = .ok () ∧ left.Allowed s ∧
      load inlineOrigin (some (s.toDocumentWithout left)) = .ok s ∧
      load inlineOrigin (some (.record [("connections", peers)])) =
        .error (.unparsable inlineOrigin) := by
  intro peer s left peers
  have valid : s.validate = .ok () := by decide +kernel
  have allowed : left.Allowed s := ⟨by decide, by decide, by decide⟩
  obtain ⟨-, without, unknown, -⟩ := load_toDocument valid inlineOrigin
  have user : ("user", .text "me") ∈ peer.fields ++ [("user", .text "me")] :=
    List.mem_append_right _ List.mem_cons_self
  refine ⟨valid, allowed, without left allowed, unknown _ ?_⟩
  exact .connection List.mem_cons_self List.mem_cons_self (List.mem_map_of_mem user) (by decide)

end Settings

end Backbox
