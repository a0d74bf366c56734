import Memcached.ConfigParse

set_option autoImplicit false

/-!
# Reloading the configuration

`reload_config_file` of `src/daemon/config_parse.cc`: the configuration file is parsed into zeroed
`new_settings` by `parse_JSON_config` and its handler table, every `dynamic_validate` handler
compares the new settings with the running ones, and when all accept, every `dyanamic_reconfig`
handler copies what changed into the running settings.

The handlers dereference what the C structs point at. A read of a value the settings do not hold
(an interface past `num_interfaces`, a NULL string given to `strcmp`) is an `AbsentRead`, which
ends the model's run where the daemon's behaviour is undefined.
-/

namespace Memcached.ConfigReload

open Memcached.ConfigParse

/-! ## Reads of absent values -/

/-- A string field of the settings, with the index of its interface or extension. -/
inductive StringField where
  | host (ii : Nat)
  | sslCert (ii : Nat)
  | sslKey (ii : Nat)
  | extensionSoname (ii : Nat)
  | saslMechanisms
  | sslMinimumProtocol
  | breakpadMinidumpDir
  deriving DecidableEq, Repr

/-- A read of a value the settings do not hold. -/
inductive AbsentRead where
  /-- `new_settings->interfaces[ii]` with `ii ≥ new_settings->num_interfaces` -/
  | newInterface (ii : Nat)
  /-- a NULL string of the new settings, read by `strcmp` or a stream -/
  | newString (field : StringField)
  /-- a NULL string of the running settings, read by `strcmp` -/
  | runningString (field : StringField)
  deriving DecidableEq, Repr

/-- The read is of the new settings. -/
def AbsentRead.ofNew : AbsentRead → Bool
  | .runningString _ => false
  | _ => true

/-- `strcmp(a, b) != 0`, each pointer given with the read it makes when it is NULL. -/
def strcmpNe (a : Option String) (absentA : AbsentRead) (b : Option String)
    (absentB : AbsentRead) : Except AbsentRead Bool :=
  match a, b with
  | some a, some b => .ok (a != b)
  | none, _ => .error absentA
  | some _, none => .error absentB

/-! ## Validation

A `dynamic_validate_handler` reads the new settings and the running ones (the global `settings`),
and answers whether the change is allowed, with the errors it adds to the `errors` array. -/

abbrev DynamicValidateHandler := Host → Settings → Settings → Except AbsentRead (Bool × List String)

/-- The error of a setting that cannot change. -/
def notDynamic (name : String) : String :=
  "\x27" ++ name ++ "\x27 is not a dynamic setting."

/-- The validators of a value that is not dynamic: absent, or equal to the running one. -/
def validateUnchanged {α : Type} [DecidableEq α] (has : Has → Bool) (field : Settings → α)
    (name : String) : DynamicValidateHandler := fun _ new settings =>
  if !has new.has then .ok (true, [])
  else if field new = field settings then .ok (true, [])
  else .ok (false, [notDynamic name])

/-- The validators of a file name or string that is not dynamic: absent, equal to the running
one, or NULL in both. -/
def validateUnchangedString (has : Has → Bool) (field : Settings → Option String)
    (name : String) : DynamicValidateHandler := fun _ new settings =>
  if !has new.has then .ok (true, [])
  else
    match field settings, field new with
    | some cur, some nw => if nw = cur then .ok (true, []) else .ok (false, [notDynamic name])
    | none, none => .ok (true, [])
    | _, _ => .ok (false, [notDynamic name])

/-- The validators of a dynamic setting. -/
def dynaValidateAlwaysTrue : DynamicValidateHandler := fun _ _ _ => .ok (true, [])

def dynaValidateAdmin : DynamicValidateHandler :=
  validateUnchangedString (·.admin) (·.admin) "admin"

def dynaValidateRbacFile : DynamicValidateHandler :=
  validateUnchangedString (·.rbac) (·.rbacFile) "rbac_file"

def dynaValidateRbacPrivilegeDebug : DynamicValidateHandler := dynaValidateAlwaysTrue

def dynaValidateAuditFile : DynamicValidateHandler :=
  validateUnchangedString (·.audit) (·.auditFile) "audit_file"

def dynaValidateRoot : DynamicValidateHandler :=
  validateUnchangedString (·.root) (·.root) "root"

def dynaValidateSslCipherList : DynamicValidateHandler := dynaValidateAlwaysTrue

/-- `dyna_validate_ssl_minimum_protocol`: the message streams the rejected string. -/
def dynaValidateSslMinimumProtocol : DynamicValidateHandler := fun host ns _ =>
  if !ns.has.sslMinimumProtocol then .ok (true, [])
  else if host.decodeSslProtocol ns.sslMinimumProtocol then .ok (true, [])
  else
    match ns.sslMinimumProtocol with
    | some p => .ok (false, ["\x27" ++ p ++ "\x27 is not a supported value for \x27ssl_minimum_protocol"])
    | none => .error (.newString .sslMinimumProtocol)

def dynaValidateThreads : DynamicValidateHandler :=
  validateUnchanged (·.threads) (·.numThreads) "num_threads"

def dynaValidateMaxPacketSize : DynamicValidateHandler :=
  validateUnchanged (·.maxPacketSize) (·.maxPacketSize) "max_packet_size"

/-- The checks of `dyna_validate_interfaces` on entry `ii`: host, port and address families
cannot change, unless either port is a wildcard. -/
def validateInterface (ii : Nat) (curIf newIf : Interface) : Except AbsentRead (Bool × List String) :=
  if curIf.port = 0 ∨ newIf.port = 0 then .ok (true, [])
  else do
    let hostChanged ← strcmpNe newIf.host (.newString (.host ii)) curIf.host (.runningString (.host ii))
    let cannot (what : String) : String :=
      "interface \x27" ++ toString ii ++ "\x27 cannot change " ++ what ++ " dynamically."
    let errors := (if hostChanged then [cannot "host"] else []) ++
      (if newIf.port ≠ curIf.port then [cannot "port"] else []) ++
      (if newIf.ipv4 ≠ curIf.ipv4 then [cannot "IPv4"] else []) ++
      (if newIf.ipv6 ≠ curIf.ipv6 then [cannot "IPv6"] else [])
    pure (errors.isEmpty, errors)

/-- The loop of `dyna_validate_interfaces` from entry `ii` on. -/
def validateInterfacesFrom (ii : Nat) :
    List Interface → List Interface → Except AbsentRead (Bool × List String)
  | curIf :: curIfs, newIf :: newIfs => do
    let (valid, errors) ← validateInterface ii curIf newIf
    let (valid', errors') ← validateInterfacesFrom (ii + 1) curIfs newIfs
    pure (valid && valid', errors ++ errors')
  | _, _ => .ok (true, [])

def dynaValidateInterfaces : DynamicValidateHandler := fun _ new settings =>
  if !new.has.interfaces then .ok (true, [])
  else if new.interfaces.length = settings.interfaces.length then
    validateInterfacesFrom 0 settings.interfaces new.interfaces
  else .ok (false, ["Number of interfaces cannot change dynamically."])

/-- The checks of `dyna_validate_extensions` on entry `ii`: the new `soname` is given and equal
to the running one, and a running `config` is kept. -/
def validateExtension (ii : Nat) (cur nw : ExtensionSettings) : Except AbsentRead Bool := do
  let sonameKept ← match nw.soname, cur.soname with
    | none, _ => pure false
    | some n, some c => pure (n == c)
    | some _, none => throw (.runningString (.extensionSoname ii))
  let configKept := match cur.config, nw.config with
    | none, _ => true
    | some c, some n => n == c
    | some _, none => false
  pure (sonameKept && configKept)

def validateExtensionsFrom (ii : Nat) :
    List ExtensionSettings → List ExtensionSettings → Except AbsentRead Bool
  | cur :: curs, nw :: nws => do
    let valid ← validateExtension ii cur nw
    pure (valid && (← validateExtensionsFrom (ii + 1) curs nws))
  | _, _ => .ok true

def dynaValidateExtensions : DynamicValidateHandler := fun _ new settings =>
  if !new.has.extensions then .ok (true, [])
  else do
    let valid ← if new.pendingExtensions.length = settings.pendingExtensions.length then
        validateExtensionsFrom 0 settings.pendingExtensions new.pendingExtensions
      else pure false
    pure (if valid then (true, []) else (false, [notDynamic "extensions"]))

def dynaValidateEngine : DynamicValidateHandler := dynaValidateAlwaysTrue

def dynaValidateRequireInit : DynamicValidateHandler :=
  validateUnchanged (·.requireInit) (·.requireInit) "require_init"

def dynaValidateRequireSasl : DynamicValidateHandler :=
  validateUnchanged (·.requireSasl) (·.requireSasl) "require_sasl"

def dynaValidateDefaultReqsPerEvent : DynamicValidateHandler := dynaValidateAlwaysTrue

def dynaValidateReqsPerEventHighPriority : DynamicValidateHandler := dynaValidateAlwaysTrue

def dynaValidateReqsPerEventMedPriority : DynamicValidateHandler := dynaValidateAlwaysTrue

def dynaValidateReqsPerEventLowPriority : DynamicValidateHandler := dynaValidateAlwaysTrue

def dynaValidateVerbosity : DynamicValidateHandler := dynaValidateAlwaysTrue

def dynaValidateConnectionIdleTime : DynamicValidateHandler := dynaValidateAlwaysTrue

def dynaValidateBioDrainSz : DynamicValidateHandler :=
  validateUnchanged (·.bioDrainBufferSz) (·.bioDrainBufferSz) "bio_drain_buffer_sz"

def dynaValidateDatatype : DynamicValidateHandler :=
  validateUnchanged (·.datatype) (·.datatype) "datatype_support"

def dynaValidateBreakpad : DynamicValidateHandler := dynaValidateAlwaysTrue

/-- Named `dyna_reconfig_stdin_listen` in the source, though it stands in the validator column. -/
def dynaReconfigStdinListen : DynamicValidateHandler :=
  validateUnchanged (·.stdinListen) (·.stdinListen) "stdin_listen"

def dynaReconfigExitOnConnectionClose : DynamicValidateHandler :=
  validateUnchanged (·.exitOnConnectionClose) (·.exitOnConnectionClose) "exit_on_connection_close"

/-- Named `dyna_reconfig_sasl_mechanisms` in the source, a validator: the mechanisms cannot
change, and cannot be set when the running settings have none. -/
def dynaReconfigSaslMechanisms : DynamicValidateHandler := fun _ new settings =>
  if !new.has.saslMechanisms then .ok (true, [])
  else if settings.saslMechanisms.isNone then .ok (false, [notDynamic "sasl_mechanisms"])
  else do
    let differ ← strcmpNe new.saslMechanisms (.newString .saslMechanisms)
      settings.saslMechanisms (.runningString .saslMechanisms)
    pure (if differ then (false, [notDynamic "sasl_mechanisms"]) else (true, []))

/-! ## Reconfiguration

A `dynamic_reconfig_handler` reads the new settings and returns the running ones with the
changes applied. The daemon-side effects that go with them (listening ports, `setsockopt`,
breakpad, the SSL context, log callbacks) are left out. -/

abbrev DynamicReconfigHandler := Settings → Settings → Except AbsentRead Settings

/-- The handlers of a dynamic value: copied when the file gives it and it differs. -/
def reconfigValue {α : Type} [DecidableEq α] (has : Has → Bool) (field : Settings → α)
    (set : Settings → α → Settings) : DynamicReconfigHandler := fun new settings =>
  .ok (if has new.has && field new ≠ field settings then set settings (field new) else settings)

/-- The handlers that copy a value and its flag whenever the file gives it. -/
def reconfigCopy (has : Has → Bool) (set : Settings → Settings → Settings) :
    DynamicReconfigHandler := fun new settings =>
  .ok (if has new.has then set settings new else settings)

def dynaReconfigRbacPrivilegeDebug : DynamicReconfigHandler :=
  reconfigCopy (·.rbacPrivilegeDebug) fun settings new =>
    { settings with has.rbacPrivilegeDebug := true, rbacPrivilegeDebug := new.rbacPrivilegeDebug }

/-- The interface fields copied when they differ. -/
def reconfigIfaceField {α : Type} [DecidableEq α] (field : Interface → α)
    (set : Interface → α → Interface) (newIf curIf : Interface) : Interface :=
  if field newIf ≠ field curIf then set curIf (field newIf) else curIf

def dynaReconfigIfaceMaxconns (newIf curIf : Interface) : Interface :=
  reconfigIfaceField (·.maxconn) (fun i maxconn => { i with maxconn }) newIf curIf

def dynaReconfigIfaceBacklog (newIf curIf : Interface) : Interface :=
  reconfigIfaceField (·.backlog) (fun i backlog => { i with backlog }) newIf curIf

def dynaReconfigIfaceNodelay (newIf curIf : Interface) : Interface :=
  reconfigIfaceField (·.tcpNodelay) (fun i tcpNodelay => { i with tcpNodelay }) newIf curIf

/-- `dyna_reconfig_iface_ssl`: a running certificate, then a running key, is compared with the
new one by `strcmp` and replaced when they differ. -/
def dynaReconfigIfaceSsl (ii : Nat) (newIf curIf : Interface) : Except AbsentRead Interface := do
  let curIf ← match curIf.ssl.cert with
    | none => pure curIf
    | some _ => do
      let differ ← strcmpNe newIf.ssl.cert (.newString (.sslCert ii)) curIf.ssl.cert
        (.runningString (.sslCert ii))
      pure (if differ then { curIf with ssl.cert := newIf.ssl.cert } else curIf)
  match curIf.ssl.key with
  | none => pure curIf
  | some _ => do
    let differ ← strcmpNe newIf.ssl.key (.newString (.sslKey ii)) curIf.ssl.key
      (.runningString (.sslKey ii))
    pure (if differ then { curIf with ssl.key := newIf.ssl.key } else curIf)

/-- The four reconfigurations of one interface whose new port is not a wildcard. -/
def dynaReconfigIface (ii : Nat) (newIf curIf : Interface) : Except AbsentRead Interface :=
  dynaReconfigIfaceSsl ii newIf
    (dynaReconfigIfaceNodelay newIf (dynaReconfigIfaceBacklog newIf (dynaReconfigIfaceMaxconns newIf curIf)))

/-- The loop of `dyna_reconfig_interfaces` from entry `ii` on: the bound is the running
`num_interfaces`, and each entry reads `new_settings->interfaces[ii]`. -/
def reconfigInterfacesFrom (newIfs : List Interface) :
    Nat → List Interface → Except AbsentRead (List Interface)
  | _, [] => .ok []
  | ii, curIf :: curIfs =>
    match newIfs[ii]? with
    | none => .error (.newInterface ii)
    | some newIf => do
      let curIf ← if newIf.port ≠ 0 then dynaReconfigIface ii newIf curIf else pure curIf
      pure (curIf :: (← reconfigInterfacesFrom newIfs (ii + 1) curIfs))

def dynaReconfigInterfaces : DynamicReconfigHandler := fun new settings => do
  let interfaces ← reconfigInterfacesFrom new.interfaces 0 settings.interfaces
  pure { settings with interfaces }

def dynaReconfigDefaultReqsPerEvent : DynamicReconfigHandler :=
  reconfigValue (·.defaultReqsPerEvent) (·.defaultReqsPerEvent) fun s v =>
    { s with defaultReqsPerEvent := v }

def dynaReconfigReqsPerEventHighPriority : DynamicReconfigHandler :=
  reconfigValue (·.reqsPerEventHighPriority) (·.reqsPerEventHighPriority) fun s v =>
    { s with reqsPerEventHighPriority := v }

def dynaReconfigReqsPerEventMedPriority : DynamicReconfigHandler :=
  reconfigValue (·.reqsPerEventMedPriority) (·.reqsPerEventMedPriority) fun s v =>
    { s with reqsPerEventMedPriority := v }

def dynaReconfigReqsPerEventLowPriority : DynamicReconfigHandler :=
  reconfigValue (·.reqsPerEventLowPriority) (·.reqsPerEventLowPriority) fun s v =>
    { s with reqsPerEventLowPriority := v }

def dynaReconfigVerbosity : DynamicReconfigHandler :=
  reconfigValue (·.verbose) (·.verbose) fun s v => { s with verbose := v }

def dynaReconfigConnectionIdleTime : DynamicReconfigHandler :=
  reconfigValue (·.connectionIdleTime) (·.connectionIdleTime) fun s v =>
    { s with connectionIdleTime := v }

/-- `dyna_reconfig_breakpad`: each field that differs is copied, so the running section becomes
the new one; `minidump_dir` is compared with `strcmp`. -/
def dynaReconfigBreakpad : DynamicReconfigHandler := fun new settings =>
  if !new.has.breakpad then .ok settings
  else do
    let _ ← strcmpNe new.breakpad.minidumpDir (.newString .breakpadMinidumpDir)
      settings.breakpad.minidumpDir (.runningString .breakpadMinidumpDir)
    pure { settings with breakpad := new.breakpad }

/-- `dyna_reconfig_ssl_cipher_list`: `cb_free(settings.ssl_cipher_list)`, then the running
settings take `new_settings->ssl_cipher_list`, the new settings' own pointer, shown here as the
text it points at; `free_settings` releases it when the reload ends (`ConfigMemory`). -/
def dynaReconfigSslCipherList : DynamicReconfigHandler :=
  reconfigCopy (·.sslCipherList) fun settings new =>
    { settings with sslCipherList := new.sslCipherList, has.sslCipherList := true }

/-- `dyna_reconfig_ssl_minimum_protocol`: as `dyna_reconfig_ssl_cipher_list`, the running
settings take the new settings' own pointer, which `free_settings` releases when the reload ends
(`ConfigMemory`). -/
def dynaReconfigSslMinimumProtocol : DynamicReconfigHandler :=
  reconfigCopy (·.sslMinimumProtocol) fun settings ns =>
    { settings with sslMinimumProtocol := ns.sslMinimumProtocol, has.sslMinimumProtocol := true }

def dynaReconfigDedupeNmvbMaps : DynamicReconfigHandler :=
  reconfigCopy (·.dedupeNmvbMaps) fun settings new =>
    { settings with dedupeNmvbMaps := new.dedupeNmvbMaps, has.dedupeNmvbMaps := true }

/-! ## The handler table and the reload -/

/-- An entry of `handlers[]`. -/
structure HandlerEntry where
  key : String
  handler : ConfigHandler
  dynamicValidate : DynamicValidateHandler
  dyanamicReconfig : Option DynamicReconfigHandler

/-- `handlers[]`, in the source's order. -/
def handlers : List HandlerEntry :=
  [⟨"admin", getAdmin, dynaValidateAdmin, none⟩,
    ⟨"rbac_file", getRbacFile, dynaValidateRbacFile, none⟩,
    ⟨"rbac_privilege_debug", getRbacPrivilegeDebug, dynaValidateRbacPrivilegeDebug,
      some dynaReconfigRbacPrivilegeDebug⟩,
    ⟨"audit_file", getAuditFile, dynaValidateAuditFile, none⟩,
    ⟨"threads", getThreads, dynaValidateThreads, none⟩,
    ⟨"interfaces", getInterfaces, dynaValidateInterfaces, some dynaReconfigInterfaces⟩,
    ⟨"extensions", getExtensions, dynaValidateExtensions, none⟩,
    ⟨"engine", getEngine, dynaValidateEngine, none⟩,
    ⟨"require_init", getRequireInit, dynaValidateRequireInit, none⟩,
    ⟨"require_sasl", getRequireSasl, dynaValidateRequireSasl, none⟩,
    ⟨"default_reqs_per_event", getDefaultReqsPerEvent, dynaValidateDefaultReqsPerEvent,
      some dynaReconfigDefaultReqsPerEvent⟩,
    ⟨"reqs_per_event_high_priority", getReqsPerEventHighPriority,
      dynaValidateReqsPerEventHighPriority, some dynaReconfigReqsPerEventHighPriority⟩,
    ⟨"reqs_per_event_med_priority", getReqsPerEventMedPriority,
      dynaValidateReqsPerEventMedPriority, some dynaReconfigReqsPerEventMedPriority⟩,
    ⟨"reqs_per_event_low_priority", getReqsPerEventLowPriority,
      dynaValidateReqsPerEventLowPriority, some dynaReconfigReqsPerEventLowPriority⟩,
    ⟨"verbosity", getVerbosity, dynaValidateVerbosity, some dynaReconfigVerbosity⟩,
    ⟨"connection_idle_time", getConnectionIdleTime, dynaValidateConnectionIdleTime,
      some dynaReconfigConnectionIdleTime⟩,
    ⟨"bio_drain_buffer_sz", getBioDrainSz, dynaValidateBioDrainSz, none⟩,
    ⟨"datatype_support", getDatatype, dynaValidateDatatype, none⟩,
    ⟨"root", getRoot, dynaValidateRoot, none⟩,
    ⟨"ssl_cipher_list", getSslCipherList, dynaValidateSslCipherList,
      some dynaReconfigSslCipherList⟩,
    ⟨"ssl_minimum_protocol", getSslMinimumProtocol, dynaValidateSslMinimumProtocol,
      some dynaReconfigSslMinimumProtocol⟩,
    ⟨"breakpad", parseBreakpad, dynaValidateBreakpad, some dynaReconfigBreakpad⟩,
    ⟨"max_packet_size", getMaxPacketSize, dynaValidateMaxPacketSize, none⟩,
    ⟨"stdin_listen", getStdinListen, dynaReconfigStdinListen, none⟩,
    ⟨"exit_on_connection_close", getExitOnConnectionClose, dynaReconfigExitOnConnectionClose,
      none⟩,
    ⟨"sasl_mechanisms", getSaslMechanisms, dynaReconfigSaslMechanisms, none⟩,
    ⟨"dedupe_nmvb_maps", getDedupeNmvbMaps, dynaValidateAlwaysTrue,
      some dynaReconfigDedupeNmvbMaps⟩]

/-- `parse_JSON_config` over the members of the configuration object: each is handed to the
first handler whose key `strcasecmp` matches; an unknown one is logged and skipped. -/
def parseJSONConfig (host : Host) : List (String × Json) → Settings → Except String Settings
  | [], s => .ok s
  | (name, obj) :: objs, s =>
    match handlers.find? (fun e => strcasecmp e.key name) with
    | none => parseJSONConfig host objs s
    | some e => do parseJSONConfig host objs (← e.handler host name obj s)

/-- `parse_config_file`: `config_load_file` gives the configuration object or the text of
`config_strerror`. -/
def parseConfigFile (host : Host) (loaded : Except String (List (String × Json)))
    (settings : Settings) : Except String Settings := do
  parseJSONConfig host (← loaded) settings

/-- The validation loop of `reload_config_file`: `valid &= handler(..)` runs every handler, and
the errors are collected in order. -/
def validateAll (host : Host) (new settings : Settings) :
    List HandlerEntry → Except AbsentRead (Bool × List String)
  | [] => .ok (true, [])
  | e :: es => do
    let (valid, errors) ← e.dynamicValidate host new settings
    let (valid', errors') ← validateAll host new settings es
    pure (valid && valid', errors ++ errors')

/-- The reconfiguration loop of `reload_config_file`: each handler that has one, in order. -/
def reconfigAll (new : Settings) : List HandlerEntry → Settings → Except AbsentRead Settings
  | [], settings => .ok settings
  | e :: es, settings =>
    match e.dyanamicReconfig with
    | none => reconfigAll new es settings
    | some reconfig => do reconfigAll new es (← reconfig new settings)

/-- `reload_config_file`: the running settings after the reload, and the warnings it logs. It
ends with `free_settings(&new_settings)`, which the values here do not see: the strings the
running settings took over by pointer (the SSL cipher list and minimum protocol) are shown with
the text they held before that release; `ConfigMemory.reloadConfigFile` models the release. -/
def reloadConfigFile (host : Host) (configFile : String)
    (loaded : Except String (List (String × Json))) (settings : Settings) :
    Except AbsentRead (Settings × List String) :=
  match parseConfigFile host loaded {} with
  | .error errorMsg =>
    .ok (settings, ["Failed to reload config file " ++ configFile ++ " : " ++ errorMsg ++ "\n"])
  | .ok new => do
    let (valid, errors) ← validateAll host new settings handlers
    if valid then
      pure (← reconfigAll new handlers settings, [])
    else
      pure (settings, ("Validation failed while reloading config file \x27" ++ configFile ++
        "\x27. Errors:") :: errors.map fun e => "\t" ++ host.cJSONPrint (.string e))

/-! ## Parsing keeps `WellFormed` -/

theorem handlers_keepWellFormed : ∀ e ∈ handlers, KeepsWellFormed e.handler := by
  simp only [handlers, List.mem_cons, List.mem_singleton, forall_eq_or_imp, forall_eq,
    List.not_mem_nil, false_or, or_false, imp_false]
  refine ⟨getAdmin_wellFormed, ?_, ?_, ?_, ?_, getInterfaces_wellFormed, getExtensions_wellFormed,
    fun _ _ _ _ _ h hs => by cases hs; exact h, ?_, ?_, ?_, ?_, ?_, ?_, ?_, ?_, ?_, ?_, ?_, ?_, ?_,
    parseBreakpad_wellFormed, ?_, ?_, ?_, ?_, ?_⟩
  all_goals intro _ _ _ _ _ h hs
  all_goals first
    | exact map_wellFormed hs fun _ => h.of_frame rfl rfl rfl rfl
    | exact getFileSetting_wellFormed hs fun _ => h.of_frame rfl rfl rfl rfl

theorem parseJSONConfig_keeps (host : Host) {P : Settings → Prop}
    (hP : ∀ e ∈ handlers, ∀ name o s s', P s → e.handler host name o s = .ok s' → P s') :
    ∀ (sys : List (String × Json)) {s s' : Settings}, P s → parseJSONConfig host sys s = .ok s' → P s'
  | [], _, _, h, hs => by cases hs; exact h
  | (name, obj) :: objs, s, s', h, hs => by
    simp only [parseJSONConfig] at hs
    split at hs
    · exact parseJSONConfig_keeps host hP objs h hs
    · obtain ⟨s₁, h₁, hs⟩ := bind_eq_ok.1 hs
      exact parseJSONConfig_keeps host hP objs
        (hP _ (List.mem_of_find?_eq_some ‹_›) name obj s s₁ h h₁) hs

theorem parseJSONConfig_wellFormed (host : Host) :
    ∀ (sys : List (String × Json)) {s s' : Settings}, WellFormed s →
      parseJSONConfig host sys s = .ok s' → WellFormed s' :=
  parseJSONConfig_keeps host fun e he => handlers_keepWellFormed e he host

/-! ## Accepted validation -/

theorem validateAll_true {host : Host} {new settings : Settings} :
    ∀ {es : List HandlerEntry} {errors : List String},
      validateAll host new settings es = .ok (true, errors) →
        ∀ e ∈ es, ∃ errs, e.dynamicValidate host new settings = .ok (true, errs)
  | [], _, _ => by simp
  | e :: es, _, h => by
    obtain ⟨⟨valid, errs⟩, he, h⟩ := bind_eq_ok.1 h
    obtain ⟨⟨valid', errs'⟩, hes, h⟩ := bind_eq_ok.1 h
    simp only [pure, Except.pure, Except.ok.injEq, Prod.mk.injEq, Bool.and_eq_true] at h
    obtain ⟨⟨rfl, rfl⟩, -⟩ := h
    intro e' he'
    rcases List.mem_cons.1 he' with rfl | he'
    · exact ⟨errs, he⟩
    · exact validateAll_true hes e' he'

theorem dynaValidateInterfaces_length (host : Host) {new settings : Settings} {errs : List String}
    (h : dynaValidateInterfaces host new settings = .ok (true, errs))
    (hi : new.has.interfaces = true) :
    new.interfaces.length = settings.interfaces.length := by
  by_contra hne
  simp [dynaValidateInterfaces, hi, hne] at h

/-! ## Which reconfigurations read absent new values -/

/-- `dyna_reconfig_iface_ssl` hands `strcmp` a NULL of the new interface: the running interface
has a certificate or a key and the new one, on a port that is not a wildcard, has none. -/
def SslDropped (curIf newIf : Interface) : Prop :=
  newIf.port ≠ 0 ∧ (curIf.ssl.cert.isSome = true ∧ newIf.ssl.cert = none ∨
    curIf.ssl.key.isSome = true ∧ newIf.ssl.key = none)

instance (curIf newIf : Interface) : Decidable (SslDropped curIf newIf) :=
  inferInstanceAs (Decidable (newIf.port ≠ 0 ∧
    (curIf.ssl.cert.isSome = true ∧ newIf.ssl.cert = none ∨
      curIf.ssl.key.isSome = true ∧ newIf.ssl.key = none)))

/-- `dyna_reconfig_iface_ssl` in closed form: it reads the new certificate when the running
interface has one, then the new key when the running interface has one, and stops at the first
that is absent. -/
theorem dynaReconfigIfaceSsl_eq (ii : Nat) (newIf curIf : Interface) :
    dynaReconfigIfaceSsl ii newIf curIf =
      if curIf.ssl.cert.isSome ∧ newIf.ssl.cert = none then .error (.newString (.sslCert ii))
      else if curIf.ssl.key.isSome ∧ newIf.ssl.key = none then .error (.newString (.sslKey ii))
      else .ok { curIf with ssl :=
        { key := if curIf.ssl.key.isSome then newIf.ssl.key else curIf.ssl.key,
          cert := if curIf.ssl.cert.isSome then newIf.ssl.cert else curIf.ssl.cert } } := by
  obtain ⟨_, _, _, _, _, _, _, _, _, ⟨key, cert⟩⟩ := curIf
  obtain ⟨_, _, _, _, _, _, _, _, _, ⟨key', cert'⟩⟩ := newIf
  cases cert with
  | none =>
    -- no running certificate: only the keys are compared
    cases key with
    | none => rfl
    | some k =>
      cases key' with
      | none => rfl
      | some k' => by_cases hk : k' = k <;> simp [dynaReconfigIfaceSsl, strcmpNe, hk]
  | some c =>
    -- the certificates are compared, then the keys
    cases cert' with
    | none => rfl
    | some c' =>
      by_cases hc : c' = c <;> cases key with
      | none => simp [dynaReconfigIfaceSsl, strcmpNe, bind, Except.bind, pure, Except.pure, hc]
      | some k =>
        cases key' with
        | none => simp [dynaReconfigIfaceSsl, strcmpNe, bind, Except.bind, pure, Except.pure, hc]
        | some k' =>
          by_cases hk : k' = k <;>
            simp [dynaReconfigIfaceSsl, strcmpNe, bind, Except.bind, pure, Except.pure, hc, hk]

theorem dynaReconfigIfaceSsl_ofNew {ii : Nat} {newIf curIf : Interface} {a : AbsentRead}
    (h : dynaReconfigIfaceSsl ii newIf curIf = .error a) : a.ofNew = true := by
  rw [dynaReconfigIfaceSsl_eq] at h
  split_ifs at h <;> cases h <;> rfl

theorem reconfigIfaceField_eq {α : Type} [DecidableEq α] {field : Interface → α}
    {set : Interface → α → Interface} (hset : ∀ i, set i (field i) = i) (newIf curIf : Interface) :
    reconfigIfaceField field set newIf curIf = set curIf (field newIf) := by
  unfold reconfigIfaceField
  split_ifs with h
  · rfl
  · rw [not_not.1 h, hset]

theorem dynaReconfigIface_eq (ii : Nat) (newIf curIf : Interface) :
    dynaReconfigIface ii newIf curIf = dynaReconfigIfaceSsl ii newIf
      { curIf with
        maxconn := newIf.maxconn, backlog := newIf.backlog, tcpNodelay := newIf.tcpNodelay } := by
  simp (disch := exact fun _ => rfl) only [dynaReconfigIface, dynaReconfigIfaceNodelay,
    dynaReconfigIfaceBacklog, dynaReconfigIfaceMaxconns, reconfigIfaceField_eq]

theorem dynaReconfigIface_error {ii : Nat} {newIf curIf : Interface} :
    (∃ a, dynaReconfigIface ii newIf curIf = .error a) ↔
      curIf.ssl.cert.isSome = true ∧ newIf.ssl.cert = none ∨
        curIf.ssl.key.isSome = true ∧ newIf.ssl.key = none := by
  rw [dynaReconfigIface_eq, dynaReconfigIfaceSsl_eq]
  split_ifs with hc hk <;> simp [*]

/-- Entry `ii` makes `dyna_reconfig_interfaces` read an absent value of the new settings:
`new_settings->interfaces[ii]` is past the end, or its SSL is dropped. -/
def ReadsAbsent (newIfs : List Interface) (ii : Nat) (curIf : Interface) : Prop :=
  match newIfs[ii]? with
  | none => True
  | some newIf => SslDropped curIf newIf

theorem reconfigInterfacesFrom_error (newIfs : List Interface) :
    ∀ (ii : Nat) (curIfs : List Interface),
      (∃ a, reconfigInterfacesFrom newIfs ii curIfs = .error a) ↔
        ∃ j curIf, curIfs[j]? = some curIf ∧ ReadsAbsent newIfs (ii + j) curIf
  | _, [] => ⟨fun ⟨_, h⟩ => (nomatch h), fun ⟨_, _, h, _⟩ => nomatch h⟩
  | ii, curIf :: curIfs => by
    have hrest : (∃ j c, (curIf :: curIfs)[j]? = some c ∧ ReadsAbsent newIfs (ii + j) c) ↔
        ReadsAbsent newIfs ii curIf ∨
          ∃ j c, curIfs[j]? = some c ∧ ReadsAbsent newIfs (ii + 1 + j) c := by
      constructor
      · rintro ⟨_ | j, c, hc, h⟩
        · obtain rfl : curIf = c := by simpa using hc
          exact .inl h
        · rw [List.getElem?_cons_succ] at hc
          exact .inr ⟨j, c, hc, by rwa [Nat.add_right_comm, Nat.add_assoc]⟩
      · rintro (h | ⟨j, c, hc, h⟩)
        · exact ⟨0, curIf, List.getElem?_cons_zero, h⟩
        · exact ⟨j + 1, c, by rwa [List.getElem?_cons_succ],
            by rwa [Nat.add_right_comm, Nat.add_assoc] at h⟩
    rw [hrest, ← reconfigInterfacesFrom_error newIfs (ii + 1) curIfs]
    simp only [reconfigInterfacesFrom, ReadsAbsent]
    cases hn : newIfs[ii]? with
    | none => simp
    | some newIf =>
      dsimp only
      by_cases hp : newIf.port = 0
      · cases reconfigInterfacesFrom newIfs (ii + 1) curIfs <;>
          simp [SslDropped, hp, bind, Except.bind, pure, Except.pure]
      · simp only [SslDropped, hp, ne_eq, not_false_eq_true, true_and, if_true,
          ← @dynaReconfigIface_error ii newIf curIf]
        cases dynaReconfigIface ii newIf curIf <;>
          cases reconfigInterfacesFrom newIfs (ii + 1) curIfs <;>
          simp [bind, Except.bind, pure, Except.pure]

theorem reconfigInterfacesFrom_ofNew (newIfs : List Interface) :
    ∀ (ii : Nat) (curIfs : List Interface) (a : AbsentRead),
      reconfigInterfacesFrom newIfs ii curIfs = .error a → a.ofNew = true
  | _, [], _, h => by cases h
  | ii, curIf :: curIfs, a, h => by
    have hrest : ∀ c, (reconfigInterfacesFrom newIfs (ii + 1) curIfs >>= fun r => pure (c :: r)) =
        .error a → a.ofNew = true := fun c h => by
      rcases bind_eq_error.1 h with h | ⟨_, -, h⟩
      · exact reconfigInterfacesFrom_ofNew newIfs (ii + 1) curIfs a h
      · cases h
    simp only [reconfigInterfacesFrom] at h
    split at h
    · cases h; rfl
    · split at h <;> rcases bind_eq_error.1 h with h | ⟨c, -, h⟩
      · exact dynaReconfigIfaceSsl_ofNew (dynaReconfigIface_eq .. ▸ h)
      · exact hrest c h
      · cases h
      · exact hrest c h

theorem dynaReconfigBreakpad_ofNew {new settings : Settings} {a : AbsentRead}
    (hnew : WellFormed new) (h : dynaReconfigBreakpad new settings = .error a) :
    a.ofNew = false := by
  unfold dynaReconfigBreakpad at h
  cases hb : new.has.breakpad
  · simp [hb] at h
  · obtain ⟨d, hd⟩ := Option.isSome_iff_exists.1 (hnew.2 hb)
    cases hc : settings.breakpad.minidumpDir <;>
      simp [hb, hd, hc, strcmpNe, bind, Except.bind, pure, Except.pure] at h
    subst h; rfl

theorem reconfigAll_ofNew {new : Settings} : ∀ {es : List HandlerEntry},
    (∀ e ∈ es, ∀ r ∈ e.dyanamicReconfig, ∀ s a, r new s = .error a → a.ofNew = false) →
      ∀ {s : Settings} {a : AbsentRead}, reconfigAll new es s = .error a → a.ofNew = false
  | [], _, _, _, h => by cases h
  | e :: es, hes, s, a, h => by
    simp only [reconfigAll] at h
    split at h
    · exact reconfigAll_ofNew (fun e he => hes e (.tail _ he)) h
    · rcases bind_eq_error.1 h with h | ⟨_, -, h⟩
      · exact hes e (.head _) _ ‹_› s a h
      · exact reconfigAll_ofNew (fun e he => hes e (.tail _ he)) h

theorem handlers_drop_ofNew {new : Settings} (hnew : WellFormed new) :
    ∀ e ∈ handlers.drop 6, ∀ r ∈ e.dyanamicReconfig, ∀ s a,
      r new s = .error a → a.ofNew = false := by
  simp only [handlers, List.drop_succ_cons, List.drop_zero, List.forall_mem_cons,
    List.not_mem_nil, false_implies, implies_true, and_true]
  refine ⟨?_, ?_, ?_, ?_, ?_, ?_, ?_, ?_, ?_, ?_, ?_, ?_, ?_, ?_, ?_, ?_, ?_, ?_, ?_, ?_, ?_⟩
  all_goals intro r hr s a h; cases hr
  all_goals first | cases h | exact dynaReconfigBreakpad_ofNew hnew h

theorem reconfigAll_handlers (new settings : Settings) :
    ∃ settings', settings'.interfaces = settings.interfaces ∧
      reconfigAll new handlers settings =
        dynaReconfigInterfaces new settings' >>= reconfigAll new (handlers.drop 6) := by
  refine ⟨_, ?_, rfl⟩
  split <;> rfl

theorem reconfigAll_handlers_ofNew {new : Settings} (hnew : WellFormed new) (settings : Settings) :
    (∃ a, reconfigAll new handlers settings = .error a ∧ a.ofNew = true) ↔
      ∃ a, reconfigInterfacesFrom new.interfaces 0 settings.interfaces = .error a := by
  obtain ⟨settings', hif, hsplit⟩ := reconfigAll_handlers new settings
  have hpure : ∀ a, (reconfigInterfacesFrom new.interfaces 0 settings.interfaces >>=
      fun interfaces => pure { settings' with interfaces }) = .error a ↔
        reconfigInterfacesFrom new.interfaces 0 settings.interfaces = .error a := by
    intro a
    cases reconfigInterfacesFrom new.interfaces 0 settings.interfaces <;>
      simp [bind, Except.bind, pure, Except.pure]
  simp only [hsplit, dynaReconfigInterfaces, hif]
  constructor
  · rintro ⟨a, h, hn⟩
    rcases bind_eq_error.1 h with h | ⟨_, -, h⟩
    · exact ⟨a, (hpure a).1 h⟩
    · exact absurd (reconfigAll_ofNew (handlers_drop_ofNew hnew) h) (by simp [hn])
  · rintro ⟨a, h⟩
    exact ⟨a, bind_eq_error.2 (.inl ((hpure a).2 h)),
      reconfigInterfacesFrom_ofNew _ 0 _ a h⟩

/-! ## Reads of absent new values in a reload -/

theorem reloadConfigFile_of_valid {host : Host} {configFile : String} {settings : Settings}
    {sys : List (String × Json)} {new : Settings} {errors : List String}
    (hnew : parseJSONConfig host sys {} = .ok new)
    (hvalid : validateAll host new settings handlers = .ok (true, errors)) :
    reloadConfigFile host configFile (.ok sys) settings =
      reconfigAll new handlers settings >>= fun s => pure (s, []) := by
  simp [reloadConfigFile, parseConfigFile, hnew, hvalid, bind, Except.bind]

theorem reloadConfigFile_reads_absent_new_value (host : Host) (configFile : String)
    (settings : Settings) {sys : List (String × Json)} {new : Settings} {errors : List String}
    (hnew : parseJSONConfig host sys {} = .ok new)
    (hvalid : validateAll host new settings handlers = .ok (true, errors)) :
    (∃ a, reloadConfigFile host configFile (.ok sys) settings = .error a ∧ a.ofNew = true) ↔
      (new.has.interfaces = false ∧ settings.interfaces ≠ []) ∨
        ∃ (ii : Nat) (curIf newIf : Interface), settings.interfaces[ii]? = some curIf ∧
          new.interfaces[ii]? = some newIf ∧ SslDropped curIf newIf := by
  have hwf := parseJSONConfig_wellFormed host sys wellFormed_zero hnew
  obtain ⟨errs, hv⟩ := validateAll_true hvalid _ (List.get_mem handlers 5 (by decide))
  have hreload : (∃ a, reloadConfigFile host configFile (.ok sys) settings = .error a ∧
      a.ofNew = true) ↔ ∃ a, reconfigAll new handlers settings = .error a ∧ a.ofNew = true := by
    rw [reloadConfigFile_of_valid hnew hvalid]
    cases reconfigAll new handlers settings <;> simp [bind, Except.bind, pure, Except.pure]
  rw [hreload, reconfigAll_handlers_ofNew hwf, reconfigInterfacesFrom_error]
  simp only [Nat.zero_add]
  constructor
  · rintro ⟨j, c, hc, hr⟩
    cases hn : new.interfaces[j]? with
    | none =>
      left
      cases hi : new.has.interfaces
      · exact ⟨rfl, by rintro h; simp [h] at hc⟩
      · have hlen := dynaValidateInterfaces_length host hv hi
        have hj : j < settings.interfaces.length := by
          by_contra h
          rw [List.getElem?_eq_none_iff.2 (by omega)] at hc
          cases hc
        rw [List.getElem?_eq_none_iff] at hn
        omega
    | some newIf => exact .inr ⟨j, c, newIf, hc, hn, by simpa [ReadsAbsent, hn] using hr⟩
  · rintro (⟨hi, hne⟩ | ⟨j, c, newIf, hc, hn, hd⟩)
    · obtain ⟨c, cs, hcs⟩ := List.exists_cons_of_ne_nil hne
      exact ⟨0, c, by simp [hcs], by simp [ReadsAbsent, hwf.1 hi]⟩
    · exact ⟨j, c, hc, by simp [ReadsAbsent, hn, hd]⟩

/-! ## What a successful reload does to the interfaces -/

/-- The interface `dyna_reconfig_interfaces` leaves for running entry `curIf` against the new
entry `newIf` when it reads nothing absent: a wildcard new port skips the entry; otherwise
`maxconn`, `backlog` and `tcp_nodelay` become the new ones, and so do the certificate and key
the running interface has. -/
def reconfiguredIface (newIf curIf : Interface) : Interface :=
  if newIf.port = 0 then curIf
  else { curIf with
    maxconn := newIf.maxconn, backlog := newIf.backlog, tcpNodelay := newIf.tcpNodelay,
    ssl := { key := if curIf.ssl.key.isSome then newIf.ssl.key else curIf.ssl.key,
             cert := if curIf.ssl.cert.isSome then newIf.ssl.cert else curIf.ssl.cert } }

theorem dynaReconfigIface_ok {ii : Nat} {newIf curIf : Interface} (hp : newIf.port ≠ 0)
    (hd : ¬SslDropped curIf newIf) :
    dynaReconfigIface ii newIf curIf = .ok (reconfiguredIface newIf curIf) := by
  simp only [SslDropped, hp, ne_eq, not_false_eq_true, true_and, not_or] at hd
  rw [dynaReconfigIface_eq, dynaReconfigIfaceSsl_eq, if_neg hd.1, if_neg hd.2,
    reconfiguredIface, if_neg hp]

theorem reconfigInterfacesFrom_eq_ok (newIfs : List Interface) :
    ∀ (ii : Nat) (curIfs : List Interface),
      (∀ j c, curIfs[j]? = some c → ¬ReadsAbsent newIfs (ii + j) c) →
        reconfigInterfacesFrom newIfs ii curIfs =
          .ok (List.zipWith reconfiguredIface (newIfs.drop ii) curIfs)
  | _, [], _ => by simp [reconfigInterfacesFrom]
  | ii, curIf :: curIfs, h => by
    have ih := reconfigInterfacesFrom_eq_ok newIfs (ii + 1) curIfs fun j c hc => by
      simpa only [Nat.add_right_comm, Nat.add_assoc] using
        h (j + 1) c (by rwa [List.getElem?_cons_succ])
    have h0 : ¬ReadsAbsent newIfs ii curIf := h 0 curIf List.getElem?_cons_zero
    cases hn : newIfs[ii]? with
    | none => simp [ReadsAbsent, hn] at h0
    | some newIf =>
      obtain ⟨hlt, rfl⟩ := List.getElem?_eq_some_iff.1 hn
      simp only [ReadsAbsent, hn] at h0
      simp only [reconfigInterfacesFrom, hn, ih, List.drop_eq_getElem_cons hlt,
        List.zipWith_cons_cons]
      by_cases hp : newIfs[ii].port = 0
      · simp [hp, reconfiguredIface, bind, Except.bind, pure, Except.pure]
      · simp [hp, dynaReconfigIface_ok hp h0, bind, Except.bind, pure, Except.pure]

/-- The interface loop, whenever it finishes, rewrites each running entry by
`reconfiguredIface`. -/
theorem reconfigInterfacesFrom_ok {newIfs : List Interface} {ii : Nat} {curIfs r : List Interface}
    (h : reconfigInterfacesFrom newIfs ii curIfs = .ok r) :
    r = List.zipWith reconfiguredIface (newIfs.drop ii) curIfs := by
  have hno : ∀ j c, curIfs[j]? = some c → ¬ReadsAbsent newIfs (ii + j) c := fun j c hc hr => by
    obtain ⟨a, ha⟩ := (reconfigInterfacesFrom_error newIfs ii curIfs).2 ⟨j, c, hc, hr⟩
    rw [h] at ha
    cases ha
  rw [reconfigInterfacesFrom_eq_ok newIfs ii curIfs hno] at h
  exact (Except.ok.inj h).symm

theorem reconfigValue_interfaces {α : Type} [DecidableEq α] {has : Has → Bool}
    {field : Settings → α} {set : Settings → α → Settings} {new s s' : Settings}
    (h : reconfigValue has field set new s = .ok s')
    (hset : ∀ s v, (set s v).interfaces = s.interfaces) : s'.interfaces = s.interfaces := by
  cases h
  split <;> simp only [hset]

theorem reconfigCopy_interfaces {has : Has → Bool} {set : Settings → Settings → Settings}
    {new s s' : Settings} (h : reconfigCopy has set new s = .ok s')
    (hset : ∀ s new, (set s new).interfaces = s.interfaces) : s'.interfaces = s.interfaces := by
  cases h
  split <;> simp only [hset]

theorem dynaReconfigBreakpad_interfaces {new s s' : Settings}
    (h : dynaReconfigBreakpad new s = .ok s') : s'.interfaces = s.interfaces := by
  unfold dynaReconfigBreakpad at h
  split at h
  · cases h; rfl
  · obtain ⟨_, -, h⟩ := bind_eq_ok.1 h
    cases h; rfl

theorem handlers_drop_interfaces (new : Settings) :
    ∀ e ∈ handlers.drop 6, ∀ r ∈ e.dyanamicReconfig, ∀ s s',
      r new s = .ok s' → s'.interfaces = s.interfaces := by
  simp only [handlers, List.drop_succ_cons, List.drop_zero, List.forall_mem_cons,
    List.not_mem_nil, false_implies, implies_true, and_true]
  refine ⟨?_, ?_, ?_, ?_, ?_, ?_, ?_, ?_, ?_, ?_, ?_, ?_, ?_, ?_, ?_, ?_, ?_, ?_, ?_, ?_, ?_⟩
  all_goals intro r hr s s' h; cases hr
  all_goals first
    | exact reconfigValue_interfaces h fun _ _ => rfl
    | exact reconfigCopy_interfaces h fun _ _ => rfl
    | exact dynaReconfigBreakpad_interfaces h

theorem reconfigAll_interfaces {new : Settings} : ∀ {es : List HandlerEntry},
    (∀ e ∈ es, ∀ r ∈ e.dyanamicReconfig, ∀ s s', r new s = .ok s' →
      s'.interfaces = s.interfaces) →
      ∀ {s s' : Settings}, reconfigAll new es s = .ok s' → s'.interfaces = s.interfaces
  | [], _, _, _, h => by cases h; rfl
  | e :: es, hes, s, s', h => by
    simp only [reconfigAll] at h
    split at h
    · exact reconfigAll_interfaces (fun e he => hes e (.tail _ he)) h
    · obtain ⟨t, ht, h⟩ := bind_eq_ok.1 h
      exact (reconfigAll_interfaces (fun e he => hes e (.tail _ he)) h).trans
        (hes e (.head _) _ ‹_› s t ht)

/-- A reload of a valid file, when it finishes, leaves each running interface as
`reconfiguredIface` makes it from the new entry at its index, and logs nothing. -/
theorem reloadConfigFile_interfaces {host : Host} {configFile : String}
    {settings settings' new : Settings} {sys : List (String × Json)} {errors msgs : List String}
    (hnew : parseJSONConfig host sys {} = .ok new)
    (hvalid : validateAll host new settings handlers = .ok (true, errors))
    (h : reloadConfigFile host configFile (.ok sys) settings = .ok (settings', msgs)) :
    settings'.interfaces = List.zipWith reconfiguredIface new.interfaces settings.interfaces ∧
      msgs = [] := by
  rw [reloadConfigFile_of_valid hnew hvalid] at h
  obtain ⟨s, hs, h⟩ := bind_eq_ok.1 h
  cases h
  obtain ⟨s₀, hif, hsplit⟩ := reconfigAll_handlers new settings
  obtain ⟨t, ht, hs⟩ := bind_eq_ok.1 (hsplit ▸ hs)
  obtain ⟨ifs, hifs, ht⟩ := bind_eq_ok.1 ht
  cases ht
  rw [reconfigAll_interfaces (handlers_drop_interfaces new) hs, ← hif,
    reconfigInterfacesFrom_ok hifs]
  exact ⟨rfl, rfl⟩

/-- Whenever a reload logs a warning, the running settings are unchanged. -/
theorem reloadConfigFile_logged_unchanged {host : Host} {configFile : String}
    {loaded : Except String (List (String × Json))} {settings settings' : Settings}
    {msgs : List String}
    (h : reloadConfigFile host configFile loaded settings = .ok (settings', msgs))
    (hm : msgs ≠ []) : settings' = settings := by
  unfold reloadConfigFile at h
  split at h
  · cases h; rfl
  · obtain ⟨⟨valid, errors⟩, -, h⟩ := bind_eq_ok.1 h
    dsimp only at h
    split at h
    · obtain ⟨_, -, h⟩ := bind_eq_ok.1 h
      cases h
      exact absurd rfl hm
    · cases h; rfl

/-! ## Runs -/

/-- A host on which every file exists. -/
def exampleHost : Host where
  fileExists _ := true
  getcwd := .ok "/opt/couchbase/var/lib/couchbase"
  disableBreakpad := false
  safeStrtol _ := none
  cJSONPrint _ := ""
  decodeSslProtocol _ := true

/-- One interface on port 11207 with its SSL key and certificate. -/
def sslConfig : List (String × Json) :=
  [("interfaces", .array [.object [("host", .string "*"), ("port", .number 11207 true),
    ("ssl", .object [("key", .string "/etc/memcached/key.pem"),
      ("cert", .string "/etc/memcached/cert.pem")])]])]

/-- The same interface with SSL switched off. -/
def sslOffConfig : List (String × Json) :=
  [("interfaces", .array [.object [("host", .string "*"), ("port", .number 11207 true),
    ("ssl", .jfalse)]])]

def sslSettings : Settings :=
  { interfaces := [{ interfaceDefaults with
      host := some "*", port := 11207,
      ssl := { key := some "/etc/memcached/key.pem", cert := some "/etc/memcached/cert.pem" } }],
    has := { interfaces := true } }

def sslOffSettings : Settings :=
  { interfaces := [{ interfaceDefaults with host := some "*", port := 11207 }],
    has := { interfaces := true } }

theorem reloadConfigFile_reads_absent_new_value_sslSettings :
    parseJSONConfig exampleHost sslConfig {} = .ok sslSettings ∧
      (∃ a, reloadConfigFile exampleHost "memcached.json" (.ok []) sslSettings = .error a ∧
        a.ofNew = true) ∧
      (∃ a, reloadConfigFile exampleHost "memcached.json" (.ok sslOffConfig) sslSettings =
        .error a ∧ a.ofNew = true) :=
  ⟨rfl,
    (@reloadConfigFile_reads_absent_new_value exampleHost "memcached.json" sslSettings [] {} []
      rfl rfl).2 (.inl ⟨rfl, by decide⟩),
    (@reloadConfigFile_reads_absent_new_value exampleHost "memcached.json" sslSettings sslOffConfig
      sslOffSettings [] rfl rfl).2 (.inr ⟨0, _, _, rfl, rfl, by decide⟩)⟩

/-- Reloading the file the daemon started from changes nothing. -/
example : reloadConfigFile exampleHost "memcached.json" (.ok sslConfig) sslSettings =
    .ok (sslSettings, []) := rfl

end Memcached.ConfigReload
