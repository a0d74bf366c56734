import Mathlib

set_option autoImplicit false

/-!
# Parsing the configuration file

The settings `src/daemon/config_parse.cc` reads from its JSON configuration: the cJSON values it
walks, the `settings` and `interface` structs it fills in, with the `has` flags that record which
attributes the file gave, the value getters (`get_int_value` .. `get_absolute_file`) with the texts
they leave in `error_msg`, and the handler of each top-level and interface attribute.

A handler returns the updated settings or its error text. What the parser reads from outside the
JSON (`stat`, `getcwd`, `getenv`, the platform's `safe_strtol`, cJSON's printer, and the SSL
protocol decoder the validators call) is the `Host` record.
-/

namespace Memcached.ConfigParse

/-! ## cJSON values and the host -/

/-- A cJSON item as the parser reads it. A number keeps `valueint` and whether `valuedouble`
equals it; an object keeps its members, each with its `string` name, in file order. -/
inductive Json where
  | jfalse
  | jtrue
  | jnull
  | number (valueint : Int) (integral : Bool)
  | string (valuestring : String)
  | array (items : List Json)
  | object (members : List (String × Json))

/-- The items reached through `child` and `next`: an array's elements or an object's member
values. `cJSON_GetArraySize` is their number. -/
def Json.children : Json → List Json
  | .array items => items
  | .object members => members.map Prod.snd
  | _ => []

/-- What the parser and the validators read from outside the configuration. -/
structure Host where
  /-- `stat(path, &st) != -1` -/
  fileExists : String → Bool
  /-- `getcwd`, or the `strerror(errno)` text of its failure -/
  getcwd : Except String String
  /-- `getenv("CB_DISABLE_BREAKPAD") != NULL` -/
  disableBreakpad : Bool
  safeStrtol : String → Option Int
  cJSONPrint : Json → String
  /-- `decode_ssl_protocol` returns (it throws `std::invalid_argument` otherwise) -/
  decodeSslProtocol : Option String → Bool

/-! ## Settings

Defaults are the zeroed values (`cb_calloc`, `struct settings new_settings = {0}`); a NULL string
is `none`. `num_interfaces` and `num_pending_extensions` are the lengths of their lists, which
`get_interfaces` and `get_extensions` allocate and fill together. -/

inductive Protocol where
  | memcached
  | greenstack
  deriving DecidableEq, Repr

structure Ssl where
  key : Option String := none
  cert : Option String := none
  deriving DecidableEq, Repr

/-- `struct interface` -/
structure Interface where
  maxconn : Int := 0
  port : UInt16 := 0
  host : Option String := none
  backlog : Int := 0
  ipv4 : Bool := false
  ipv6 : Bool := false
  tcpNodelay : Bool := false
  management : Bool := false
  protocol : Protocol := .memcached
  ssl : Ssl := {}
  deriving DecidableEq, Repr

/-- `struct extension_settings` -/
structure ExtensionSettings where
  soname : Option String := none
  config : Option String := none
  deriving DecidableEq, Repr

inductive BreakpadContent where
  | contentDefault
  deriving DecidableEq, Repr

structure BreakpadSettings where
  enabled : Bool := false
  minidumpDir : Option String := none
  content : BreakpadContent := .contentDefault
  deriving DecidableEq, Repr

/-- `settings.has`: the attributes the file gave. -/
structure Has where
  admin : Bool := false
  rbac : Bool := false
  rbacPrivilegeDebug : Bool := false
  audit : Bool := false
  root : Bool := false
  sslCipherList : Bool := false
  sslMinimumProtocol : Bool := false
  threads : Bool := false
  maxPacketSize : Bool := false
  verbose : Bool := false
  connectionIdleTime : Bool := false
  defaultReqsPerEvent : Bool := false
  reqsPerEventHighPriority : Bool := false
  reqsPerEventMedPriority : Bool := false
  reqsPerEventLowPriority : Bool := false
  requireInit : Bool := false
  requireSasl : Bool := false
  extensions : Bool := false
  interfaces : Bool := false
  bioDrainBufferSz : Bool := false
  datatype : Bool := false
  breakpad : Bool := false
  stdinListen : Bool := false
  exitOnConnectionClose : Bool := false
  saslMechanisms : Bool := false
  dedupeNmvbMaps : Bool := false
  deriving DecidableEq, Repr

/-- `struct settings`, the fields the parser sets. -/
structure Settings where
  admin : Option String := none
  disableAdmin : Bool := false
  rbacFile : Option String := none
  rbacPrivilegeDebug : Bool := false
  auditFile : Option String := none
  root : Option String := none
  sslCipherList : Option String := none
  sslMinimumProtocol : Option String := none
  numThreads : Int := 0
  maxPacketSize : UInt32 := 0
  verbose : Int := 0
  connectionIdleTime : UInt64 := 0
  defaultReqsPerEvent : Int := 0
  reqsPerEventHighPriority : Int := 0
  reqsPerEventMedPriority : Int := 0
  reqsPerEventLowPriority : Int := 0
  requireInit : Bool := false
  requireSasl : Bool := false
  pendingExtensions : List ExtensionSettings := []
  interfaces : List Interface := []
  bioDrainBufferSz : UInt64 := 0
  datatype : Bool := false
  breakpad : BreakpadSettings := {}
  stdinListen : Bool := false
  exitOnConnectionClose : Bool := false
  saslMechanisms : Option String := none
  dedupeNmvbMaps : Bool := false
  has : Has := {}
  deriving DecidableEq, Repr

/-! ## Value getters -/

section Getters

variable (host : Host)

/-- `strcasecmp(a, b) == 0` in the C locale. -/
def strcasecmp (a b : String) : Bool :=
  a.toList.map Char.toLower == b.toList.map Char.toLower

/-- The message of a value of the wrong kind. -/
def invalidValue (key : String) (i : Json) : String :=
  "Invalid value specified for " ++ key ++ ": " ++ host.cJSONPrint i ++ "\n"

/-- `get_int_value` -/
def getIntValue (i : Json) (key : String) : Except String Int :=
  match i with
  | .number valueint integral =>
    if integral then .ok valueint
    else .error ("Non-integer value specified for " ++ key ++ ": " ++ host.cJSONPrint i ++ "\n")
  | .string valuestring =>
    match host.safeStrtol valuestring with
    | some value => .ok value
    | none => .error (invalidValue host key i)
  | _ => .error (invalidValue host key i)

/-- `get_in_port_value` -/
def getInPortValue (i : Json) (key : String) : Except String UInt16 := do
  let intValue ← getIntValue host i key
  if intValue < 0 ∨ intValue > 65535 then
    throw ("port must be in the range: [0,65535] for " ++ key ++ "\n")
  else pure intValue.toNat.toUInt16

/-- `get_bool_value` -/
def getBoolValue (i : Json) (key : String) : Except String Bool :=
  match i with
  | .jfalse => .ok false
  | .jtrue => .ok true
  | _ => .error (invalidValue host key i)

/-- `get_string_value` -/
def getStringValue (i : Json) (key : String) : Except String String :=
  match i with
  | .string valuestring => .ok valuestring
  | _ => .error (invalidValue host key i)

/-- `get_host_value`, which does no more than `get_string_value` -/
def getHostValue (i : Json) (key : String) : Except String String :=
  getStringValue host i key

/-- `get_protocol_value` -/
def getProtocolValue (i : Json) (key : String) : Except String Protocol := do
  let string ← getStringValue host i key
  if strcasecmp string "memcached" then pure .memcached
  else if strcasecmp string "greenstack" then pure .greenstack
  else throw ("Invalid protocol specified for " ++ key ++ ": " ++ host.cJSONPrint i ++ "\n")

/-- `get_file_value`: a string naming a file `stat` finds. `name` is the item's own `string`,
which the message for a missing file quotes. -/
def getFileValue (name : String) (i : Json) (key : String) : Except String String :=
  match i with
  | .string valuestring =>
    if host.fileExists valuestring then .ok valuestring
    else .error ("Cannot access \"" ++ valuestring ++ "\" specified for \"" ++ name ++ "\"\n")
  | _ => .error ("Invalid value specified for " ++ key ++ " (not a string): " ++
      host.cJSONPrint i ++ "\n")

/-- `get_absolute_file` (POSIX): a relative name is appended to the working directory in a buffer
of 1024 bytes, so the path is cut at 1023 characters. -/
def getAbsoluteFile (file : String) : Except String String :=
  if file.toList.head? = some '/' then .ok file
  else
    match host.getcwd with
    | .error e => .error ("Failed to determine current working directory: " ++ e ++ "\n")
    | .ok buffer => .ok ⟨(buffer ++ "/" ++ file).toList.take 1023⟩

end Getters

/-- The entry of a handler table whose key `strcasecmp` matches `name`, the first if several do. -/
def lookup {α : Type} (table : List (String × α)) (name : String) : Option α :=
  (table.find? fun e => strcasecmp e.1 name).map Prod.snd

/-! ## Interface attributes -/

/-- An `interface_handler`: the attribute's name (`r->string`), its value and the interface. -/
abbrev InterfaceHandler := Host → String → Json → Interface → Except String Interface

/-- The interface attributes read with `get_bool_value(r, r->string, ..)`. -/
def interfaceBool (set : Interface → Bool → Interface) : InterfaceHandler :=
  fun host name r iface => (getBoolValue host r name).map (set iface)

def getInterfaceMaxconn : InterfaceHandler := fun host _ r iface =>
  (getIntValue host r "interface maxconn").map fun maxconn => { iface with maxconn }

def getInterfacePort : InterfaceHandler := fun host _ r iface =>
  (getInPortValue host r "interface port").map fun port => { iface with port }

def getInterfaceBacklog : InterfaceHandler := fun host _ r iface =>
  (getIntValue host r "interface backlog").map fun backlog => { iface with backlog }

def getInterfaceTcpNodelay : InterfaceHandler :=
  interfaceBool fun iface tcpNodelay => { iface with tcpNodelay }

def getInterfaceIpv4 : InterfaceHandler :=
  interfaceBool fun iface ipv4 => { iface with ipv4 }

def getInterfaceIpv6 : InterfaceHandler :=
  interfaceBool fun iface ipv6 => { iface with ipv6 }

def getInterfaceHost : InterfaceHandler := fun host _ r iface =>
  (getHostValue host r "interface host").map fun h => { iface with host := some h }

def getInterfaceProtocol : InterfaceHandler := fun host _ r iface =>
  (getProtocolValue host r "interface protocol").map fun protocol => { iface with protocol }

/-- The loop of `get_interface_ssl` over the members of an `ssl` object: the last `key` and
`cert`, each a file `get_file_value` accepts. -/
def sslFiles (host : Host) :
    List (String × Json) → Option String → Option String → Except String (Option String × Option String)
  | [], key, cert => .ok (key, cert)
  | (name, p) :: ps, key, cert =>
    if strcasecmp "key" name then do
      sslFiles host ps (some (← getFileValue host name p "interface key file")) cert
    else if strcasecmp "cert" name then do
      sslFiles host ps key (some (← getFileValue host name p "interface ssl certificate"))
    else .error ("Unknown attribute for ssl: " ++ name ++ "\n")

/-- `get_interface_ssl`: `false` or an object naming both or neither of `key` and `cert`. -/
def getInterfaceSsl : InterfaceHandler := fun host _ r iface =>
  match r with
  | .object members => do
    match ← sslFiles host members none none with
    | (some key, some cert) => do
      let key ← getAbsoluteFile host key
      let cert ← getAbsoluteFile host cert
      pure { iface with ssl := { key := some key, cert := some cert } }
    | (none, none) => pure iface
    | _ => throw "You need to specify a value for cert and key\n"
  | .jfalse => pure iface
  | _ => throw "Invalid entry for ssl\n"

def getInterfaceManagement : InterfaceHandler :=
  interfaceBool fun iface management => { iface with management }

/-- The handler table of `handle_interface`. -/
def interfaceHandlers : List (String × InterfaceHandler) :=
  [("maxconn", getInterfaceMaxconn), ("port", getInterfacePort), ("host", getInterfaceHost),
    ("backlog", getInterfaceBacklog), ("ipv4", getInterfaceIpv4), ("ipv6", getInterfaceIpv6),
    ("tcp_nodelay", getInterfaceTcpNodelay), ("ssl", getInterfaceSsl),
    ("management", getInterfaceManagement), ("protocol", getInterfaceProtocol)]

/-- The defaults `handle_interface` sets on the zeroed entry. -/
def interfaceDefaults : Interface :=
  { backlog := 1024, ipv4 := true, ipv6 := true, tcpNodelay := true, management := false }

/-- The member loop of `handle_interface`. An unknown attribute only leaves a message in
`error_msg`, which a later error or the parse's success overwrites. -/
def interfaceMembers (host : Host) : List (String × Json) → Interface → Except String Interface
  | [], iface => .ok iface
  | (name, obj) :: objs, iface =>
    match lookup interfaceHandlers name with
    | none => interfaceMembers host objs iface
    | some handler => do interfaceMembers host objs (← handler host name obj iface)

/-- `handle_interface` for entry `idx`, given the entries before it. -/
def handleInterface (host : Host) (idx : Nat) (r : Json) (earlier : List Interface) :
    Except String Interface :=
  match r with
  | .object members => do
    let iface ← interfaceMembers host members interfaceDefaults
    if !iface.ipv4 && !iface.ipv6 then
      throw "IPv4 and IPv6 cannot be disabled at the same time\n"
    else if iface.port ≠ 0 then
      match earlier.findIdx? (·.port == iface.port) with
      | some ii => throw ("Port " ++ toString iface.port ++ " is already in use by interface[" ++
          toString ii ++ "].\n")
      | none => pure iface
    else pure iface
  | _ => throw ("Invalid entry for interface #" ++ toString idx ++ "\n")

/-- The loop of `get_interfaces`: entry `ii` is handled with entries `0 .. ii-1` filled in. -/
def handleInterfaces (host : Host) : List Interface → List Json → Except String (List Interface)
  | done, [] => .ok done
  | done, c :: cs => do handleInterfaces host (done ++ [← handleInterface host done.length c done]) cs

/-! ## Top-level attributes -/

/-- A `config_handler`: the attribute's name (`o->string`), its value and the settings. -/
abbrev ConfigHandler := Host → String → Json → Settings → Except String Settings

/-- The handlers that store one integer read with `get_int_value`. -/
def getIntSetting (host : Host) (key : String) (o : Json) (s : Settings)
    (set : Settings → Int → Settings) : Except String Settings :=
  (getIntValue host o key).map (set s)

/-- The handlers that store one flag read with `get_bool_value`. -/
def getBoolSetting (host : Host) (key : String) (o : Json) (s : Settings)
    (set : Settings → Bool → Settings) : Except String Settings :=
  (getBoolValue host o key).map (set s)

/-- The handlers that store a string, an empty one standing for NULL. -/
def getOptionalString (host : Host) (key : String) (o : Json) (s : Settings)
    (set : Settings → Option String → Settings) : Except String Settings :=
  (getStringValue host o key).map fun ptr => set s (if ptr = "" then none else some ptr)

/-- The handlers that store the absolute path of a file `get_file_value` accepts. -/
def getFileSetting (host : Host) (name key : String) (o : Json) (s : Settings)
    (set : Settings → String → Settings) : Except String Settings := do
  let ptr ← getFileValue host name o key
  pure (set s (← getAbsoluteFile host ptr))

/-- `(size_t)value` -/
def sizeT (value : Int) : UInt64 := UInt64.ofNat (value % 2 ^ 64).toNat

def getAdmin : ConfigHandler := fun host name o s =>
  (getStringValue host o name).map fun ptr =>
    if ptr = "" then { s with disableAdmin := true, admin := none, has.admin := true }
    else { s with disableAdmin := false, admin := some ptr, has.admin := true }

def getRbacFile : ConfigHandler := fun host name o s =>
  getFileSetting host name "RBAC file" o s fun s path =>
    { s with rbacFile := some path, has.rbac := true }

def getRbacPrivilegeDebug : ConfigHandler := fun host _ o s =>
  getBoolSetting host "rbac_privilege_debug" o s fun s v =>
    { s with rbacPrivilegeDebug := v, has.rbacPrivilegeDebug := true }

def getAuditFile : ConfigHandler := fun host name o s =>
  getFileSetting host name "audit file" o s fun s path =>
    { s with auditFile := some path, has.audit := true }

def getRoot : ConfigHandler := fun host name o s =>
  getFileSetting host name "root" o s fun s path => { s with root := some path, has.root := true }

def getSslCipherList : ConfigHandler := fun host name o s =>
  getOptionalString host name o s fun s v => { s with sslCipherList := v, has.sslCipherList := true }

def getSslMinimumProtocol : ConfigHandler := fun host name o s =>
  getOptionalString host name o s fun s v =>
    { s with sslMinimumProtocol := v, has.sslMinimumProtocol := true }

def getThreads : ConfigHandler := fun host name o s =>
  getIntSetting host name o s fun s v => { s with numThreads := v, has.threads := true }

/-- `get_max_packet_size`: the value is in megabytes, `(uint32_t)max_packet_size * 1024 * 1024`. -/
def getMaxPacketSize : ConfigHandler := fun host name o s =>
  getIntSetting host name o s fun s v =>
    { s with maxPacketSize := UInt32.ofNat (v % 2 ^ 32).toNat * 1024 * 1024,
             has.maxPacketSize := true }

def getVerbosity : ConfigHandler := fun host name o s =>
  getIntSetting host name o s fun s v => { s with verbose := v, has.verbose := true }

def getConnectionIdleTime : ConfigHandler := fun host name o s =>
  getIntSetting host name o s fun s v =>
    { s with connectionIdleTime := sizeT v, has.connectionIdleTime := true }

def getDefaultReqsPerEvent : ConfigHandler := fun host name o s =>
  getIntSetting host name o s fun s v =>
    { s with defaultReqsPerEvent := v, has.defaultReqsPerEvent := true }

def getReqsPerEventHighPriority : ConfigHandler := fun host name o s =>
  getIntSetting host name o s fun s v =>
    { s with reqsPerEventHighPriority := v, has.reqsPerEventHighPriority := true }

def getReqsPerEventMedPriority : ConfigHandler := fun host name o s =>
  getIntSetting host name o s fun s v =>
    { s with reqsPerEventMedPriority := v, has.reqsPerEventMedPriority := true }

def getReqsPerEventLowPriority : ConfigHandler := fun host name o s =>
  getIntSetting host name o s fun s v =>
    { s with reqsPerEventLowPriority := v, has.reqsPerEventLowPriority := true }

def getRequireInit : ConfigHandler := fun host name o s =>
  getBoolSetting host name o s fun s v => { s with requireInit := v, has.requireInit := true }

def getRequireSasl : ConfigHandler := fun host name o s =>
  getBoolSetting host name o s fun s v => { s with requireSasl := v, has.requireSasl := true }

/-- The member loop of `get_extension`. -/
def extensionMembers (host : Host) :
    List (String × Json) → ExtensionSettings → Except String ExtensionSettings
  | [], ext => .ok ext
  | (name, p) :: ps, ext =>
    if strcasecmp "module" name then do
      extensionMembers host ps { ext with soname := some (← getStringValue host p "extension module") }
    else if strcasecmp "config" name then do
      extensionMembers host ps { ext with config := some (← getStringValue host p "extension config") }
    else .error ("Unknown attribute for extension: " ++ name ++ "\n")

def getExtension (host : Host) (r : Json) : Except String ExtensionSettings :=
  match r with
  | .object members => extensionMembers host members {}
  | _ => .error "Invalid entry for extension\n"

def getExtensions : ConfigHandler := fun host _ o s => do
  let pendingExtensions ← o.children.mapM (getExtension host)
  pure { s with pendingExtensions, has.extensions := true }

/-- `get_engine`: the attribute is obsolete and ignored. -/
def getEngine : ConfigHandler := fun _ _ _ s => .ok s

def getInterfaces : ConfigHandler := fun host _ o s => do
  let interfaces ← handleInterfaces host [] o.children
  pure { s with interfaces, has.interfaces := true }

def getBioDrainSz : ConfigHandler := fun host _ o s =>
  getIntSetting host "bio_drain_buffer_sz" o s fun s v =>
    { s with bioDrainBufferSz := sizeT v, has.bioDrainBufferSz := true }

def getDatatype : ConfigHandler := fun host name o s =>
  getBoolSetting host name o s fun s v => { s with datatype := v, has.datatype := true }

def getDedupeNmvbMaps : ConfigHandler := fun host name o s =>
  getBoolSetting host name o s fun s v => { s with dedupeNmvbMaps := v, has.dedupeNmvbMaps := true }

def getStdinListen : ConfigHandler := fun host name o s =>
  getBoolSetting host name o s fun s v => { s with stdinListen := v, has.stdinListen := true }

def getExitOnConnectionClose : ConfigHandler := fun host name o s =>
  getBoolSetting host name o s fun s v =>
    { s with exitOnConnectionClose := v, has.exitOnConnectionClose := true }

def getSaslMechanisms : ConfigHandler := fun host name o s =>
  (getStringValue host o name).map fun v =>
    { s with saslMechanisms := some v, has.saslMechanisms := true }

/-- The member loop of `parse_breakpad`, up to its first error: `enabled`, `minidump_dir` and
`content`. -/
def breakpadMembers (host : Host) : List (String × Json) → Bool × Option String × Option String →
    Except String (Bool × Option String × Option String)
  | [], acc => .ok acc
  | (name, p) :: ps, (enabled, minidumpDir, contentStr) =>
    if strcasecmp "enabled" name then do
      breakpadMembers host ps (← getBoolValue host p "breapad enabled", minidumpDir, contentStr)
    else if strcasecmp "minidump_dir" name then do
      breakpadMembers host ps
        (enabled, some (← getStringValue host p "breakpad minidump_dir"), contentStr)
    else if strcasecmp "content" name then do
      breakpadMembers host ps (enabled, minidumpDir, some (← getStringValue host p "breakpad content"))
    else .error ("Unknown attribute for breakpad: " ++ name ++ "\n")

/-- `parse_breakpad`: `minidump_dir` is the empty string when the object does not give one. -/
def parseBreakpad : ConfigHandler := fun host _ o s =>
  match o with
  | .object members => do
    let (enabled, minidumpDir, contentStr) ← breakpadMembers host members (false, none, none)
    if enabled && minidumpDir.isNone then
      throw "breakpad.enabled==true but minidump_dir not specified.\n"
    else if contentStr.any (· != "default") then
      throw ("Invalid value for breakpad.content: " ++ contentStr.getD "" ++ "\n")
    else
      pure { s with
        breakpad := { enabled := enabled && !host.disableBreakpad,
                      minidumpDir := some (minidumpDir.getD ""), content := .contentDefault },
        has.breakpad := true }
  | _ => throw "Invalid entry for breakpad - expected object.\n"

/-! ## What a parse keeps -/

theorem map_eq_ok {ε α β : Type} {f : α → β} {x : Except ε α} {b : β} :
    x.map f = .ok b ↔ ∃ a, x = .ok a ∧ f a = b := by
  cases x <;> simp [Except.map]

theorem bind_eq_ok {ε α β : Type} {x : Except ε α} {f : α → Except ε β} {b : β} :
    x >>= f = .ok b ↔ ∃ a, x = .ok a ∧ f a = .ok b := by
  cases x <;> simp [bind, Except.bind]

theorem bind_eq_error {ε α β : Type} {x : Except ε α} {f : α → Except ε β} {e : ε} :
    x >>= f = .error e ↔ x = .error e ∨ ∃ a, x = .ok a ∧ f a = .error e := by
  cases x <;> simp [bind, Except.bind]

/-- What every parse from the zeroed settings keeps: without an `interfaces` attribute there is
no interface, and a `breakpad` section always sets `minidump_dir`. -/
structure WellFormed (s : Settings) : Prop where
  interfaces_eq_nil : s.has.interfaces = false → s.interfaces = []
  minidumpDir_isSome : s.has.breakpad = true → s.breakpad.minidumpDir.isSome = true

theorem wellFormed_zero : WellFormed {} := ⟨fun _ => rfl, fun h => nomatch h⟩

theorem WellFormed.of_frame {s s' : Settings} (h : WellFormed s)
    (hi : s'.has.interfaces = s.has.interfaces) (hl : s'.interfaces = s.interfaces)
    (hb : s'.has.breakpad = s.has.breakpad) (hd : s'.breakpad = s.breakpad) : WellFormed s' :=
  ⟨by rw [hi, hl]; exact h.1, by rw [hb, hd]; exact h.2⟩

/-- A successful handler keeps `WellFormed`. -/
def KeepsWellFormed (handler : ConfigHandler) : Prop :=
  ∀ host name o s s', WellFormed s → handler host name o s = .ok s' → WellFormed s'

theorem map_wellFormed {α : Type} {x : Except String α} {f : α → Settings} {s' : Settings}
    (hs : x.map f = .ok s') (hf : ∀ a, WellFormed (f a)) : WellFormed s' := by
  obtain ⟨a, -, rfl⟩ := map_eq_ok.1 hs
  exact hf a

theorem getAdmin_wellFormed : KeepsWellFormed getAdmin := fun _ _ _ _ _ h hs =>
  map_wellFormed hs fun _ => by split <;> exact h.of_frame rfl rfl rfl rfl

theorem getFileSetting_wellFormed {host : Host} {name key : String} {o : Json} {s s' : Settings}
    {set : Settings → String → Settings} (hs : getFileSetting host name key o s set = .ok s')
    (hset : ∀ a, WellFormed (set s a)) : WellFormed s' := by
  obtain ⟨_, -, hs⟩ := bind_eq_ok.1 hs
  obtain ⟨a, -, hs⟩ := bind_eq_ok.1 hs
  cases hs
  exact hset a

theorem getExtensions_wellFormed : KeepsWellFormed getExtensions := by
  intro host _ o s s' h hs
  obtain ⟨_, -, hs⟩ := bind_eq_ok.1 hs
  cases hs
  exact h.of_frame rfl rfl rfl rfl

theorem getInterfaces_wellFormed : KeepsWellFormed getInterfaces := by
  intro host _ o s s' h hs
  obtain ⟨_, -, hs⟩ := bind_eq_ok.1 hs
  cases hs
  exact ⟨fun h => (nomatch h), h.2⟩

theorem parseBreakpad_wellFormed : KeepsWellFormed parseBreakpad := by
  intro host _ o s s' h hs
  cases o <;> simp only [parseBreakpad] at hs <;> try cases hs
  obtain ⟨⟨enabled, minidumpDir, contentStr⟩, -, hs⟩ := bind_eq_ok.1 hs
  split at hs
  · cases hs
  · split at hs
    · cases hs
    · cases hs
      exact ⟨h.1, fun _ => rfl⟩

end Memcached.ConfigParse
