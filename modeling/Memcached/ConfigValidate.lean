import Memcached.ConfigReload

set_option autoImplicit false

/-!
# Validating a proposed configuration, and reloading an unchanged one

`validate_proposed_config_changes` of `src/daemon/config_parse.cc` parses a configuration text
into zeroed settings and runs every `dynamic_validate` handler against the running settings,
as `reload_config_file` does. Both report a rejection only together with the reasons: every
handler, and so every validation pass, answers `true` exactly when it adds no error.

Reloading the very file the running settings were parsed from logs nothing and changes nothing
but the SSL cipher list and minimum protocol the file gives, provided every interface on a fixed
port names its host, every extension names its module, and the host accepts the
`ssl_minimum_protocol` the file gives. Without a host on such an interface the reload hands
`strcmp` two NULL hosts.

A reload changes only what a `dyanamic_reconfig` handler writes, and a reload of a valid file
that finishes leaves `reloadedSettings`: the file's value for every dynamic attribute it gives,
the running value for everything else. The two SSL strings the file gives are the exception in
both: the running settings take `new_settings`' own pointers for them, which `free_settings`
releases as the reload ends; the values here do not see the release, and `ConfigMemory` says
what those strings then are.
-/

namespace Memcached.ConfigValidate

open Memcached.ConfigParse Memcached.ConfigReload

/-- `validate_proposed_config_changes(new_cfg, errors)`: `cJSON_Parse` gives the members of the
proposed object, or `none` when the text is not JSON; the result, with the strings added to
`errors`. -/
def validateProposedConfigChanges (host : Host) (config : Option (List (String × Json)))
    (settings : Settings) : Except AbsentRead (Bool × List String) :=
  match config with
  | none => .ok (false, ["JSON parse error"])
  | some config =>
    match parseJSONConfig host config {} with
    | .ok new => validateAll host new settings handlers
    | .error errorMsg => .ok (false, [errorMsg])

/-! ## A rejection always comes with its reasons -/

/-- A validation answers `true` exactly when it adds no error. -/
def Explained (r : Except AbsentRead (Bool × List String)) : Prop :=
  ∀ valid errors, r = .ok (valid, errors) → (valid = true ↔ errors = [])

theorem explained_ok (valid : Bool) (errors : List String) (h : valid = true ↔ errors = []) :
    Explained (.ok (valid, errors)) := by
  rintro _ _ ⟨⟩
  exact h

theorem explained_ok_true : Explained (.ok (true, [])) := explained_ok _ _ (by simp)

theorem explained_ok_false (e : String) : Explained (.ok (false, [e])) := explained_ok _ _ (by simp)

theorem explained_error (a : AbsentRead) : Explained (.error a) := by
  rintro _ _ ⟨⟩

theorem explained_bind {r : Except AbsentRead (Bool × List String)}
    {k : Bool × List String → Except AbsentRead (Bool × List String)}
    (hr : Explained r) (hk : ∀ v e, r = .ok (v, e) → (v = true ↔ e = []) → Explained (k (v, e))) :
    Explained (r >>= k) := by
  intro valid errors h
  obtain ⟨⟨v, e⟩, h₁, h₂⟩ := bind_eq_ok.1 h
  exact hk v e h₁ (hr v e h₁) valid errors h₂

theorem explained_and {r₁ r₂ : Except AbsentRead (Bool × List String)} (h₁ : Explained r₁)
    (h₂ : Explained r₂) :
    Explained (do
      let (valid, errors) ← r₁
      let (valid', errors') ← r₂
      pure (valid && valid', errors ++ errors')) := by
  refine explained_bind h₁ fun v e _ he => explained_bind h₂ fun v' e' _ he' => ?_
  refine explained_ok _ _ ?_
  rw [Bool.and_eq_true, he, he', List.append_eq_nil]

theorem validateUnchanged_explained {α : Type} [DecidableEq α] (has : Has → Bool)
    (field : Settings → α) (name : String) (host : Host) (new settings : Settings) :
    Explained (validateUnchanged has field name host new settings) := by
  unfold validateUnchanged
  split_ifs
  exacts [explained_ok_true, explained_ok_true, explained_ok_false _]

theorem validateUnchangedString_explained (has : Has → Bool) (field : Settings → Option String)
    (name : String) (host : Host) (new settings : Settings) :
    Explained (validateUnchangedString has field name host new settings) := by
  unfold validateUnchangedString
  split
  · exact explained_ok_true
  · split
    · split
      exacts [explained_ok_true, explained_ok_false _]
    · exact explained_ok_true
    · exact explained_ok_false _

theorem validateInterface_explained (ii : Nat) (curIf newIf : Interface) :
    Explained (validateInterface ii curIf newIf) := by
  unfold validateInterface
  split
  · exact explained_ok_true
  · intro valid errors h
    obtain ⟨_, -, h⟩ := bind_eq_ok.1 h
    cases h
    exact List.isEmpty_iff

theorem validateInterfacesFrom_explained :
    ∀ (ii : Nat) (curIfs newIfs : List Interface),
      Explained (validateInterfacesFrom ii curIfs newIfs)
  | ii, curIf :: curIfs, newIf :: newIfs =>
    explained_and (validateInterface_explained ii curIf newIf)
      (validateInterfacesFrom_explained (ii + 1) curIfs newIfs)
  | _, [], _ => explained_ok_true
  | _, _ :: _, [] => explained_ok_true

theorem dynaValidateInterfaces_explained (host : Host) (new settings : Settings) :
    Explained (dynaValidateInterfaces host new settings) := by
  unfold dynaValidateInterfaces
  split_ifs
  exacts [explained_ok_true, validateInterfacesFrom_explained _ _ _, explained_ok_false _]

theorem dynaValidateExtensions_explained (host : Host) (new settings : Settings) :
    Explained (dynaValidateExtensions host new settings) := by
  unfold dynaValidateExtensions
  split
  · exact explained_ok_true
  · intro valid errors h
    dsimp only at h
    split at h <;> obtain ⟨v, -, h⟩ := bind_eq_ok.1 h <;> cases v <;> cases h <;> simp

theorem dynaValidateSslMinimumProtocol_explained (host : Host) (new settings : Settings) :
    Explained (dynaValidateSslMinimumProtocol host new settings) := by
  unfold dynaValidateSslMinimumProtocol
  split_ifs
  · exact explained_ok_true
  · exact explained_ok_true
  · split
    exacts [explained_ok_false _, explained_error _]

theorem dynaReconfigSaslMechanisms_explained (host : Host) (new settings : Settings) :
    Explained (dynaReconfigSaslMechanisms host new settings) := by
  unfold dynaReconfigSaslMechanisms
  split_ifs
  · exact explained_ok_true
  · exact explained_ok_false _
  · intro valid errors h
    obtain ⟨differ, -, h⟩ := bind_eq_ok.1 h
    cases differ <;> cases h <;> simp

/-- Every `dynamic_validate` handler of the table answers `true` exactly when it adds no
error. -/
theorem handlers_explained (host : Host) (new settings : Settings) :
    ∀ e ∈ handlers, Explained (e.dynamicValidate host new settings) := by
  simp only [handlers, List.mem_cons, List.mem_singleton, forall_eq_or_imp, forall_eq,
    List.not_mem_nil, false_or, or_false, imp_false]
  refine ⟨?_, ?_, ?_, ?_, ?_, dynaValidateInterfaces_explained host new settings,
    dynaValidateExtensions_explained host new settings, ?_, ?_, ?_, ?_, ?_, ?_, ?_, ?_, ?_, ?_,
    ?_, ?_, ?_, dynaValidateSslMinimumProtocol_explained host new settings, ?_, ?_, ?_, ?_,
    dynaReconfigSaslMechanisms_explained host new settings, ?_⟩
  all_goals first
    | exact explained_ok_true
    | exact validateUnchanged_explained _ _ _ host new settings
    | exact validateUnchangedString_explained _ _ _ host new settings

theorem validateAll_explained (host : Host) (new settings : Settings) :
    ∀ (es : List HandlerEntry), (∀ e ∈ es, Explained (e.dynamicValidate host new settings)) →
      Explained (validateAll host new settings es)
  | [], _ => explained_ok_true
  | e :: es, h =>
    explained_and (h e (List.mem_cons_self _ _))
      (validateAll_explained host new settings es fun e' he' => h e' (List.mem_cons_of_mem _ he'))

/-- Whatever the proposed text and the running settings, `validate_proposed_config_changes`
answers `true` exactly when it adds no error to `errors`: every rejection comes with a reason,
and an accepted proposal reports none. -/
theorem validateProposedConfigChanges_explained (host : Host)
    (config : Option (List (String × Json))) (settings : Settings) :
    Explained (validateProposedConfigChanges host config settings) := by
  unfold validateProposedConfigChanges
  split
  · exact explained_ok_false _
  · split
    · exact validateAll_explained host _ settings handlers (handlers_explained host _ settings)
    · exact explained_ok_false _

/-! ## What every parse gives the SASL mechanisms -/

theorem validateUnchanged_self {α : Type} [DecidableEq α] (has : Has → Bool)
    (field : Settings → α) (name : String) (host : Host) (s : Settings) :
    validateUnchanged has field name host s s = .ok (true, []) := by
  simp [validateUnchanged]

theorem validateUnchangedString_self (has : Has → Bool) (field : Settings → Option String)
    (name : String) (host : Host) (s : Settings) :
    validateUnchangedString has field name host s s = .ok (true, []) := by
  unfold validateUnchangedString
  cases field s <;> simp

theorem validateInterface_self (ii : Nat) {i : Interface} (hi : i.port ≠ 0 → i.host.isSome = true) :
    validateInterface ii i i = .ok (true, []) := by
  unfold validateInterface
  by_cases hp : i.port = 0
  · simp [hp]
  · obtain ⟨h, hh⟩ := Option.isSome_iff_exists.1 (hi hp)
    simp [hp, hh, strcmpNe, bind, Except.bind, pure, Except.pure]

theorem validateInterfacesFrom_self_null :
    ∀ (ii : Nat) (l : List Interface), (∃ i ∈ l, i.port ≠ 0 ∧ i.host = none) →
      ∃ j, validateInterfacesFrom ii l l = .error (.newString (.host j))
  | _, [], ⟨_, hi, _⟩ => nomatch hi
  | ii, i :: l, ⟨i', hi', hnull⟩ => by
    by_cases hbad : i.port ≠ 0 ∧ i.host = none
    · refine ⟨ii, ?_⟩
      simp [validateInterfacesFrom, validateInterface, hbad.1, hbad.2, strcmpNe, bind,
        Except.bind]
    · have hi : i.port ≠ 0 → i.host.isSome = true := fun hp => by
        simpa [Option.isSome_iff_ne_none] using fun hn => hbad ⟨hp, hn⟩
      have hl : ∃ j ∈ l, j.port ≠ 0 ∧ j.host = none := by
        rcases List.mem_cons.1 hi' with rfl | hl
        · exact absurd hnull hbad
        · exact ⟨i', hl, hnull⟩
      obtain ⟨j, hj⟩ := validateInterfacesFrom_self_null (ii + 1) l hl
      refine ⟨j, ?_⟩
      simp [validateInterfacesFrom, validateInterface_self ii hi, hj, bind, Except.bind]

theorem validateAll_cons_of_ok {host : Host} {new settings : Settings} {e : HandlerEntry}
    {es : List HandlerEntry} {r : Bool × List String} {a : AbsentRead}
    (he : e.dynamicValidate host new settings = .ok r)
    (hes : validateAll host new settings es = .error a) :
    validateAll host new settings (e :: es) = .error a := by
  simp [validateAll, he, hes, bind, Except.bind]

/-- An interface on a fixed port with no `host` makes the reload of the unchanged file hand
`strcmp` two NULL hosts: `dyna_validate_interfaces` compares the new interface's host with the
running one's. -/
theorem reloadConfigFile_unchanged_null_host (host : Host) (configFile : String)
    {sys : List (String × Json)} {s : Settings} (hs : parseJSONConfig host sys {} = .ok s)
    (hnull : ∃ i ∈ s.interfaces, i.port ≠ 0 ∧ i.host = none) :
    ∃ ii, reloadConfigFile host configFile (.ok sys) s = .error (.newString (.host ii)) := by
  have hwf := parseJSONConfig_wellFormed host sys wellFormed_zero hs
  have hi : s.has.interfaces = true := by
    by_contra h
    obtain ⟨i, hi, -⟩ := hnull
    simp [hwf.1 (by simpa using h)] at hi
  obtain ⟨ii, hii⟩ := validateInterfacesFrom_self_null 0 s.interfaces hnull
  have hval : validateAll host s s handlers = .error (.newString (.host ii)) := by
    refine validateAll_cons_of_ok (validateUnchangedString_self _ _ _ host s) <|
      validateAll_cons_of_ok (validateUnchangedString_self _ _ _ host s) <|
      validateAll_cons_of_ok (r := (true, [])) rfl <|
      validateAll_cons_of_ok (validateUnchangedString_self _ _ _ host s) <|
      validateAll_cons_of_ok (validateUnchanged_self _ _ _ host s) ?_
    simp [validateAll, dynaValidateInterfaces, hi, hii, bind, Except.bind]
  exact ⟨ii, by simp [reloadConfigFile, parseConfigFile, hs, hval, bind, Except.bind]⟩

/-! ## What a reload can change -/

/-- An interface without the fields `dyna_reconfig_interfaces` writes. -/
def staticInterface (i : Interface) : Interface :=
  { i with maxconn := 0, backlog := 0, tcpNodelay := false, ssl := {} }

/-- The running settings without the fields a `dyanamic_reconfig` handler writes, which are
blanked: what is left is every attribute that has no such handler, with its flag, and of each
interface all but `maxconn`, `backlog`, `tcp_nodelay` and the SSL files. -/
def staticSettings (s : Settings) : Settings :=
  { s with
    rbacPrivilegeDebug := false, verbose := 0, connectionIdleTime := 0, defaultReqsPerEvent := 0,
    reqsPerEventHighPriority := 0, reqsPerEventMedPriority := 0, reqsPerEventLowPriority := 0,
    sslCipherList := none, sslMinimumProtocol := none, breakpad := {}, dedupeNmvbMaps := false,
    interfaces := s.interfaces.map staticInterface,
    has := { s.has with
      rbacPrivilegeDebug := false, sslCipherList := false, sslMinimumProtocol := false,
      dedupeNmvbMaps := false } }

theorem dynaReconfigIface_static {ii : Nat} {newIf curIf i : Interface}
    (h : dynaReconfigIface ii newIf curIf = .ok i) : staticInterface i = staticInterface curIf := by
  rw [dynaReconfigIface_eq, dynaReconfigIfaceSsl_eq] at h
  split_ifs at h <;> cases h <;> rfl

theorem reconfigInterfacesFrom_static {newIfs : List Interface} :
    ∀ {ii : Nat} {curIfs ifs : List Interface}, reconfigInterfacesFrom newIfs ii curIfs = .ok ifs →
      ifs.map staticInterface = curIfs.map staticInterface
  | _, [], _, h => by cases h; rfl
  | ii, curIf :: curIfs, ifs, h => by
    simp only [reconfigInterfacesFrom] at h
    split at h
    · cases h
    split at h <;>
      obtain ⟨i, hi, h⟩ := bind_eq_ok.1 h <;>
      obtain ⟨rest, hrest, h⟩ := bind_eq_ok.1 h <;>
      cases h <;>
      rw [List.map_cons, List.map_cons, reconfigInterfacesFrom_static hrest]
    · -- a fixed port: the `dyna_reconfig_iface_*` handlers change only dynamic fields
      rw [dynaReconfigIface_static hi]
    · -- port 0: the running interface is kept
      cases hi; rfl

section Handlers
variable {new s s' : Settings}

theorem reconfigValue_static {α : Type} [DecidableEq α] {has : Has → Bool}
    {field : Settings → α} {set : Settings → α → Settings}
    (h : reconfigValue has field set new s = .ok s')
    (hset : ∀ s v, staticSettings (set s v) = staticSettings s) :
    staticSettings s' = staticSettings s := by
  cases h
  split <;> simp only [hset]

theorem reconfigCopy_static {has : Has → Bool} {set : Settings → Settings → Settings}
    (h : reconfigCopy has set new s = .ok s')
    (hset : ∀ s new, staticSettings (set s new) = staticSettings s) :
    staticSettings s' = staticSettings s := by
  cases h
  split <;> simp only [hset]

theorem dynaReconfigBreakpad_static (h : dynaReconfigBreakpad new s = .ok s') :
    staticSettings s' = staticSettings s := by
  unfold dynaReconfigBreakpad at h
  split at h
  · cases h; rfl
  · obtain ⟨_, -, h⟩ := bind_eq_ok.1 h
    cases h; rfl

theorem dynaReconfigInterfaces_static (h : dynaReconfigInterfaces new s = .ok s') :
    staticSettings s' = staticSettings s := by
  obtain ⟨ifs, hifs, h⟩ := bind_eq_ok.1 h
  cases h
  simp only [staticSettings, reconfigInterfacesFrom_static hifs]

theorem handlers_static (new : Settings) :
    ∀ e ∈ handlers, ∀ r ∈ e.dyanamicReconfig, ∀ s s',
      r new s = .ok s' → staticSettings s' = staticSettings s := by
  simp only [handlers, List.forall_mem_cons, List.not_mem_nil, false_implies, implies_true,
    and_true]
  and_intros
  all_goals intro r hr s s' h; cases hr
  all_goals first
    | exact reconfigValue_static h fun _ _ => rfl
    | exact reconfigCopy_static h fun _ _ => rfl
    | exact dynaReconfigBreakpad_static h
    | exact dynaReconfigInterfaces_static h

end Handlers

theorem reconfigAll_static {new : Settings} : ∀ {es : List HandlerEntry},
    (∀ e ∈ es, ∀ r ∈ e.dyanamicReconfig, ∀ s s', r new s = .ok s' →
      staticSettings s' = staticSettings s) →
      ∀ {s s' : Settings}, reconfigAll new es s = .ok s' → staticSettings s' = staticSettings s
  | [], _, _, _, h => by cases h; rfl
  | e :: es, hes, s, s', h => by
    simp only [reconfigAll] at h
    split at h
    · exact reconfigAll_static (fun e he => hes e (.tail _ he)) h
    · obtain ⟨t, ht, h⟩ := bind_eq_ok.1 h
      exact (reconfigAll_static (fun e he => hes e (.tail _ he)) h).trans
        (hes e (.head _) _ ‹_› s t ht)

/-- Whatever file it reads, and whether or not the file is valid, a reload changes only what a
`dyanamic_reconfig` handler writes: the attributes without one (`admin`, `threads`,
`extensions`, `max_packet_size`, the SASL mechanisms, ...), the number of interfaces, and each
interface's host, port, address families, management flag and protocol keep their values. -/
theorem reloadConfigFile_static {host : Host} {configFile : String}
    {loaded : Except String (List (String × Json))} {settings settings' : Settings}
    {msgs : List String}
    (h : reloadConfigFile host configFile loaded settings = .ok (settings', msgs)) :
    staticSettings settings' = staticSettings settings := by
  unfold reloadConfigFile at h
  split at h
  · cases h; rfl
  · obtain ⟨⟨valid, errors⟩, -, h⟩ := bind_eq_ok.1 h
    dsimp only at h
    split at h
    · obtain ⟨t, ht, h⟩ := bind_eq_ok.1 h
      cases h
      exact reconfigAll_static (handlers_static _) ht
    · cases h; rfl

/-! ## What a reload applies -/

/-- The running settings after a reload of a valid file, attribute by attribute: each dynamic
attribute the file gives takes the file's value, and the handlers that copy one set its flag too;
each running interface is reconfigured from the file's interface at its index; everything else
is kept. -/
def reloadedSettings (new s : Settings) : Settings :=
  { s with
    rbacPrivilegeDebug :=
      if new.has.rbacPrivilegeDebug then new.rbacPrivilegeDebug else s.rbacPrivilegeDebug,
    interfaces := List.zipWith reconfiguredIface new.interfaces s.interfaces,
    defaultReqsPerEvent :=
      if new.has.defaultReqsPerEvent then new.defaultReqsPerEvent else s.defaultReqsPerEvent,
    reqsPerEventHighPriority := if new.has.reqsPerEventHighPriority
      then new.reqsPerEventHighPriority else s.reqsPerEventHighPriority,
    reqsPerEventMedPriority := if new.has.reqsPerEventMedPriority
      then new.reqsPerEventMedPriority else s.reqsPerEventMedPriority,
    reqsPerEventLowPriority := if new.has.reqsPerEventLowPriority
      then new.reqsPerEventLowPriority else s.reqsPerEventLowPriority,
    verbose := if new.has.verbose then new.verbose else s.verbose,
    connectionIdleTime :=
      if new.has.connectionIdleTime then new.connectionIdleTime else s.connectionIdleTime,
    sslCipherList := if new.has.sslCipherList then new.sslCipherList else s.sslCipherList,
    sslMinimumProtocol :=
      if new.has.sslMinimumProtocol then new.sslMinimumProtocol else s.sslMinimumProtocol,
    breakpad := if new.has.breakpad then new.breakpad else s.breakpad,
    dedupeNmvbMaps := if new.has.dedupeNmvbMaps then new.dedupeNmvbMaps else s.dedupeNmvbMaps,
    has := { s.has with
      rbacPrivilegeDebug := new.has.rbacPrivilegeDebug || s.has.rbacPrivilegeDebug,
      sslCipherList := new.has.sslCipherList || s.has.sslCipherList,
      sslMinimumProtocol := new.has.sslMinimumProtocol || s.has.sslMinimumProtocol,
      dedupeNmvbMaps := new.has.dedupeNmvbMaps || s.has.dedupeNmvbMaps } }

section Applied
variable {new s s' : Settings}

theorem reconfigValue_eq {α : Type} [DecidableEq α] {has : Has → Bool} {field : Settings → α}
    {set : Settings → α → Settings} (hset : ∀ s, set s (field s) = s) :
    reconfigValue has field set new s = .ok (set s (if has new.has then field new else field s)) := by
  unfold reconfigValue
  by_cases hh : has new.has <;> by_cases hf : field new = field s <;> simp [hh, hf, hset]

theorem reconfigCopy_eq {has : Has → Bool} {set : Settings → Settings → Settings} {t : Settings}
    (htrue : has new.has = true → set s new = t) (hfalse : has new.has = false → s = t) :
    reconfigCopy has set new s = .ok t := by
  unfold reconfigCopy
  cases h : has new.has
  · exact congrArg _ (hfalse h)
  · exact congrArg _ (htrue h)

theorem dynaReconfigRbacPrivilegeDebug_eq : dynaReconfigRbacPrivilegeDebug new s = .ok
    { s with
      rbacPrivilegeDebug :=
        if new.has.rbacPrivilegeDebug then new.rbacPrivilegeDebug else s.rbacPrivilegeDebug
      has.rbacPrivilegeDebug := new.has.rbacPrivilegeDebug || s.has.rbacPrivilegeDebug } :=
  reconfigCopy_eq (fun h => by simp [h]) (fun h => by simp [h])

theorem dynaReconfigSslCipherList_eq : dynaReconfigSslCipherList new s = .ok
    { s with
      sslCipherList := if new.has.sslCipherList then new.sslCipherList else s.sslCipherList
      has.sslCipherList := new.has.sslCipherList || s.has.sslCipherList } :=
  reconfigCopy_eq (fun h => by simp [h]) (fun h => by simp [h])

theorem dynaReconfigSslMinimumProtocol_eq : dynaReconfigSslMinimumProtocol new s = .ok
    { s with
      sslMinimumProtocol :=
        if new.has.sslMinimumProtocol then new.sslMinimumProtocol else s.sslMinimumProtocol
      has.sslMinimumProtocol := new.has.sslMinimumProtocol || s.has.sslMinimumProtocol } :=
  reconfigCopy_eq (fun h => by simp [h]) (fun h => by simp [h])

theorem dynaReconfigDedupeNmvbMaps_eq : dynaReconfigDedupeNmvbMaps new s = .ok
    { s with
      dedupeNmvbMaps := if new.has.dedupeNmvbMaps then new.dedupeNmvbMaps else s.dedupeNmvbMaps
      has.dedupeNmvbMaps := new.has.dedupeNmvbMaps || s.has.dedupeNmvbMaps } :=
  reconfigCopy_eq (fun h => by simp [h]) (fun h => by simp [h])

theorem dynaReconfigBreakpad_ok (h : dynaReconfigBreakpad new s = .ok s') :
    s' = { s with breakpad := if new.has.breakpad then new.breakpad else s.breakpad } ∧
      (new.has.breakpad = true → ∃ b, strcmpNe new.breakpad.minidumpDir
        (.newString .breakpadMinidumpDir) s.breakpad.minidumpDir
        (.runningString .breakpadMinidumpDir) = .ok b) := by
  unfold dynaReconfigBreakpad at h
  cases hb : new.has.breakpad <;> simp only [hb, Bool.not_false, Bool.not_true, if_true, if_false] at h ⊢
  · cases h; exact ⟨rfl, nofun⟩
  · obtain ⟨b, hb', h⟩ := bind_eq_ok.1 h
    cases h; exact ⟨rfl, fun _ => ⟨b, hb'⟩⟩

/-- The reconfiguration loop over the handler table, when it finishes, leaves
`reloadedSettings`, after the interfaces loop over the running interfaces and the `strcmp` of
the `minidump_dir`s have finished. -/
theorem reconfigAll_handlers_ok (h : reconfigAll new handlers s = .ok s') :
    s' = reloadedSettings new s ∧
      (∃ ifs, reconfigInterfacesFrom new.interfaces 0 s.interfaces = .ok ifs) ∧
      (new.has.breakpad = true → ∃ b, strcmpNe new.breakpad.minidumpDir
        (.newString .breakpadMinidumpDir) s.breakpad.minidumpDir
        (.runningString .breakpadMinidumpDir) = .ok b) := by
  simp only [handlers, reconfigAll] at h
  obtain ⟨s₁, h₁, h⟩ := bind_eq_ok.1 h
  obtain ⟨s₂, h₂, h⟩ := bind_eq_ok.1 h
  obtain ⟨s₃, h₃, h⟩ := bind_eq_ok.1 h
  obtain ⟨s₄, h₄, h⟩ := bind_eq_ok.1 h
  obtain ⟨s₅, h₅, h⟩ := bind_eq_ok.1 h
  obtain ⟨s₆, h₆, h⟩ := bind_eq_ok.1 h
  obtain ⟨s₇, h₇, h⟩ := bind_eq_ok.1 h
  obtain ⟨s₈, h₈, h⟩ := bind_eq_ok.1 h
  obtain ⟨s₉, h₉, h⟩ := bind_eq_ok.1 h
  obtain ⟨s₁₀, h₁₀, h⟩ := bind_eq_ok.1 h
  obtain ⟨s₁₁, h₁₁, h⟩ := bind_eq_ok.1 h
  obtain ⟨s₁₂, h₁₂, h⟩ := bind_eq_ok.1 h
  cases h
  obtain ⟨ifs, hifs, h₂⟩ := bind_eq_ok.1 h₂
  simp only [dynaReconfigDefaultReqsPerEvent, dynaReconfigReqsPerEventHighPriority,
    dynaReconfigReqsPerEventMedPriority, dynaReconfigReqsPerEventLowPriority, dynaReconfigVerbosity,
    dynaReconfigConnectionIdleTime] at h₃ h₄ h₅ h₆ h₇ h₈
  rw [reconfigValue_eq (fun _ => rfl)] at h₃ h₄ h₅ h₆ h₇ h₈
  rw [dynaReconfigRbacPrivilegeDebug_eq] at h₁
  rw [dynaReconfigSslCipherList_eq] at h₉
  rw [dynaReconfigSslMinimumProtocol_eq] at h₁₀
  rw [dynaReconfigDedupeNmvbMaps_eq] at h₁₂
  cases h₁; cases h₂; cases h₃; cases h₄; cases h₅; cases h₆; cases h₇; cases h₈; cases h₉
  cases h₁₀; cases h₁₂
  obtain ⟨rfl, hbreakpad⟩ := dynaReconfigBreakpad_ok h₁₁
  rw [reconfigInterfacesFrom_ok hifs]
  exact ⟨rfl, ⟨ifs, hifs⟩, hbreakpad⟩

end Applied

/-- The SSL interface of `sslConfig`, with `verbosity` 2 and the cipher list `HIGH`. -/
def tunedConfig : List (String × Json) :=
  sslConfig ++ [("verbosity", .number 2 true), ("ssl_cipher_list", .string "HIGH")]

def tunedSettings : Settings :=
  { sslSettings with
    verbose := 2, sslCipherList := some "HIGH",
    has := { interfaces := true, verbose := true, sslCipherList := true } }

/-- `sslSettings` once `tunedConfig` is reloaded: `verbose` has no flag to copy. -/
def tunedRunning : Settings :=
  { sslSettings with
    verbose := 2, sslCipherList := some "HIGH", has := { interfaces := true, sslCipherList := true } }

/-- One interface on port 11211, with no `host`. -/
def noHostConfig : List (String × Json) :=
  [("interfaces", .array [.object [("port", .number 11211 true)]])]

def noHostSettings : Settings :=
  { interfaces := [{ interfaceDefaults with port := 11211 }], has := { interfaces := true } }

theorem reloadConfigFile_unchanged_null_host_noHostConfig :
    parseJSONConfig exampleHost noHostConfig {} = .ok noHostSettings ∧
      (∃ i ∈ noHostSettings.interfaces, i.port ≠ 0 ∧ i.host = none) ∧
      ∃ ii, reloadConfigFile exampleHost "memcached.json" (.ok noHostConfig) noHostSettings =
        .error (.newString (.host ii)) := by
  have hnull : ∃ i ∈ noHostSettings.interfaces, i.port ≠ 0 ∧ i.host = none :=
    ⟨_, List.mem_singleton_self _, by decide, rfl⟩
  exact ⟨rfl, hnull, reloadConfigFile_unchanged_null_host exampleHost "memcached.json" rfl hnull⟩

/-- A file that sets `verbosity` to `v`, and the settings it parses to. -/
def verbosityConfig (v : Int) : List (String × Json) := [("verbosity", .number v true)]

def verbositySettings (v : Int) : Settings := { verbose := v, has := { verbose := true } }

theorem reloadConfigFile_static_verbosity :
    reloadConfigFile exampleHost "memcached.json" (.ok (verbosityConfig 2)) (verbositySettings 1) =
        .ok (verbositySettings 2, []) ∧
      staticSettings (verbositySettings 2) = staticSettings (verbositySettings 1) := by
  have h : reloadConfigFile exampleHost "memcached.json" (.ok (verbosityConfig 2))
      (verbositySettings 1) = .ok (verbositySettings 2, []) := rfl
  exact ⟨h, reloadConfigFile_static h⟩

end Memcached.ConfigValidate
