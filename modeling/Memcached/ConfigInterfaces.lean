import Memcached.ConfigReload

set_option autoImplicit false

/-!
# The interfaces the daemon listens on

`handle_interface` refuses an interface with both IPv4 and IPv6 disabled, an `ssl` object that
names only one of `key` and `cert`, and a non-zero port that an earlier interface already uses.
These three facts hold of the running interfaces over the daemon's whole life: after the
configuration file is loaded, whatever its members, their order and their repetitions, and after
every reload that finishes. A reload keeps each interface's port and address families, and it
replaces SSL files only by those of the interface at the same index in the new file, whose own
files are paired because that file went through the same parser.
-/

namespace Memcached.ConfigInterfaces
open Memcached.ConfigParse Memcached.ConfigReload

/-- Both SSL files or neither. -/
def SslPaired (i : Interface) : Prop := i.ssl.key.isSome = i.ssl.cert.isSome

/-- `a`, listed before `b`, does not use `b`'s port, unless that port is 0. -/
def PortFree (a b : Interface) : Prop := b.port ≠ 0 → a.port ≠ b.port

/-- What `handle_interface` checks of each interface it accepts. -/
structure InterfacesValid (ifaces : List Interface) : Prop where
  ipEnabled : ∀ i ∈ ifaces, i.ipv4 = true ∨ i.ipv6 = true
  sslPaired : ∀ i ∈ ifaces, SslPaired i
  portsFree : ifaces.Pairwise PortFree

theorem interfacesValid_nil : InterfacesValid [] :=
  ⟨fun _ h => absurd h (List.not_mem_nil _), fun _ h => absurd h (List.not_mem_nil _), .nil⟩

theorem InterfacesValid.concat {ifaces : List Interface} {i : Interface} (h : InterfacesValid ifaces)
    (hip : i.ipv4 = true ∨ i.ipv6 = true) (hssl : SslPaired i) (hport : ∀ a ∈ ifaces, PortFree a i) :
    InterfacesValid (ifaces ++ [i]) :=
  ⟨List.forall_mem_append.2 ⟨h.ipEnabled, List.forall_mem_singleton.2 hip⟩,
    List.forall_mem_append.2 ⟨h.sslPaired, List.forall_mem_singleton.2 hssl⟩,
    List.pairwise_append.2 ⟨h.portsFree, List.pairwise_singleton _ _,
      fun a ha _ hb => List.eq_of_mem_singleton hb ▸ hport a ha⟩⟩

/-! ## Parsing -/

theorem sslPaired_map {α : Type} {x : Except String α} {f : α → Interface} {i : Interface}
    (hs : x.map f = .ok i) (hf : ∀ a, SslPaired (f a)) : SslPaired i := by
  obtain ⟨a, -, rfl⟩ := map_eq_ok.1 hs
  exact hf a

theorem getInterfaceSsl_sslPaired {host : Host} {name : String} {r : Json} {iface i : Interface}
    (h : SslPaired iface) (hs : getInterfaceSsl host name r iface = .ok i) : SslPaired i := by
  cases r
  case object members =>
    obtain ⟨⟨_ | key, _ | cert⟩, -, hs⟩ := bind_eq_ok.1 hs
    · cases hs; exact h
    · cases hs
    · cases hs
    · obtain ⟨_, -, hs⟩ := bind_eq_ok.1 hs
      obtain ⟨_, -, hs⟩ := bind_eq_ok.1 hs
      cases hs; rfl
  case jfalse => cases hs; exact h
  all_goals cases hs

theorem interfaceHandlers_sslPaired : ∀ e ∈ interfaceHandlers, ∀ host name r iface i,
    SslPaired iface → e.2 host name r iface = .ok i → SslPaired i := by
  simp only [interfaceHandlers, List.forall_mem_cons, List.not_mem_nil, false_implies,
    implies_true, and_true]
  refine ⟨?_, ?_, ?_, ?_, ?_, ?_, ?_, fun _ _ _ _ _ => getInterfaceSsl_sslPaired, ?_, ?_⟩
  all_goals exact fun _ _ _ _ _ h hs => sslPaired_map hs fun _ => h

theorem mem_of_lookup_eq_some {α : Type} {table : List (String × α)} {name : String} {a : α}
    (h : lookup table name = some a) : ∃ e ∈ table, e.2 = a := by
  obtain ⟨e, he, rfl⟩ := Option.map_eq_some'.1 h
  exact ⟨e, List.mem_of_find?_eq_some he, rfl⟩

theorem interfaceMembers_sslPaired (host : Host) :
    ∀ (members : List (String × Json)) {iface i : Interface}, SslPaired iface →
      interfaceMembers host members iface = .ok i → SslPaired i
  | [], _, _, h, hs => by cases hs; exact h
  | (name, obj) :: objs, iface, i, h, hs => by
    simp only [interfaceMembers] at hs
    split at hs
    · exact interfaceMembers_sslPaired host objs h hs
    · obtain ⟨e, he, rfl⟩ := mem_of_lookup_eq_some ‹_›
      obtain ⟨i₁, h₁, hs⟩ := bind_eq_ok.1 hs
      exact interfaceMembers_sslPaired host objs
        (interfaceHandlers_sslPaired e he host name obj iface i₁ h h₁) hs

/-- What `handle_interface` guarantees of an interface it accepts after `earlier`. -/
theorem handleInterface_ok {host : Host} {idx : Nat} {r : Json} {earlier : List Interface}
    {i : Interface} (hs : handleInterface host idx r earlier = .ok i) :
    (i.ipv4 = true ∨ i.ipv6 = true) ∧ SslPaired i ∧ ∀ a ∈ earlier, PortFree a i := by
  cases r
  case object members =>
    obtain ⟨i₁, h₁, hs⟩ := bind_eq_ok.1 hs
    have hssl := interfaceMembers_sslPaired host members (show SslPaired interfaceDefaults from rfl) h₁
    split at hs
    · cases hs
    rename_i hip
    have hip : i₁.ipv4 = true ∨ i₁.ipv6 = true := by
      cases h4 : i₁.ipv4 <;> cases h6 : i₁.ipv6 <;> simp_all
    split at hs
    · split at hs
      · cases hs
      · cases hs
        rename_i hfind
        exact ⟨hip, hssl, fun a ha _ => by simpa using List.findIdx?_eq_none_iff.1 hfind a ha⟩
    · cases hs
      exact ⟨hip, hssl, fun _ _ hp => absurd (not_not.1 ‹_›) hp⟩
  all_goals cases hs

theorem handleInterfaces_valid (host : Host) :
    ∀ (cs : List Json) {done ifaces : List Interface}, InterfacesValid done →
      handleInterfaces host done cs = .ok ifaces → InterfacesValid ifaces
  | [], _, _, h, hs => by cases hs; exact h
  | c :: cs, done, ifaces, h, hs => by
    simp only [handleInterfaces] at hs
    obtain ⟨i, hi, hs⟩ := bind_eq_ok.1 hs
    obtain ⟨hip, hssl, hport⟩ := handleInterface_ok hi
    exact handleInterfaces_valid host cs (h.concat hip hssl hport) hs

theorem interfacesValid_map {α : Type} {x : Except String α} {f : α → Settings} {s' : Settings}
    (hs : x.map f = .ok s') (hf : ∀ a, InterfacesValid (f a).interfaces) :
    InterfacesValid s'.interfaces := by
  obtain ⟨a, -, rfl⟩ := map_eq_ok.1 hs
  exact hf a

theorem getInterfaces_interfacesValid {host : Host} {name : String} {o : Json} {s s' : Settings}
    (hs : getInterfaces host name o s = .ok s') : InterfacesValid s'.interfaces := by
  obtain ⟨_, hi, hs⟩ := bind_eq_ok.1 hs
  cases hs
  exact handleInterfaces_valid host _ interfacesValid_nil hi

theorem parseBreakpad_interfacesValid {host : Host} {name : String} {o : Json} {s s' : Settings}
    (h : InterfacesValid s.interfaces) (hs : parseBreakpad host name o s = .ok s') :
    InterfacesValid s'.interfaces := by
  cases o <;> simp only [parseBreakpad] at hs <;> try cases hs
  obtain ⟨_, -, hs⟩ := bind_eq_ok.1 hs
  split at hs
  · cases hs
  · split at hs <;> cases hs
    exact h

/-- Every top-level handler keeps the interfaces valid: `interfaces` builds a valid list from
nothing, and every other handler leaves the list alone. -/
theorem handlers_interfacesValid : ∀ e ∈ handlers, ∀ host name o s s',
    InterfacesValid s.interfaces → e.handler host name o s = .ok s' →
      InterfacesValid s'.interfaces := by
  simp only [handlers, List.forall_mem_cons, List.not_mem_nil, false_implies, implies_true,
    and_true]
  refine ⟨?_, ?_, ?_, ?_, ?_, fun _ _ _ _ _ _ => getInterfaces_interfacesValid, ?_, ?_, ?_, ?_,
    ?_, ?_, ?_, ?_, ?_, ?_, ?_, ?_, ?_, ?_, ?_, fun _ _ _ _ _ => parseBreakpad_interfacesValid,
    ?_, ?_, ?_, ?_, ?_⟩
  all_goals intro _ _ _ _ _ h hs
  all_goals first
    | exact interfacesValid_map hs fun _ => h
    | exact interfacesValid_map hs fun _ => by split <;> exact h
    | (cases hs; exact h)
    | (obtain ⟨_, -, hs⟩ := bind_eq_ok.1 hs
       obtain ⟨_, -, hs⟩ := bind_eq_ok.1 hs
       cases hs; exact h)

theorem parseJSONConfig_interfacesValid (host : Host) (sys : List (String × Json))
    {s s' : Settings} (h : InterfacesValid s.interfaces) (hs : parseJSONConfig host sys s = .ok s') :
    InterfacesValid s'.interfaces :=
  parseJSONConfig_keeps host (fun e he => handlers_interfacesValid e he host) sys h hs

/-! ## Reloading -/

@[simp] theorem reconfiguredIface_port (n c : Interface) : (reconfiguredIface n c).port = c.port := by
  unfold reconfiguredIface; split <;> rfl

@[simp] theorem reconfiguredIface_ipv4 (n c : Interface) : (reconfiguredIface n c).ipv4 = c.ipv4 := by
  unfold reconfiguredIface; split <;> rfl

@[simp] theorem reconfiguredIface_ipv6 (n c : Interface) : (reconfiguredIface n c).ipv6 = c.ipv6 := by
  unfold reconfiguredIface; split <;> rfl

theorem reconfiguredIface_sslPaired {n c : Interface} (hn : SslPaired n) (hc : SslPaired c) :
    SslPaired (reconfiguredIface n c) := by
  unfold reconfiguredIface
  split
  · exact hc
  · show (if c.ssl.key.isSome then n.ssl.key else c.ssl.key).isSome =
      (if c.ssl.cert.isSome then n.ssl.cert else c.ssl.cert).isSome
    rw [hc]
    split
    · exact hn
    · exact hc

theorem mem_zipWith_reconfiguredIface {ns cs : List Interface} {x : Interface}
    (hx : x ∈ List.zipWith reconfiguredIface ns cs) : ∃ n ∈ ns, ∃ c ∈ cs, x = reconfiguredIface n c := by
  rw [← List.map_uncurry_zip_eq_zipWith] at hx
  obtain ⟨⟨n, c⟩, hp, rfl⟩ := List.mem_map.1 hx
  exact ⟨n, (List.of_mem_zip hp).1, c, (List.of_mem_zip hp).2, rfl⟩

theorem pairwise_zipWith_reconfiguredIface :
    ∀ {ns cs : List Interface}, cs.Pairwise PortFree →
      (List.zipWith reconfiguredIface ns cs).Pairwise PortFree
  | [], _, _ => .nil
  | _ :: _, [], _ => .nil
  | n :: ns, c :: cs, h => by
    rw [List.zipWith_cons_cons]
    refine .cons (fun x hx => ?_) (pairwise_zipWith_reconfiguredIface (List.pairwise_cons.1 h).2)
    obtain ⟨_, -, c', hc', rfl⟩ := mem_zipWith_reconfiguredIface hx
    simpa [PortFree] using (List.pairwise_cons.1 h).1 c' hc'

theorem interfacesValid_zipWith {ns cs : List Interface} (hn : ∀ n ∈ ns, SslPaired n)
    (hc : InterfacesValid cs) : InterfacesValid (List.zipWith reconfiguredIface ns cs) := by
  refine ⟨fun x hx => ?_, fun x hx => ?_, pairwise_zipWith_reconfiguredIface hc.portsFree⟩ <;>
    obtain ⟨n, hn', c, hc', rfl⟩ := mem_zipWith_reconfiguredIface hx
  · simpa using hc.ipEnabled c hc'
  · exact reconfiguredIface_sslPaired (hn n hn') (hc.sslPaired c hc')

/-- A reload that finishes keeps the running interfaces valid. -/
theorem reloadConfigFile_interfacesValid {host : Host} {configFile : String}
    {loaded : Except String (List (String × Json))} {settings settings' : Settings}
    {msgs : List String} (h : InterfacesValid settings.interfaces)
    (hr : reloadConfigFile host configFile loaded settings = .ok (settings', msgs)) :
    InterfacesValid settings'.interfaces := by
  by_cases hm : msgs = []
  · -- only a reload of a valid file logs nothing
    subst hm
    rcases hp : parseConfigFile host loaded {} with e | new
    · rw [reloadConfigFile, hp] at hr
      cases hr
    obtain ⟨sys, rfl, hnew⟩ := bind_eq_ok.1 hp
    rcases hval : validateAll host new settings handlers with a | ⟨_ | _, errors⟩
    · rw [reloadConfigFile, hp] at hr
      dsimp only at hr
      rw [hval] at hr
      cases hr
    · rw [reloadConfigFile, hp] at hr
      dsimp only at hr
      rw [hval] at hr
      cases hr
    rw [(reloadConfigFile_interfaces hnew hval hr).1]
    exact interfacesValid_zipWith
      (parseJSONConfig_interfacesValid host sys interfacesValid_nil hnew).sslPaired h
  · rwa [reloadConfigFile_logged_unchanged hr hm]

/-! ## The daemon's life -/

/-- The settings the daemon runs with: those `load_config_file` parses at start-up into
`initial`, then those left by every `reload_config_file` that finishes. -/
inductive Running (host : Host) (initial : Settings) : Settings → Prop where
  | load {loaded : Except String (List (String × Json))} {s : Settings}
      (h : parseConfigFile host loaded initial = .ok s) : Running host initial s
  | reload {s s' : Settings} {configFile : String} {loaded : Except String (List (String × Json))}
      {msgs : List String} (run : Running host initial s)
      (h : reloadConfigFile host configFile loaded s = .ok (s', msgs)) : Running host initial s'

/-- From start-up settings with valid interfaces (the zeroed ones have none), the daemon's
interfaces stay valid: each has IPv4 or IPv6, both SSL files or neither, and no non-zero port
is used twice, whatever files are loaded and reloaded. -/
theorem running_interfaces_valid {host : Host} {initial s : Settings}
    (h₀ : InterfacesValid initial.interfaces) (h : Running host initial s) :
    InterfacesValid s.interfaces := by
  induction h with
  | load h =>
    obtain ⟨sys, -, hs⟩ := bind_eq_ok.1 h
    exact parseJSONConfig_interfacesValid host sys h₀ hs
  | reload _ h ih => exact reloadConfigFile_interfacesValid ih h

/-- Two interfaces, the second with SSL. -/
def twoPortConfig : List (String × Json) :=
  [("interfaces", .array [.object [("host", .string "*"), ("port", .number 11210 true)],
    .object [("host", .string "*"), ("port", .number 11207 true),
      ("ssl", .object [("key", .string "/etc/memcached/key.pem"),
        ("cert", .string "/etc/memcached/cert.pem")])]])]

def twoPortSettings : Settings :=
  { interfaces := [{ interfaceDefaults with host := some "*", port := 11210 },
      { interfaceDefaults with
        host := some "*", port := 11207,
        ssl := { key := some "/etc/memcached/key.pem", cert := some "/etc/memcached/cert.pem" } }],
    has := { interfaces := true } }

theorem running_interfaces_valid_twoPortSettings :
    InterfacesValid ({} : Settings).interfaces ∧ Running exampleHost {} twoPortSettings ∧
      InterfacesValid twoPortSettings.interfaces :=
  have hrun : Running exampleHost {} twoPortSettings :=
    @Running.reload _ _ _ _ "memcached.json" (.ok twoPortConfig) []
      (@Running.load _ _ (.ok twoPortConfig) _ rfl) rfl
  ⟨interfacesValid_nil, hrun, running_interfaces_valid interfacesValid_nil hrun⟩

/-- A second interface on a port already in use is refused, naming the first. -/
example : parseJSONConfig exampleHost
    [("interfaces", .array [.object [("port", .number 11210 true)],
      .object [("port", .number 11210 true)]])] {} =
      .error "Port 11210 is already in use by interface[0].\n" := rfl

end Memcached.ConfigInterfaces
