import Memcached.ConfigValidate

set_option autoImplicit false

/-!
# Who owns the strings a reload hands over

`reload_config_file` parses the file into `new_settings`, whose strings the parse allocates with
`cb_strdup`. It copies what changed into the running settings and ends with
`free_settings(&new_settings)`. `dyna_reconfig_iface_ssl` and `dyna_reconfig_breakpad` copy the
strings they take with `cb_strdup`. `dyna_reconfig_ssl_cipher_list` and
`dyna_reconfig_ssl_minimum_protocol` instead store `new_settings`' own pointer in the running
settings, and `free_settings` releases it a moment later.

This module tracks the allocations of a reload that the value model of `ConfigReload` leaves out.
A heap is the list of live allocations and the next address `cb_strdup` hands out; a `cb_free`
of an address that is not live is a fault. Every control decision is the value model's: the
validation, and the `has` flags and `strcmp` results the handlers test, so a reload that finishes
on the values finishes on the strings. Over every valid reload, every string the running settings
hold stays allocated, except the SSL cipher list and minimum protocol the file gave. Those point
at memory `free_settings` has released, and the next reload that gives a cipher list frees it a
second time. Over a run of reloads whose files give neither, nothing leaks and nothing dangles.
-/

namespace Memcached.ConfigMemory
open Memcached.ConfigParse
open Memcached.ConfigReload (AbsentRead strcmpNe exampleHost sslSettings)
open Memcached.ConfigValidate (tunedConfig tunedSettings tunedRunning)

abbrev Ptr := Nat

/-- The allocations `cb_strdup` has made and `cb_free` has not yet released, and the address the
next `cb_strdup` returns: addresses are not reused. -/
structure Heap where
  live : List Ptr
  next : Ptr
  nodup : live.Nodup
  below : ∀ p ∈ live, p < next

/-- Where the model stops: a free of memory that is not allocated, or a read the value model
calls absent. -/
inductive Fault where
  | badFree (p : Ptr)
  | absent (a : AbsentRead)
  deriving DecidableEq, Repr

/-- `cb_free`; NULL is ignored. -/
def cbFree (h : Heap) : Option Ptr → Except Fault Heap
  | none => .ok h
  | some p =>
    if p ∈ h.live then
      .ok ⟨h.live.erase p, h.next, h.nodup.erase p, fun _ hq => h.below _ (List.mem_of_mem_erase hq)⟩
    else .error (.badFree p)

/-- `cb_strdup`: a fresh allocation. -/
def cbStrdup (h : Heap) : Heap × Ptr :=
  (⟨h.next :: h.live, h.next + 1, List.nodup_cons.2 ⟨fun hm => Nat.lt_irrefl _ (h.below _ hm), h.nodup⟩,
    fun _ hq => (List.mem_cons.1 hq).elim (fun e => e ▸ Nat.lt_succ_self _)
      fun hq => Nat.lt_succ_of_lt (h.below _ hq)⟩, h.next)

/-- `old = cur; cur = cb_strdup(new); cb_free(old)`: a running string replaced by a copy. -/
def replaceWithCopy (old : Option Ptr) (h : Heap) : Except Fault (Heap × Option Ptr) := do
  let (h, p) := cbStrdup h
  pure (← cbFree h old, some p)

/-- The strings of a `struct interface`. -/
structure InterfacePtrs where
  host : Option Ptr
  key : Option Ptr
  cert : Option Ptr
  deriving DecidableEq, Repr

def InterfacePtrs.all (i : InterfacePtrs) : List (Option Ptr) := [i.host, i.key, i.cert]

/-- The allocations a `struct settings` holds, each NULL or an address; `{0}` is all NULL. -/
structure SettingsPtrs where
  admin : Option Ptr := none
  interfaces : List InterfacePtrs := []
  interfacesArray : Option Ptr := none
  extensions : List (Option Ptr × Option Ptr) := []
  extensionsArray : Option Ptr := none
  rbacFile : Option Ptr := none
  config : Option Ptr := none
  root : Option Ptr := none
  minidumpDir : Option Ptr := none
  sslCipherList : Option Ptr := none
  sslMinimumProtocol : Option Ptr := none
  auditFile : Option Ptr := none
  saslMechanisms : Option Ptr := none
  deriving DecidableEq, Repr

/-- Every allocation of the settings, in the order `free_settings` releases them. -/
def SettingsPtrs.all (P : SettingsPtrs) : List (Option Ptr) :=
  [P.admin] ++ (P.interfaces.map InterfacePtrs.all).flatten ++ [P.interfacesArray] ++
    (P.extensions.map fun e => [e.1, e.2]).flatten ++
    [P.extensionsArray, P.rbacFile, P.config, P.root, P.minidumpDir, P.sslCipherList,
      P.sslMinimumProtocol, P.auditFile, P.saslMechanisms]

/-- `free_settings` -/
def freeSettings (h : Heap) (P : SettingsPtrs) : Except Fault Heap := P.all.foldlM cbFree h

/-! ## The reconfiguration, on the strings -/

/-- A read of the value model, its absent case a fault. -/
def absentRead {α : Type} (r : Except AbsentRead α) : Except Fault α := r.mapError .absent

/-- One half of `dyna_reconfig_iface_ssl`: `if (cur != NULL && strcmp(new, cur) != 0)` the running
string is replaced by a copy of the new one. -/
def reconfigSslFile (new cur : Option String) (absentNew absentCur : AbsentRead)
    (curP : Option Ptr) (h : Heap) : Except Fault (Heap × Option Ptr) :=
  match cur with
  | none => pure (h, curP)
  | some _ => do
    if (← absentRead (strcmpNe new absentNew cur absentCur)) then replaceWithCopy curP h
    else pure (h, curP)

/-- `dyna_reconfig_iface_ssl`: the certificate, then the key. -/
def dynaReconfigIfaceSsl (ii : Nat) (newIf curIf : Interface) (curP : InterfacePtrs) (h : Heap) :
    Except Fault (Heap × InterfacePtrs) := do
  let (h, cert) ← reconfigSslFile newIf.ssl.cert curIf.ssl.cert (.newString (.sslCert ii))
    (.runningString (.sslCert ii)) curP.cert h
  let (h, key) ← reconfigSslFile newIf.ssl.key curIf.ssl.key (.newString (.sslKey ii))
    (.runningString (.sslKey ii)) curP.key h
  pure (h, { curP with cert, key })

/-- The loop of `dyna_reconfig_interfaces` from entry `ii` on, over the running interfaces and
their strings; the other `dyna_reconfig_iface_*` handlers copy numbers only. -/
def reconfigInterfacesFrom (newIfs : List Interface) :
    Nat → List Interface → List InterfacePtrs → Heap → Except Fault (Heap × List InterfacePtrs)
  | ii, curIf :: curIfs, curP :: curPs, h =>
    match newIfs[ii]? with
    | none => .error (.absent (.newInterface ii))
    | some newIf => do
      let (h, curP) ← (if newIf.port ≠ 0 then dynaReconfigIfaceSsl ii newIf curIf curP h
        else pure (h, curP))
      let (h, curPs) ← reconfigInterfacesFrom newIfs (ii + 1) curIfs curPs h
      pure (h, curP :: curPs)
  | _, _, curPs, h => pure (h, curPs)

/-- The SSL string handlers: when the file gives the attribute, the running string is freed and
the new settings' own pointer stored in its place. -/
def storeNewString (given : Bool) (newP curP : Option Ptr) (h : Heap) :
    Except Fault (Heap × Option Ptr) :=
  if given then do pure (← cbFree h curP, newP) else pure (h, curP)

def dynaReconfigSslCipherList (new : Settings) : Option Ptr → Option Ptr → Heap →
    Except Fault (Heap × Option Ptr) :=
  storeNewString new.has.sslCipherList

def dynaReconfigSslMinimumProtocol (ns : Settings) : Option Ptr → Option Ptr → Heap →
    Except Fault (Heap × Option Ptr) :=
  storeNewString ns.has.sslMinimumProtocol

/-- `dyna_reconfig_breakpad`: a `minidump_dir` that differs is replaced by a copy. -/
def dynaReconfigBreakpad (new settings : Settings) (dirP : Option Ptr) (h : Heap) :
    Except Fault (Heap × Option Ptr) :=
  if !new.has.breakpad then pure (h, dirP)
  else do
    if (← absentRead (strcmpNe new.breakpad.minidumpDir (.newString .breakpadMinidumpDir)
        settings.breakpad.minidumpDir (.runningString .breakpadMinidumpDir)))
    then replaceWithCopy dirP h else pure (h, dirP)

/-- The reconfiguration loop of `reload_config_file`, on the strings: the handlers that move
strings, in the table's order. -/
def reconfigAll (new settings : Settings) (N R : SettingsPtrs) (h : Heap) :
    Except Fault (Heap × SettingsPtrs) := do
  let (h, interfaces) ← reconfigInterfacesFrom new.interfaces 0 settings.interfaces R.interfaces h
  let (h, sslCipherList) ← dynaReconfigSslCipherList new N.sslCipherList R.sslCipherList h
  let (h, sslMinimumProtocol) ←
    dynaReconfigSslMinimumProtocol new N.sslMinimumProtocol R.sslMinimumProtocol h
  let (h, minidumpDir) ← dynaReconfigBreakpad new settings R.minidumpDir h
  pure (h, { R with interfaces, sslCipherList, sslMinimumProtocol, minidumpDir })

/-- `reload_config_file` on the allocations, once the file has parsed into `new`, whose strings
are `N`: the heap, and the strings of the running settings `R`. -/
def reloadConfigFile (host : Host) (new settings : Settings) (N R : SettingsPtrs) (h : Heap) :
    Except Fault (Heap × SettingsPtrs) := do
  let (valid, _) ← absentRead (ConfigReload.validateAll host new settings ConfigReload.handlers)
  let (h, R) ← (if valid then reconfigAll new settings N R h else pure (h, R))
  pure (← freeSettings h N, R)

/-! ## Ownership -/

/-- The heap holds every address of `L`, each once. -/
def Owns (h : Heap) (L : List (Option Ptr)) : Prop :=
  L.reduceOption.Nodup ∧ ∀ p ∈ L.reduceOption, p ∈ h.live

instance (h : Heap) (L : List (Option Ptr)) : Decidable (Owns h L) :=
  inferInstanceAs (Decidable (_ ∧ _))

/-- The heap only grows: no address comes back to life. -/
def Grows (h h' : Heap) : Prop := h.next ≤ h'.next ∧ ∀ q ∈ h'.live, q ∈ h.live ∨ h.next ≤ q

instance (h h' : Heap) : Decidable (Grows h h') := inferInstanceAs (Decidable (_ ∧ _))

theorem Grows.refl (h : Heap) : Grows h h := ⟨le_rfl, fun _ hq => .inl hq⟩

theorem Grows.trans {h₁ h₂ h₃ : Heap} (h₁₂ : Grows h₁ h₂) (h₂₃ : Grows h₂ h₃) : Grows h₁ h₃ :=
  ⟨h₁₂.1.trans h₂₃.1, fun q hq => (h₂₃.2 q hq).elim (h₁₂.2 q) fun hle => .inr (h₁₂.1.trans hle)⟩

theorem Grows.not_live {h h' : Heap} (hg : Grows h h') {p : Ptr} (hp : p ∉ h.live)
    (hlt : p < h.next) : p ∉ h'.live :=
  fun hq => (hg.2 p hq).elim hp fun hle => absurd hlt (not_lt.2 hle)

theorem cbFree_some_ok {h h' : Heap} {p : Ptr} (hf : cbFree h (some p) = .ok h') :
    p ∈ h.live ∧ h'.live = h.live.erase p ∧ h'.next = h.next := by
  simp only [cbFree] at hf
  split at hf
  · cases hf; exact ⟨‹_›, rfl, rfl⟩
  · cases hf

theorem cbFree_live {h h' : Heap} {o : Option Ptr} (hf : cbFree h o = .ok h') (q : Ptr) :
    q ∈ h'.live ↔ q ∈ h.live ∧ o ≠ some q := by
  cases o with
  | none => cases hf; simp
  | some p =>
    obtain ⟨-, hl, -⟩ := cbFree_some_ok hf
    rw [hl, h.nodup.mem_erase_iff]
    simp only [ne_eq, Option.some.injEq, eq_comm, and_comm]

theorem cbFree_grows {h h' : Heap} {o : Option Ptr} (hf : cbFree h o = .ok h') : Grows h h' := by
  cases o with
  | none => cases hf; exact .refl h
  | some p =>
    obtain ⟨-, hl, hn⟩ := cbFree_some_ok hf
    exact ⟨hn.ge, fun q hq => .inl (List.mem_of_mem_erase (hl ▸ hq))⟩

theorem cbFree_of_not_live {h : Heap} {p : Ptr} (hp : p ∉ h.live) :
    cbFree h (some p) = .error (.badFree p) := by
  simp [cbFree, hp]

/-- A run of `cb_free`s, as `free_settings` makes: exactly the addresses it names are released. -/
theorem foldlM_cbFree : ∀ (M : List (Option Ptr)) {h h' : Heap}, M.foldlM cbFree h = .ok h' →
    Grows h h' ∧ ∀ q, q ∈ h'.live ↔ q ∈ h.live ∧ some q ∉ M
  | [], h, h', hf => by cases hf; exact ⟨.refl h, by simp⟩
  | o :: M, h, h', hf => by
    obtain ⟨h₁, h1, hf⟩ := bind_eq_ok.1 hf
    obtain ⟨hg, hl⟩ := foldlM_cbFree M hf
    refine ⟨(cbFree_grows h1).trans hg, fun q => ?_⟩
    rw [hl, cbFree_live h1, List.mem_cons, not_or, ne_comm, and_assoc]

theorem cbStrdup_grows (h : Heap) : Grows h (cbStrdup h).1 :=
  ⟨Nat.le_succ _, fun _ hq => (List.mem_cons.1 hq).elim (fun e => .inr e.ge) .inl⟩

theorem replaceWithCopy_ok {h h' : Heap} {o o' : Option Ptr}
    (hr : replaceWithCopy o h = .ok (h', o')) :
    cbFree (cbStrdup h).1 o = .ok h' ∧ o' = some h.next := by
  obtain ⟨h₁, hf, hr⟩ := bind_eq_ok.1 hr
  cases hr
  exact ⟨hf, rfl⟩

theorem replaceWithCopy_grows {h h' : Heap} {o o' : Option Ptr}
    (hr : replaceWithCopy o h = .ok (h', o')) : Grows h h' :=
  (cbStrdup_grows h).trans (cbFree_grows (replaceWithCopy_ok hr).1)

section Owns
variable {h : Heap} {A B : List (Option Ptr)}

theorem Owns.right (hown : Owns h (A ++ B)) : Owns h B := by
  rw [Owns, List.reduceOption_append] at hown
  exact ⟨hown.1.of_append_right, fun q hq => hown.2 q (List.mem_append_right _ hq)⟩

theorem Owns.disjoint (hown : Owns h (A ++ B)) {q : Ptr} (hA : some q ∈ A) (hB : some q ∈ B) :
    False := by
  rw [Owns, List.reduceOption_append] at hown
  exact List.disjoint_of_nodup_append hown.1 (List.reduceOption_mem_iff.2 hA)
    (List.reduceOption_mem_iff.2 hB)

theorem Owns.live (hown : Owns h A) {q : Ptr} (hq : some q ∈ A) : q ∈ h.live :=
  hown.2 q (List.reduceOption_mem_iff.2 hq)

end Owns

/-- Since `h₀`, whose allocations included those of `S₀`: the heap `h` owns the strings `S`, and
every allocation it holds is one of them, or was live before and none of `S₀`. -/
structure Tracks (h₀ : Heap) (S₀ : List (Option Ptr)) (h : Heap) (S : List (Option Ptr)) :
    Prop where
  owns : Owns h S
  grows : Grows h₀ h
  held : ∀ q ∈ h.live, some q ∈ S ∨ (q ∈ h₀.live ∧ some q ∉ S₀)

section Tracks
variable {h₀ h h' : Heap} {S₀ S L M A B : List (Option Ptr)} {o o' : Option Ptr}

theorem Tracks.init (hown : Owns h S) : Tracks h S h S :=
  ⟨hown, .refl h, fun q hq => (em (some q ∈ S)).imp_right fun hn => ⟨hq, hn⟩⟩

theorem Tracks.perm (ht : Tracks h₀ S₀ h S) (hp : S.Perm L) : Tracks h₀ S₀ h L :=
  ⟨⟨(hp.filterMap id).nodup_iff.1 ht.owns.1, fun q hq =>
      ht.owns.2 q ((hp.filterMap id).mem_iff.2 hq)⟩,
    ht.grows, fun q hq => (ht.held q hq).imp_left hp.mem_iff.1⟩

theorem Tracks.freeAll (ht : Tracks h₀ S₀ h (M ++ L)) (hf : M.foldlM cbFree h = .ok h') :
    Tracks h₀ S₀ h' L := by
  obtain ⟨hg, hl⟩ := foldlM_cbFree M hf
  refine ⟨⟨ht.owns.right.1, fun q hq => (hl q).2 ⟨?_, ?_⟩⟩, ht.grows.trans hg, fun q hq => ?_⟩
  · exact ht.owns.live (List.mem_append_right _ (List.reduceOption_mem_iff.1 hq))
  · exact fun hm => ht.owns.disjoint hm (List.reduceOption_mem_iff.1 hq)
  · obtain ⟨hq, hn⟩ := (hl q).1 hq
    exact (ht.held q hq).imp_left fun hm => (List.mem_append.1 hm).resolve_left hn

theorem Tracks.free (ht : Tracks h₀ S₀ h (A ++ o :: B)) (hf : cbFree h o = .ok h') :
    Tracks h₀ S₀ h' (A ++ B) :=
  (ht.perm List.perm_middle).freeAll (M := [o]) (by rw [List.foldlM_cons, hf]; rfl)

theorem Tracks.strdup (ht : Tracks h₀ S₀ h S) : Tracks h₀ S₀ (cbStrdup h).1 (some h.next :: S) := by
  have hfresh : some h.next ∉ S := fun hm => Nat.lt_irrefl _ (h.below _ (ht.owns.live hm))
  refine ⟨⟨?_, fun q hq => ?_⟩, ht.grows.trans (cbStrdup_grows h), fun q hq => ?_⟩
  · rw [List.reduceOption_cons_of_some]
    exact List.nodup_cons.2 ⟨fun hm => hfresh (List.reduceOption_mem_iff.1 hm), ht.owns.1⟩
  · rw [List.reduceOption_cons_of_some, List.mem_cons] at hq
    exact hq.elim (fun e => e ▸ List.mem_cons_self _ _) fun hq => List.mem_cons_of_mem _ (ht.owns.2 q hq)
  · rcases List.mem_cons.1 hq with rfl | hq
    · exact .inl (List.mem_cons_self _ _)
    · exact (ht.held q hq).imp_left (List.mem_cons_of_mem _)

theorem Tracks.replace (ht : Tracks h₀ S₀ h (A ++ o :: B))
    (hr : replaceWithCopy o h = .ok (h', o')) : Tracks h₀ S₀ h' (A ++ o' :: B) := by
  obtain ⟨hf, rfl⟩ := replaceWithCopy_ok hr
  exact (((ht.perm List.perm_middle).strdup.free (A := [_]) hf).perm
    (@List.perm_middle _ _ A B).symm)

end Tracks

/-! ## What each step ends in -/

/-- What a computation of the model ends in: `ok` of its result, or `err` of its fault. -/
def Outcome {α : Type} (ok : α → Prop) (err : Fault → Prop) : Except Fault α → Prop
  | .ok a => ok a
  | .error f => err f

/-- A fault that, if it is a bad free, is one of an address satisfying `P`. -/
def BadFreeOf (P : Ptr → Prop) (f : Fault) : Prop := ∀ q, f = .badFree q → P q

section Outcome
variable {α β : Type} {ok ok' : α → Prop} {err err' : Fault → Prop} {r : Except Fault α}

theorem Outcome.bind {ok'' : β → Prop} {f : α → Except Fault β} (hr : Outcome ok err r)
    (hf : ∀ a, ok a → Outcome ok'' err (f a)) : Outcome ok'' err (r >>= f) := by
  cases r with
  | error e => exact hr
  | ok a => exact hf a hr

theorem Outcome.mono (hr : Outcome ok err r) (hok : ∀ a, ok a → ok' a)
    (herr : ∀ f, err f → err' f) : Outcome ok' err' r := by
  cases r with
  | error f => exact herr f hr
  | ok a => exact hok a hr

theorem Outcome.of_ok {a : α} (hr : Outcome ok err r) (h : r = .ok a) : ok a := by
  subst h; exact hr

theorem Outcome.of_error {f : Fault} (hr : Outcome ok err r) (h : r = .error f) : err f := by
  subst h; exact hr

theorem absentRead_outcome {P : Ptr → Prop} (x : Except AbsentRead α) :
    Outcome (fun a => x = .ok a) (BadFreeOf P) (absentRead x) := by
  cases x with
  | error a => exact fun _ h => Fault.noConfusion h
  | ok a => rfl

end Outcome

theorem cbFree_error {h : Heap} {o : Option Ptr} {f : Fault} (hf : cbFree h o = .error f) :
    ∃ q, o = some q ∧ q ∉ h.live ∧ f = .badFree q := by
  cases o with
  | none => cases hf
  | some p =>
    simp only [cbFree] at hf
    split at hf
    · cases hf
    · cases hf; exact ⟨p, rfl, ‹_›, rfl⟩

theorem cbFree_outcome (h : Heap) (o : Option Ptr) :
    Outcome (fun h' => cbFree h o = .ok h') (BadFreeOf fun q => o = some q ∧ q ∉ h.live)
      (cbFree h o) := by
  rcases hf : cbFree h o with f | h'
  · obtain ⟨q, rfl, hn, rfl⟩ := cbFree_error hf
    rintro _ ⟨⟩
    exact ⟨rfl, hn⟩
  · rfl

/-! ## The handlers, one string at a time -/

/-- What a handler that copies strings does to one running string: keeps it, or replaces it by a
copy. -/
def SlotStep (o : Option Ptr) (h h' : Heap) (o' : Option Ptr) : Prop :=
  (h' = h ∧ o' = o) ∨ replaceWithCopy o h = .ok (h', o')

/-- A string step: it ends in a `SlotStep`, or in a bad free only of its running string, when
that is not allocated. -/
def SlotOutcome (o : Option Ptr) (h : Heap) : Except Fault (Heap × Option Ptr) → Prop :=
  Outcome (fun r => SlotStep o h r.1 r.2) (BadFreeOf fun q => o = some q ∧ q ∉ h.live)

/-- `Q`, of a heap and the strings it holds, is kept by a `SlotStep` on any one of them. -/
def SlotInvariant (Q : Heap → List (Option Ptr) → Prop) : Prop :=
  ∀ {A B : List (Option Ptr)} {o o' : Option Ptr} {h h' : Heap},
    SlotStep o h h' o' → Q h (A ++ o :: B) → Q h' (A ++ o' :: B)

/-- A bad free only of an address that a state satisfying `Q` holds unallocated. -/
def DeadSlot (Q : Heap → List (Option Ptr) → Prop) : Fault → Prop :=
  BadFreeOf fun q => ∃ h A B, Q h (A ++ some q :: B) ∧ q ∉ h.live

section SlotStep
variable {h₀ h h' : Heap} {S₀ A B : List (Option Ptr)} {o o' : Option Ptr}

theorem SlotStep.grows (hs : SlotStep o h h' o') : Grows h h' := by
  rcases hs with ⟨rfl, -⟩ | hr
  exacts [.refl _, replaceWithCopy_grows hr]

theorem slotInvariant_tracks : SlotInvariant (Tracks h₀ S₀) := fun hs ht => by
  rcases hs with ⟨rfl, rfl⟩ | hr
  exacts [ht, ht.replace hr]

theorem replaceWithCopy_error {f : Fault} (hr : replaceWithCopy o h = .error f) :
    ∃ q, o = some q ∧ q ∉ h.live ∧ f = .badFree q := by
  rcases bind_eq_error.1 hr with e | ⟨_, _, e⟩
  · obtain ⟨q, rfl, hn, rfl⟩ := cbFree_error e
    exact ⟨q, rfl, fun hm => hn (.tail _ hm), rfl⟩
  · nomatch e

theorem replaceWithCopy_outcome : SlotOutcome o h (replaceWithCopy o h) := by
  rcases hr : replaceWithCopy o h with f | ⟨h', o'⟩
  · obtain ⟨q, rfl, hn, rfl⟩ := replaceWithCopy_error hr
    rintro _ ⟨⟩
    exact ⟨rfl, hn⟩
  · exact .inr hr

theorem slotOutcome_strcmp (x : Except AbsentRead Bool) :
    SlotOutcome o h (absentRead x >>= fun b => if b then replaceWithCopy o h else pure (h, o)) :=
  (absentRead_outcome x).bind fun b _ => by
    split
    · exact replaceWithCopy_outcome
    · exact .inl ⟨rfl, rfl⟩

theorem reconfigSslFile_outcome {new cur : Option String} {absentNew absentCur : AbsentRead} :
    SlotOutcome o h (reconfigSslFile new cur absentNew absentCur o h) := by
  unfold reconfigSslFile
  split
  · exact .inl ⟨rfl, rfl⟩
  · exact slotOutcome_strcmp _

theorem dynaReconfigBreakpad_outcome {new settings : Settings} :
    SlotOutcome o h (dynaReconfigBreakpad new settings o h) := by
  unfold dynaReconfigBreakpad
  split
  · exact .inl ⟨rfl, rfl⟩
  · exact slotOutcome_strcmp _

theorem SlotOutcome.lift {Q : Heap → List (Option Ptr) → Prop} (hQ : SlotInvariant Q)
    {r : Except Fault (Heap × Option Ptr)} (hs : SlotOutcome o h r) (hq : Q h (A ++ o :: B)) :
    Outcome (fun r => Q r.1 (A ++ r.2 :: B)) (DeadSlot Q) r :=
  hs.mono (fun _ hr => hQ hr hq) fun _ hf q hq' => by
    obtain ⟨rfl, hn⟩ := hf q hq'
    exact ⟨h, A, B, hq, hn⟩

end SlotStep

section Interfaces
variable {Q : Heap → List (Option Ptr) → Prop}
  {A B : List (Option Ptr)} {h : Heap}

theorem dynaReconfigIfaceSsl_outcome (hQ : SlotInvariant Q) {ii : Nat} {newIf curIf : Interface}
    {P : InterfacePtrs} (hq : Q h (A ++ P.all ++ B)) :
    Outcome (fun r => Q r.1 (A ++ r.2.all ++ B)) (DeadSlot Q)
      (dynaReconfigIfaceSsl ii newIf curIf P h) := by
  refine (reconfigSslFile_outcome.lift hQ (A := A ++ [P.host, P.key]) (B := B)
    (by simpa [InterfacePtrs.all] using hq)).bind ?_
  rintro ⟨h₁, cert⟩ hq₁
  refine (reconfigSslFile_outcome.lift hQ (A := A ++ [P.host]) (B := cert :: B)
    (by simpa using hq₁)).bind ?_
  rintro ⟨h₂, key⟩ hq₂
  show Q h₂ (A ++ InterfacePtrs.all { P with cert, key } ++ B)
  simpa [InterfacePtrs.all] using hq₂

/-- The loop of `dyna_reconfig_interfaces` keeps whatever every string step keeps, and frees
only what such a step frees. -/
theorem reconfigInterfacesFrom_outcome (hQ : SlotInvariant Q) (newIfs : List Interface) :
    ∀ (curIfs : List Interface) {ii : Nat} {ps : List InterfacePtrs} {h : Heap}
      {A B : List (Option Ptr)}, Q h (A ++ (ps.map InterfacePtrs.all).flatten ++ B) →
      Outcome (fun r => Q r.1 (A ++ (r.2.map InterfacePtrs.all).flatten ++ B)) (DeadSlot Q)
        (reconfigInterfacesFrom newIfs ii curIfs ps h)
  | [], _, _, _, _, _, hq => hq
  | _ :: _, _, [], _, _, _, hq => hq
  | _ :: curIfs, ii, P :: ps, h, A, B, hq => by
    rw [reconfigInterfacesFrom]
    split
    · exact fun _ h => Fault.noConfusion h
    · have hq' : Q h (A ++ P.all ++ ((ps.map InterfacePtrs.all).flatten ++ B)) := by
        simpa using hq
      refine Outcome.bind (?_ : Outcome (fun r => Q r.1 (A ++ r.2.all ++
          ((ps.map InterfacePtrs.all).flatten ++ B))) (DeadSlot Q) _) ?_
      · split
        · exact dynaReconfigIfaceSsl_outcome hQ hq'
        · exact hq'
      rintro ⟨h₁, P₁⟩ hq₁
      refine (reconfigInterfacesFrom_outcome hQ newIfs curIfs (A := A ++ P₁.all)
        (by simpa using hq₁)).bind ?_
      rintro ⟨h₂, ps₂⟩ hq₂
      show Q h₂ (A ++ ((P₁ :: ps₂).map InterfacePtrs.all).flatten ++ B)
      simpa using hq₂

end Interfaces

/-! ## A reload -/

/-- The strings the running settings own after a reload of `new`, in `free_settings` order: all
but the SSL cipher list and minimum protocol the file gave, which are the file's own. -/
def SettingsPtrs.kept (new : Settings) (P : SettingsPtrs) : List (Option Ptr) :=
  [P.admin] ++ (P.interfaces.map InterfacePtrs.all).flatten ++ [P.interfacesArray] ++
    (P.extensions.map fun e => [e.1, e.2]).flatten ++
    [P.extensionsArray, P.rbacFile, P.config, P.root, P.minidumpDir] ++
    (if new.has.sslCipherList then [] else [P.sslCipherList]) ++
    (if new.has.sslMinimumProtocol then [] else [P.sslMinimumProtocol]) ++
    [P.auditFile, P.saslMechanisms]

theorem SettingsPtrs.kept_eq_all {new : Settings} (P : SettingsPtrs)
    (hcipher : new.has.sslCipherList = false) (hprotocol : new.has.sslMinimumProtocol = false) :
    P.kept new = P.all := by
  simp [SettingsPtrs.kept, SettingsPtrs.all, hcipher, hprotocol]

section Reload
variable {h₀ h h' : Heap} {S₀ A B L M : List (Option Ptr)} {o newP : Option Ptr}

theorem DeadSlot.not_tracks {f : Fault} (hf : DeadSlot (Tracks h₀ S₀) f) (q : Ptr) :
    f ≠ .badFree q := fun e =>
  let ⟨_, _, _, ht, hn⟩ := hf q e
  hn (ht.owns.live (List.mem_append_right _ (List.mem_cons_self _ _)))

theorem Tracks.foldlM_cbFree_ok : ∀ {M : List (Option Ptr)} {h : Heap},
    Tracks h₀ S₀ h (M ++ L) → ∃ h', M.foldlM cbFree h = .ok h'
  | [], h, _ => ⟨h, rfl⟩
  | o :: M, h, ht => by
    obtain ⟨h₁, hf⟩ : ∃ h₁, cbFree h o = .ok h₁ := by
      rcases hc : cbFree h o with f | h₁
      · obtain ⟨q, rfl, hn, -⟩ := cbFree_error hc
        exact absurd (ht.owns.live (List.mem_cons_self _ _)) hn
      · exact ⟨h₁, rfl⟩
    obtain ⟨h', hf'⟩ := Tracks.foldlM_cbFree_ok (ht.free (A := []) hf)
    exact ⟨h', by rw [List.foldlM_cons, hf]; exact hf'⟩

theorem Tracks.freeSettings {N : SettingsPtrs} (ht : Tracks h₀ S₀ h (L ++ N.all)) :
    ∃ h', freeSettings h N = .ok h' ∧ Tracks h₀ S₀ h' L ∧ ∀ q, some q ∈ N.all → q ∉ h'.live := by
  have ht' := ht.perm List.perm_append_comm
  obtain ⟨h', hf⟩ := ht'.foldlM_cbFree_ok
  exact ⟨h', hf, ht'.freeAll hf, fun q hq hl => ((foldlM_cbFree _ hf).2 q).1 hl |>.2 hq⟩

theorem storeNewString_outcome {given : Bool} (ht : Tracks h₀ S₀ h (A ++ o :: B)) :
    Outcome (fun r => Tracks h₀ S₀ r.1 (A ++ (if given then [] else [r.2]) ++ B) ∧
        (given = true → r.2 = newP)) (DeadSlot (Tracks h₀ S₀)) (storeNewString given newP o h) := by
  cases given
  · exact And.intro (by simpa using ht) nofun
  · refine ((cbFree_outcome h o).bind ?_).mono (fun _ => id) fun _ hf q hq => ?_
    · exact fun h₁ hf => And.intro (by simpa using ht.free hf) fun _ => rfl
    · obtain ⟨rfl, hn⟩ := hf q hq
      exact ⟨h, A, B, ht, hn⟩

variable {host : Host} {new settings : Settings} {N R R' : SettingsPtrs}

/-- The reconfiguration keeps every string of the running settings owned, except the SSL strings
it takes from the file, and frees nothing it does not own. -/
theorem reconfigAll_outcome (ht : Tracks h₀ S₀ h (R.all ++ N.all)) :
    Outcome (fun r => Tracks h₀ S₀ r.1 (r.2.kept new ++ N.all) ∧
        (new.has.sslCipherList = true → r.2.sslCipherList = N.sslCipherList) ∧
        (new.has.sslMinimumProtocol = true → r.2.sslMinimumProtocol = N.sslMinimumProtocol))
      (DeadSlot (Tracks h₀ S₀)) (reconfigAll new settings N R h) := by
  unfold reconfigAll
  refine (reconfigInterfacesFrom_outcome slotInvariant_tracks new.interfaces
    settings.interfaces (A := [R.admin])
    (B := R.interfacesArray :: (R.extensions.map fun e => [e.1, e.2]).flatten ++
      [R.extensionsArray, R.rbacFile, R.config, R.root, R.minidumpDir, R.sslCipherList,
        R.sslMinimumProtocol, R.auditFile, R.saslMechanisms] ++ N.all)
    (by simpa [SettingsPtrs.all] using ht)).bind ?_
  rintro ⟨h₁, ifs⟩ t₁
  refine (storeNewString_outcome
    (A := [R.admin] ++ (ifs.map InterfacePtrs.all).flatten ++ R.interfacesArray ::
      (R.extensions.map fun e => [e.1, e.2]).flatten ++
      [R.extensionsArray, R.rbacFile, R.config, R.root, R.minidumpDir])
    (B := R.sslMinimumProtocol :: R.auditFile :: R.saslMechanisms :: N.all)
    (by simpa using t₁)).bind ?_
  rintro ⟨h₂, cipher⟩ ⟨t₂, hcipher⟩
  refine (storeNewString_outcome
    (A := [R.admin] ++ (ifs.map InterfacePtrs.all).flatten ++ R.interfacesArray ::
      (R.extensions.map fun e => [e.1, e.2]).flatten ++
      [R.extensionsArray, R.rbacFile, R.config, R.root, R.minidumpDir] ++
      (if new.has.sslCipherList then [] else [cipher]))
    (B := R.auditFile :: R.saslMechanisms :: N.all) (by simpa using t₂)).bind ?_
  rintro ⟨h₃, protocol⟩ ⟨t₃, hprotocol⟩
  refine (dynaReconfigBreakpad_outcome.lift slotInvariant_tracks
    (A := [R.admin] ++ (ifs.map InterfacePtrs.all).flatten ++ R.interfacesArray ::
      (R.extensions.map fun e => [e.1, e.2]).flatten ++
      [R.extensionsArray, R.rbacFile, R.config, R.root])
    (B := (if new.has.sslCipherList then [] else [cipher]) ++
      (if new.has.sslMinimumProtocol then [] else [protocol]) ++
      R.auditFile :: R.saslMechanisms :: N.all) (by simpa using t₃)).bind ?_
  rintro ⟨h₄, dir⟩ t₄
  exact And.intro (by simpa [SettingsPtrs.kept] using t₄) ⟨hcipher, hprotocol⟩

/-- A reload from a state that owns the running and the new strings: a valid file leaves the
strings the running settings keep owned, an invalid one all of them, and no reload frees memory
that is not allocated. -/
theorem reloadConfigFile_outcome (ht : Tracks h₀ S₀ h (R.all ++ N.all)) :
    Outcome (fun r => Tracks h₀ S₀ r.1 (r.2.kept new) ∨ Tracks h₀ S₀ r.1 r.2.all)
      (DeadSlot (Tracks h₀ S₀)) (reloadConfigFile host new settings N R h) := by
  unfold reloadConfigFile
  refine (absentRead_outcome _).bind ?_
  rintro ⟨valid, _⟩ -
  refine Outcome.bind (?_ : Outcome (fun r : Heap × SettingsPtrs =>
    Tracks h₀ S₀ r.1 (r.2.kept new ++ N.all) ∨
    Tracks h₀ S₀ r.1 (r.2.all ++ N.all)) (DeadSlot (Tracks h₀ S₀)) _) ?_
  · split
    · exact (reconfigAll_outcome ht).mono (fun _ h => .inl h.1) fun _ => id
    · exact .inr ht
  rintro ⟨h₁, R₁⟩ (t | t) <;> obtain ⟨h', hf, t', -⟩ := t.freeSettings <;>
    show Outcome _ _ (freeSettings h₁ N >>= _) <;> rw [hf]
  exacts [Or.inl t', Or.inr t']

theorem reloadConfigFile_valid_eq {errors : List String}
    (hvalid : ConfigReload.validateAll host new settings ConfigReload.handlers = .ok (true, errors)) :
    reloadConfigFile host new settings N R h =
      (reconfigAll new settings N R h >>= fun (h, R) => do pure (← freeSettings h N, R)) := by
  rw [reloadConfigFile, absentRead, hvalid]
  rfl

theorem reloadConfigFile_valid_ok {errors : List String}
    (hvalid : ConfigReload.validateAll host new settings ConfigReload.handlers = .ok (true, errors))
    (hr : reloadConfigFile host new settings N R h = .ok (h', R')) :
    ∃ h₁, reconfigAll new settings N R h = .ok (h₁, R') ∧ freeSettings h₁ N = .ok h' := by
  rw [reloadConfigFile_valid_eq hvalid] at hr
  obtain ⟨⟨h₁, R₁⟩, h1, hr⟩ := bind_eq_ok.1 hr
  obtain ⟨h₂, h2, hr⟩ := bind_eq_ok.1 hr
  cases hr
  exact ⟨h₁, h1, h2⟩

/-- A valid reload that finishes leaves every string the running settings keep allocated, and
nothing else it allocated; it releases every string of the file's settings, among them the SSL
cipher list and minimum protocol that the running settings now hold. -/
theorem reloadConfigFile_owns_kept {errors : List String} (hown : Owns h (R.all ++ N.all))
    (hvalid : ConfigReload.validateAll host new settings ConfigReload.handlers = .ok (true, errors))
    (hr : reloadConfigFile host new settings N R h = .ok (h', R')) :
    Tracks h (R.all ++ N.all) h' (R'.kept new) ∧ (∀ q, some q ∈ N.all → q ∉ h'.live) ∧
      (new.has.sslCipherList = true → R'.sslCipherList = N.sslCipherList) ∧
      (new.has.sslMinimumProtocol = true → R'.sslMinimumProtocol = N.sslMinimumProtocol) := by
  obtain ⟨h₁, h1, hf⟩ := reloadConfigFile_valid_ok hvalid hr
  obtain ⟨t, hcipher, hprotocol⟩ := (reconfigAll_outcome (Tracks.init hown)).of_ok h1
  obtain ⟨h'', hf', t', hdead⟩ := t.freeSettings
  obtain rfl : h'' = h' := Except.ok.inj (hf'.symm.trans hf)
  exact ⟨t', hdead, hcipher, hprotocol⟩

/-- The next reload that gives an SSL cipher list frees the one the last reload stored again,
whatever the parse in between allocated: the strings step of its interfaces leaves the address
released, and `dyna_reconfig_ssl_cipher_list` hands it to `cb_free`. This relies on the model's
allocator never handing out a released address again (`Heap.next` only grows): a real
`cb_strdup` may reuse that memory, and the second `cb_free` then releases whatever lives there. -/
theorem reload_frees_cipher_list_twice {new₂ settings₂ : Settings} {N₂ : SettingsPtrs}
    {h₂ h₃ : Heap} {errors errors₂ : List String} {p : Ptr} {ifs : List InterfacePtrs}
    (hown : Owns h (R.all ++ N.all))
    (hvalid : ConfigReload.validateAll host new settings ConfigReload.handlers = .ok (true, errors))
    (hr : reloadConfigFile host new settings N R h = .ok (h', R'))
    (hgiven : new.has.sslCipherList = true) (hp : N.sslCipherList = some p) (hg : Grows h' h₂)
    (hvalid₂ : ConfigReload.validateAll host new₂ settings₂ ConfigReload.handlers =
      .ok (true, errors₂))
    (hgiven₂ : new₂.has.sslCipherList = true)
    (hifs : reconfigInterfacesFrom new₂.interfaces 0 settings₂.interfaces R'.interfaces h₂ =
      .ok (h₃, ifs)) :
    R'.sslCipherList = some p ∧ p ∉ h'.live ∧
      reloadConfigFile host new₂ settings₂ N₂ R' h₂ = .error (.badFree p) := by
  obtain ⟨h₁, h1, hf⟩ := reloadConfigFile_valid_ok hvalid hr
  obtain ⟨t, hcipher, -⟩ := (reconfigAll_outcome (Tracks.init hown)).of_ok h1
  obtain ⟨hg₁, hl⟩ := foldlM_cbFree _ hf
  have hpN : some p ∈ N.all := hp ▸ by simp [SettingsPtrs.all]
  have hdead : p ∉ h'.live := fun hl' => ((hl p).1 hl').2 hpN
  have hlt : p < h'.next :=
    (h.below p (hown.live (List.mem_append_right _ hpN))).trans_le (t.grows.1.trans hg₁.1)
  have hdead₃ : p ∉ h₃.live :=
    (hg.trans ((reconfigInterfacesFrom_outcome (Q := fun h _ => Grows h₂ h)
      (fun hs hg => hg.trans hs.grows) _ _ (A := []) (B := []) (.refl h₂)).of_ok hifs)).not_live
      hdead hlt
  have hR' : R'.sslCipherList = some p := (hcipher hgiven).trans hp
  have hre : reconfigAll new₂ settings₂ N₂ R' h₂ = .error (.badFree p) := by
    rw [reconfigAll, hifs]
    show dynaReconfigSslCipherList new₂ N₂.sslCipherList R'.sslCipherList h₃ >>= _ = _
    rw [dynaReconfigSslCipherList, storeNewString, if_pos hgiven₂, hR', cbFree_of_not_live hdead₃]
    rfl
  rw [reloadConfigFile_valid_eq hvalid₂, hre]
  exact ⟨hR', hdead, rfl⟩

end Reload

/-! ## Where the values finish, the strings do

The strings model reads an absent value exactly where the value model does, since both call the
same `strcmpNe`; so a reload the value model finishes, from a heap that owns the strings, finishes
on the strings too. -/

section Finishes
variable {h : Heap} {o : Option Ptr} {a : AbsentRead}

theorem absentRead_error {α : Type} {x : Except AbsentRead α} (hr : absentRead x = .error (.absent a)) :
    x = .error a := by
  cases x with
  | error e => cases hr; rfl
  | ok _ => cases hr

theorem strcmp_absent {x : Except AbsentRead Bool}
    (hr : (absentRead x >>= fun b => if b then replaceWithCopy o h else pure (h, o)) =
      .error (.absent a)) : x = .error a := by
  rcases bind_eq_error.1 hr with e | ⟨b, -, e⟩
  · exact absentRead_error e
  · split at e
    · obtain ⟨_, -, -, e⟩ := replaceWithCopy_error e
      cases e
    · cases e

theorem reconfigSslFile_absent {new cur : Option String} {absentNew absentCur : AbsentRead}
    (hr : reconfigSslFile new cur absentNew absentCur o h = .error (.absent a)) :
    cur.isSome = true ∧ new = none := by
  unfold reconfigSslFile at hr
  split at hr
  · cases hr
  · have hs := strcmp_absent hr
    cases new
    · exact ⟨rfl, rfl⟩
    · cases hs

theorem dynaReconfigIfaceSsl_absent {ii : Nat} {newIf curIf : Interface} {P : InterfacePtrs}
    (hr : dynaReconfigIfaceSsl ii newIf curIf P h = .error (.absent a)) :
    curIf.ssl.cert.isSome = true ∧ newIf.ssl.cert = none ∨
      curIf.ssl.key.isSome = true ∧ newIf.ssl.key = none := by
  rcases bind_eq_error.1 hr with e | ⟨⟨h₁, cert⟩, -, e⟩
  · exact .inl (reconfigSslFile_absent e)
  rcases bind_eq_error.1 e with e | ⟨⟨h₂, key⟩, -, e⟩
  · exact .inr (reconfigSslFile_absent e)
  · cases e

theorem reconfigInterfacesFrom_absent (newIfs : List Interface) :
    ∀ (curIfs : List Interface) {ii : Nat} {ps : List InterfacePtrs} {h : Heap},
      reconfigInterfacesFrom newIfs ii curIfs ps h = .error (.absent a) →
      ∃ j c, curIfs[j]? = some c ∧ ConfigReload.ReadsAbsent newIfs (ii + j) c
  | [], _, _, _, hr => by cases hr
  | _ :: _, _, [], _, hr => by cases hr
  | c :: curIfs, ii, P :: ps, h, hr => by
    rw [reconfigInterfacesFrom] at hr
    cases hn : newIfs[ii]? with
    | none => exact ⟨0, c, List.getElem?_cons_zero, by simp [ConfigReload.ReadsAbsent, hn]⟩
    | some newIf =>
      rw [hn] at hr
      rcases bind_eq_error.1 hr with e | ⟨⟨h₁, P₁⟩, -, e⟩
      · split at e
        · exact ⟨0, c, List.getElem?_cons_zero, by
            simpa [ConfigReload.ReadsAbsent, ConfigReload.SslDropped, hn, *] using
              dynaReconfigIfaceSsl_absent e⟩
        · cases e
      rcases bind_eq_error.1 e with e | ⟨_, -, e⟩
      · obtain ⟨j, c', hc, hra⟩ := reconfigInterfacesFrom_absent newIfs curIfs e
        exact ⟨j + 1, c', by rwa [List.getElem?_cons_succ],
          by rwa [Nat.add_right_comm, Nat.add_assoc] at hra⟩
      · cases e

theorem storeNewString_not_absent {given : Bool} {newP : Option Ptr} {h : Heap}
    (hr : storeNewString given newP o h = .error (.absent a)) : False := by
  cases given
  · cases hr
  · rcases bind_eq_error.1 hr with e | ⟨_, -, e⟩
    · obtain ⟨_, -, -, e⟩ := cbFree_error e
      cases e
    · cases e

theorem dynaReconfigBreakpad_absent {new settings : Settings}
    (hr : dynaReconfigBreakpad new settings o h = .error (.absent a)) :
    new.has.breakpad = true ∧ strcmpNe new.breakpad.minidumpDir (.newString .breakpadMinidumpDir)
      settings.breakpad.minidumpDir (.runningString .breakpadMinidumpDir) = .error a := by
  unfold dynaReconfigBreakpad at hr
  split at hr
  · cases hr
  · exact ⟨by simpa using ‹¬(!new.has.breakpad) = true›, strcmp_absent hr⟩

theorem foldlM_cbFree_not_absent : ∀ {M : List (Option Ptr)} {h : Heap},
    M.foldlM cbFree h ≠ .error (.absent a)
  | [], _, hr => by cases hr
  | o :: M, h, hr => by
    rcases bind_eq_error.1 hr with e | ⟨_, -, e⟩
    · obtain ⟨_, -, -, e⟩ := cbFree_error e
      cases e
    · exact foldlM_cbFree_not_absent e

variable {host : Host} {new settings : Settings} {N R : SettingsPtrs}

/-- A reload reads an absent value only where the value model's reload does: in a validator, in
the interfaces loop, or in the `strcmp` of the `minidump_dir`s. -/
theorem reloadConfigFile_absent (hr : reloadConfigFile host new settings N R h = .error (.absent a)) :
    ConfigReload.validateAll host new settings ConfigReload.handlers = .error a ∨
      ∃ errors, ConfigReload.validateAll host new settings ConfigReload.handlers =
        .ok (true, errors) ∧
        ((∃ j c, settings.interfaces[j]? = some c ∧ ConfigReload.ReadsAbsent new.interfaces j c) ∨
          new.has.breakpad = true ∧ strcmpNe new.breakpad.minidumpDir
            (.newString .breakpadMinidumpDir) settings.breakpad.minidumpDir
            (.runningString .breakpadMinidumpDir) = .error a) := by
  rcases bind_eq_error.1 hr with e | ⟨⟨valid, errors⟩, hv, e⟩
  · exact .inl (absentRead_error e)
  rcases bind_eq_error.1 e with e | ⟨⟨h₁, R₁⟩, -, e⟩
  · cases valid
    · cases e
    refine .inr ⟨errors, ?_, ?_⟩
    · cases hx : ConfigReload.validateAll host new settings ConfigReload.handlers <;>
        rw [absentRead, hx] at hv <;> cases hv
      rfl
    rcases bind_eq_error.1 e with e | ⟨⟨_, ifs⟩, -, e⟩
    · exact .inl (by simpa using reconfigInterfacesFrom_absent _ _ e)
    rcases bind_eq_error.1 e with e | ⟨⟨_, _⟩, -, e⟩
    · exact (storeNewString_not_absent e).elim
    rcases bind_eq_error.1 e with e | ⟨⟨_, _⟩, -, e⟩
    · exact (storeNewString_not_absent e).elim
    rcases bind_eq_error.1 e with e | ⟨_, -, e⟩
    · exact .inr (dynaReconfigBreakpad_absent e)
    · cases e
  · rcases bind_eq_error.1 e with e | ⟨_, -, e⟩
    · exact (foldlM_cbFree_not_absent e).elim
    · cases e

/-- A reload that finishes on the settings values finishes on their strings too, from a heap that
owns the running and the new strings: neither an absent read nor a bad free stops it. -/
theorem reloadConfigFile_finishes {configFile : String} {sys : List (String × Json)}
    {s' : Settings} {msgs : List String} (hown : Owns h (R.all ++ N.all))
    (hnew : ConfigReload.parseJSONConfig host sys {} = .ok new)
    (hv : ConfigReload.reloadConfigFile host configFile (.ok sys) settings = .ok (s', msgs)) :
    ∃ h' R', reloadConfigFile host new settings N R h = .ok (h', R') := by
  rcases hr : reloadConfigFile host new settings N R h with f | ⟨h', R'⟩
  · exfalso
    cases f with
    | badFree q => exact ((reloadConfigFile_outcome (Tracks.init hown)).of_error hr).not_tracks q rfl
    | absent a =>
      rcases reloadConfigFile_absent hr with hval | ⟨errors, hval, hreads⟩
      · simp [ConfigReload.reloadConfigFile, ConfigReload.parseConfigFile, hnew, hval, bind,
          Except.bind] at hv
      rw [ConfigReload.reloadConfigFile_of_valid hnew hval] at hv
      obtain ⟨s₁, hs₁, -⟩ := bind_eq_ok.1 hv
      obtain ⟨-, ⟨ifs, hifs⟩, hbreakpad⟩ := ConfigValidate.reconfigAll_handlers_ok hs₁
      rcases hreads with hloop | ⟨hb, hs⟩
      · obtain ⟨e, he⟩ := (ConfigReload.reconfigInterfacesFrom_error _ 0 _).2 (by simpa using hloop)
        rw [hifs] at he
        cases he
      · obtain ⟨b, hb'⟩ := hbreakpad hb
        rw [hb'] at hs
        cases hs
  · exact ⟨h', R', rfl⟩

end Finishes

/-! ## Runs of reloads -/

/-- The parse of a file into `N` between `h` and `h₂`: it allocates exactly `N`'s strings, each a
fresh address. -/
def Parsed (h h₂ : Heap) (N : SettingsPtrs) : Prop :=
  h.next ≤ h₂.next ∧ h₂.live = N.all.reduceOption ++ h.live ∧ ∀ q ∈ N.all.reduceOption, h.next ≤ q

instance (h h₂ : Heap) (N : SettingsPtrs) : Decidable (Parsed h h₂ N) :=
  inferInstanceAs (Decidable (_ ∧ _))

theorem Tracks.parsed {h₀ h h₂ : Heap} {S₀ S : List (Option Ptr)} {N : SettingsPtrs}
    (ht : Tracks h₀ S₀ h S) (hp : Parsed h h₂ N) : Tracks h₀ S₀ h₂ (S ++ N.all) := by
  obtain ⟨hnext, hlive, hfresh⟩ := hp
  have hold : ∀ q ∈ S.reduceOption, q < h.next := fun q hq => h.below q (ht.owns.2 q hq)
  refine ⟨⟨?_, fun q hq => ?_⟩, ht.grows.trans ⟨hnext, fun q hq => ?_⟩, fun q hq => ?_⟩
  · rw [List.reduceOption_append]
    refine List.nodup_append.2 ⟨ht.owns.1, (hlive ▸ h₂.nodup).of_append_left, fun q hS hN => ?_⟩
    exact absurd (hold q hS) (not_lt.2 (hfresh q hN))
  · rw [List.reduceOption_append, List.mem_append] at hq
    rw [hlive, List.mem_append]
    exact hq.imp_left (ht.owns.2 q) |>.symm
  · rw [hlive, List.mem_append] at hq
    exact hq.symm.imp_right (hfresh q)
  · rw [hlive, List.mem_append] at hq
    rcases hq with hN | hq
    · exact .inl (List.mem_append_right _ (List.reduceOption_mem_iff.1 hN))
    · exact (ht.held q hq).imp_left (List.mem_append_left _)

/-- Reloads one after another from the heap `h₀` and the running strings `R₀`: each file is
parsed into fresh strings and reloaded, and none gives `ssl_cipher_list` or
`ssl_minimum_protocol`. -/
inductive Reloads (host : Host) (h₀ : Heap) (R₀ : SettingsPtrs) : Heap → SettingsPtrs → Prop
  | start : Reloads host h₀ R₀ h₀ R₀
  | reload {h h₂ h' : Heap} {R N R' : SettingsPtrs} {new settings : Settings}
      (run : Reloads host h₀ R₀ h R) (hparse : Parsed h h₂ N)
      (hcipher : new.has.sslCipherList = false) (hprotocol : new.has.sslMinimumProtocol = false)
      (h : reloadConfigFile host new settings N R h₂ = .ok (h', R')) : Reloads host h₀ R₀ h' R'

/-- Over every run of reloads whose files leave the SSL cipher list and minimum protocol alone,
the running settings own all their strings, each once, and every allocation the run made is one
of them: nothing leaks and nothing dangles. The next reload, whatever its file, frees no memory
that is not allocated. -/
theorem reloads_own_strings {host : Host} {h₀ h : Heap} {R₀ R : SettingsPtrs}
    (hown : Owns h₀ R₀.all) (run : Reloads host h₀ R₀ h R) :
    Tracks h₀ R₀.all h R.all ∧ ∀ {new settings : Settings} {N : SettingsPtrs} {h₂ : Heap} (q : Ptr),
      Parsed h h₂ N → reloadConfigFile host new settings N R h₂ ≠ .error (.badFree q) := by
  have ht : Tracks h₀ R₀.all h R.all := by
    induction run with
    | start => exact .init hown
    | reload _ hparse hcipher hprotocol hr ih =>
      rcases (reloadConfigFile_outcome (ih.parsed hparse)).of_ok hr with t | t
      · rwa [SettingsPtrs.kept_eq_all _ hcipher hprotocol] at t
      · exact t
  exact ⟨ht, fun q hparse hr => ((reloadConfigFile_outcome (ht.parsed hparse)).of_error hr).not_tracks q rfl⟩

/-- The strings of `sslSettings`: the interface's host, key and certificate, and the array. -/
def sslPtrs : SettingsPtrs := { interfaces := [⟨some 0, some 1, some 2⟩], interfacesArray := some 3 }

/-- The strings of `tunedSettings`, as its parse allocates them. -/
def tunedPtrs : SettingsPtrs :=
  { interfaces := [⟨some 4, some 5, some 6⟩], interfacesArray := some 7, sslCipherList := some 8 }

def tunedHeap : Heap := ⟨List.range 9, 9, List.nodup_range 9, fun _ => List.mem_range.1⟩

/-- After the reload: the file's strings are released, and the cipher list is the file's. -/
def tunedReloadedHeap : Heap := ⟨[0, 1, 2, 3], 9, by decide, by decide⟩

def tunedReloadedPtrs : SettingsPtrs := { sslPtrs with sslCipherList := some 8 }

theorem reloadConfigFile_owns_kept_tuned :
    Owns tunedHeap (sslPtrs.all ++ tunedPtrs.all) ∧
      ConfigReload.validateAll exampleHost tunedSettings sslSettings ConfigReload.handlers =
        .ok (true, []) ∧
      reloadConfigFile exampleHost tunedSettings sslSettings tunedPtrs sslPtrs tunedHeap =
        .ok (tunedReloadedHeap, tunedReloadedPtrs) ∧
      (Tracks tunedHeap (sslPtrs.all ++ tunedPtrs.all) tunedReloadedHeap
          (tunedReloadedPtrs.kept tunedSettings) ∧
        (∀ q, some q ∈ tunedPtrs.all → q ∉ tunedReloadedHeap.live) ∧
        (tunedSettings.has.sslCipherList = true →
          tunedReloadedPtrs.sslCipherList = tunedPtrs.sslCipherList) ∧
        (tunedSettings.has.sslMinimumProtocol = true →
          tunedReloadedPtrs.sslMinimumProtocol = tunedPtrs.sslMinimumProtocol)) :=
  have hown : Owns tunedHeap (sslPtrs.all ++ tunedPtrs.all) := by decide
  have hvalid : ConfigReload.validateAll exampleHost tunedSettings sslSettings
      ConfigReload.handlers = .ok (true, []) := rfl
  have hr : reloadConfigFile exampleHost tunedSettings sslSettings tunedPtrs sslPtrs tunedHeap =
      .ok (tunedReloadedHeap, tunedReloadedPtrs) := rfl
  ⟨hown, hvalid, hr, reloadConfigFile_owns_kept hown hvalid hr⟩

theorem reloadConfigFile_finishes_tuned :
    Owns tunedHeap (sslPtrs.all ++ tunedPtrs.all) ∧
      ConfigReload.parseJSONConfig exampleHost tunedConfig {} = .ok tunedSettings ∧
      ConfigReload.reloadConfigFile exampleHost "memcached.json" (.ok tunedConfig) sslSettings =
        .ok (tunedRunning, []) ∧
      ∃ h' R', reloadConfigFile exampleHost tunedSettings sslSettings tunedPtrs sslPtrs tunedHeap =
        .ok (h', R') :=
  have hown : Owns tunedHeap (sslPtrs.all ++ tunedPtrs.all) := by decide
  have hnew : ConfigReload.parseJSONConfig exampleHost tunedConfig {} = .ok tunedSettings := rfl
  have hv : ConfigReload.reloadConfigFile exampleHost "memcached.json" (.ok tunedConfig)
      sslSettings = .ok (tunedRunning, []) := rfl
  ⟨hown, hnew, hv, reloadConfigFile_finishes hown hnew hv⟩

/-- The same file parsed again, and the heap once it has: its strings are fresh. -/
def retunedPtrs : SettingsPtrs :=
  { interfaces := [⟨some 9, some 10, some 11⟩], interfacesArray := some 12, sslCipherList := some 13 }

def retunedHeap : Heap := ⟨[9, 10, 11, 12, 13, 0, 1, 2, 3], 14, by decide, by decide⟩

theorem reload_frees_cipher_list_twice_tuned :
    Owns tunedHeap (sslPtrs.all ++ tunedPtrs.all) ∧
      ConfigReload.validateAll exampleHost tunedSettings sslSettings ConfigReload.handlers =
        .ok (true, []) ∧
      reloadConfigFile exampleHost tunedSettings sslSettings tunedPtrs sslPtrs tunedHeap =
        .ok (tunedReloadedHeap, tunedReloadedPtrs) ∧
      tunedSettings.has.sslCipherList = true ∧ tunedPtrs.sslCipherList = some 8 ∧
      Grows tunedReloadedHeap retunedHeap ∧
      ConfigReload.validateAll exampleHost tunedSettings tunedRunning ConfigReload.handlers =
        .ok (true, []) ∧
      reconfigInterfacesFrom tunedSettings.interfaces 0 tunedRunning.interfaces
        tunedReloadedPtrs.interfaces retunedHeap = .ok (retunedHeap, tunedReloadedPtrs.interfaces) ∧
      (tunedReloadedPtrs.sslCipherList = some 8 ∧ 8 ∉ tunedReloadedHeap.live ∧
        reloadConfigFile exampleHost tunedSettings tunedRunning retunedPtrs tunedReloadedPtrs
          retunedHeap = .error (.badFree 8)) :=
  have hown : Owns tunedHeap (sslPtrs.all ++ tunedPtrs.all) := by decide
  have hvalid : ConfigReload.validateAll exampleHost tunedSettings sslSettings
      ConfigReload.handlers = .ok (true, []) := rfl
  have hr : reloadConfigFile exampleHost tunedSettings sslSettings tunedPtrs sslPtrs tunedHeap =
      .ok (tunedReloadedHeap, tunedReloadedPtrs) := rfl
  have hgiven : tunedSettings.has.sslCipherList = true := rfl
  have hp : tunedPtrs.sslCipherList = some 8 := rfl
  have hg : Grows tunedReloadedHeap retunedHeap := by decide
  have hvalid₂ : ConfigReload.validateAll exampleHost tunedSettings tunedRunning
      ConfigReload.handlers = .ok (true, []) := rfl
  have hifs : reconfigInterfacesFrom tunedSettings.interfaces 0 tunedRunning.interfaces
      tunedReloadedPtrs.interfaces retunedHeap = .ok (retunedHeap, tunedReloadedPtrs.interfaces) :=
    rfl
  ⟨hown, hvalid, hr, hgiven, hp, hg, hvalid₂, hifs,
    reload_frees_cipher_list_twice hown hvalid hr hgiven hp hg hvalid₂ hgiven hifs⟩

/-- The heap holding `sslSettings`' strings, the same file parsed again, and the heap after its
reload. -/
def sslHeap : Heap := ⟨[0, 1, 2, 3], 4, by decide, by decide⟩

def sslParsedPtrs : SettingsPtrs :=
  { interfaces := [⟨some 4, some 5, some 6⟩], interfacesArray := some 7 }

def sslParsedHeap : Heap := ⟨[4, 5, 6, 7, 0, 1, 2, 3], 8, by decide, by decide⟩

def sslReloadedHeap : Heap := ⟨[0, 1, 2, 3], 8, by decide, by decide⟩

theorem reloads_own_strings_sslConfig :
    Owns sslHeap sslPtrs.all ∧ Reloads exampleHost sslHeap sslPtrs sslReloadedHeap sslPtrs ∧
      (Tracks sslHeap sslPtrs.all sslReloadedHeap sslPtrs.all ∧
        ∀ {new settings : Settings} {N : SettingsPtrs} {h₂ : Heap} (q : Ptr),
          Parsed sslReloadedHeap h₂ N →
            reloadConfigFile exampleHost new settings N sslPtrs h₂ ≠ .error (.badFree q)) :=
  have hown : Owns sslHeap sslPtrs.all := by decide
  have run : Reloads exampleHost sslHeap sslPtrs sslReloadedHeap sslPtrs :=
    @Reloads.reload exampleHost sslHeap sslPtrs sslHeap sslParsedHeap sslReloadedHeap sslPtrs
      sslParsedPtrs sslPtrs sslSettings sslSettings .start (by decide) rfl rfl rfl
  ⟨hown, run, reloads_own_strings hown run⟩

end Memcached.ConfigMemory
