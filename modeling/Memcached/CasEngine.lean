import Memcached.ExecutorRuns
import Mathlib.Data.List.Chain

set_option autoImplicit false

/-!
# A CAS-enforcing engine with other writers

One key. Its versions, oldest first, make the history; the last is current. Before each
`get`, `allocate` and `store` of the command, the other writers of the key apply the writes of
the next `Decision`; the call then takes effect, or returns the decision's error with no
effect. A successful `get` hands out a snapshot of the current version. `store` is
`OPERATION_REPLACE`: an item whose CAS is non-zero is stored only when its CAS is the current
version's, as a new version with the decision's CAS. A ghost timeline marks the other
writers' writes and the command's `get`s and `store`s.

Every other connection's command reaches the key only through its own `store`s, which this
command sees as writes of other writers: a statement over every script of decisions covers
every interleaving of commands and writers.
-/

namespace Memcached.CasEngine
open Memcached.Protocol Memcached.SubdocExecutor Memcached.ExecutorRuns

structure Version where
  datatype : UInt8
  value : Bytes
  cas : UInt64
  deriving DecidableEq, Repr

/-- What `get_item_info` reports of an item holding version `v`. -/
def Version.info (v : Version) : ItemInfo := ⟨v.cas, v.datatype, [v.value]⟩

/-- An item handed out by the engine: a `get`'s snapshot of the version at an index of the
history, or an `allocate`d item, which the executor fills. -/
inductive CasItem
  | snapshot (version : Nat)
  | fresh (datatype : UInt8) (value : Bytes) (cas : UInt64)
  deriving DecidableEq, Repr

/-- The other writers' writes before one engine call, and the call's result: `success`
lets it take effect, any other code is returned with no effect. `cas` is the CAS a
successful store is given. -/
structure Decision where
  writes : List Version
  result : EngineErrorCode
  cas : UInt64
  deriving DecidableEq, Repr

inductive Mark
  | foreignWrite
  | get
  | store (ret : EngineErrorCode)
  deriving DecidableEq, Repr

structure CasStore where
  history : List Version
  items : List CasItem
  script : List Decision
  trace : List Mark
  deriving DecidableEq, Repr

/-- The next decision, with its writes applied. With no decision left there are no more
writes, and every call takes effect. -/
def CasStore.next (s : CasStore) : Decision × CasStore :=
  match s.script with
  | [] => (⟨[], .success, 0⟩, s)
  | d :: script =>
    (d, { s with history := s.history ++ d.writes, script,
                 trace := s.trace ++ List.replicate d.writes.length .foreignWrite })

/-- `memcpy` of `bytes` into `value` at `offset`. -/
def writeAt (value : Bytes) (offset : Nat) (bytes : Bytes) : Bytes :=
  value.take offset ++ bytes ++ value.drop (offset + bytes.length)

def setFreshCas (cas : UInt64) : CasItem → CasItem
  | .fresh datatype value _ => .fresh datatype value cas
  | it => it

def writeFresh (offset : Nat) (bytes : Bytes) : CasItem → CasItem
  | .fresh datatype value cas => .fresh datatype (writeAt value offset bytes) cas
  | it => it

def casGet (s : CasStore) : CasStore × EngineErrorCode × ItemRef :=
  let d := s.next.1
  let s := s.next.2
  if d.result ≠ .success then (s, d.result, 0)
  else if s.history = [] then (s, .keyEnoent, 0)
  else ({ s with items := s.items ++ [.snapshot (s.history.length - 1)], trace := s.trace ++ [.get] },
    .success, s.items.length)

def casItemInfo (s : CasStore) (it : ItemRef) : Option ItemInfo :=
  match s.items[it]? with
  | some (.snapshot i) => s.history[i]?.map Version.info
  | some (.fresh datatype value cas) => some ⟨cas, datatype, [value]⟩
  | none => none

def casAllocate (s : CasStore) (nbytes : Nat) (datatype : UInt8) :
    CasStore × EngineErrorCode × ItemRef :=
  let d := s.next.1
  let s := s.next.2
  if d.result ≠ .success then (s, d.result, 0)
  else ({ s with items := s.items ++ [.fresh datatype (List.replicate nbytes 0) 0] }, .success,
    s.items.length)

/-- `OPERATION_REPLACE` of item `it`, the new version getting `newCas`. -/
def casReplace (s : CasStore) (it : ItemRef) (newCas : UInt64) :
    CasStore × EngineErrorCode × UInt64 :=
  match s.items[it]?, s.history.getLast? with
  | some (.fresh datatype value cas), some cur =>
    if cas ≠ 0 ∧ cas ≠ cur.cas then (s, .keyEexists, 0)
    else ({ s with history := s.history ++ [⟨datatype, value, newCas⟩] }, .success, newCas)
  | some (.fresh ..), none => (s, .keyEnoent, 0)
  | _, _ => (s, .einval, 0)

def casStore (s : CasStore) (it : ItemRef) : CasStore × EngineErrorCode × UInt64 :=
  let d := s.next.1
  let r := if d.result ≠ .success then (s.next.2, d.result, 0) else casReplace s.next.2 it d.cas
  ({ r.1 with trace := r.1.trace ++ [.store r.2.1] }, r.2)

def casEngine : Engine CasStore where
  get s _ _ := casGet s
  getItemInfo := casItemInfo
  allocate s _ nbytes datatype := casAllocate s nbytes datatype
  itemSetCas s it cas := { s with items := s.items.modify (setFreshCas cas) it }
  writeValue s it offset bytes := { s with items := s.items.modify (writeFresh offset bytes) it }
  store s it _ _ := casStore s it
  release s _ := s

/-! ## The engine only adds -/

/-- `s'` keeps the versions and items of `s`, in place. -/
structure Extends (s s' : CasStore) : Prop where
  history : List.IsPrefix s.history s'.history
  items : List.IsPrefix s.items s'.items

theorem getElem?_of_prefix {α : Type} {l l' : List α} (h : List.IsPrefix l l') {i : Nat} {x : α}
    (hx : l[i]? = some x) : l'[i]? = some x := by
  obtain ⟨t, rfl⟩ := h
  rw [List.getElem?_append_left (List.getElem?_eq_some_iff.mp hx).1, hx]

theorem Extends.refl (s : CasStore) : Extends s s := ⟨List.prefix_refl _, List.prefix_refl _⟩

theorem Extends.trans {s₁ s₂ s₃ : CasStore} (h₁ : Extends s₁ s₂) (h₂ : Extends s₂ s₃) :
    Extends s₁ s₃ :=
  ⟨h₁.history.trans h₂.history, h₁.items.trans h₂.items⟩

theorem extends_next (s : CasStore) : Extends s s.next.2 := by
  unfold CasStore.next
  split
  · exact .refl s
  · exact ⟨List.prefix_append _ _, List.prefix_refl _⟩

theorem casGet_extends (s : CasStore) : Extends s (casGet s).1 := by
  unfold casGet
  dsimp only
  split_ifs
  · exact extends_next s
  · exact extends_next s
  · exact (extends_next s).trans ⟨List.prefix_refl _, List.prefix_append _ _⟩

theorem casGet_success {s : CasStore} (h : (casGet s).2.1 = .success) :
    ∃ i, (casGet s).1.items[(casGet s).2.2]? = some (.snapshot i) ∧
      i < (casGet s).1.history.length := by
  unfold casGet at h ⊢
  dsimp only at h ⊢
  split_ifs at h ⊢ with h₁ h₂
  · exact absurd h h₁
  · have := List.length_pos.mpr h₂
    exact ⟨s.next.2.history.length - 1, by simp, by simp only; omega⟩

theorem casAllocate_extends (s : CasStore) (n : Nat) (dt : UInt8) :
    Extends s (casAllocate s n dt).1 := by
  unfold casAllocate
  dsimp only
  split_ifs
  · exact extends_next s
  · exact (extends_next s).trans ⟨List.prefix_refl _, List.prefix_append _ _⟩

theorem casAllocate_success {s : CasStore} {n : Nat} {dt : UInt8}
    (h : (casAllocate s n dt).2.1 = .success) :
    (casAllocate s n dt).1 = { s.next.2 with items := s.items ++ [.fresh dt (List.replicate n 0) 0] } ∧
      (casAllocate s n dt).2.2 = s.items.length := by
  have hitems : s.next.2.items = s.items := by unfold CasStore.next; split <;> rfl
  unfold casAllocate at h ⊢
  dsimp only at h ⊢
  split_ifs at h ⊢ with h₁
  · exact absurd h h₁
  · simp [hitems]

theorem casReplace_extends (s : CasStore) (it : ItemRef) (c : UInt64) :
    Extends s (casReplace s it c).1 := by
  unfold casReplace
  split
  · split_ifs
    · exact .refl s
    · exact ⟨List.prefix_append _ _, List.prefix_refl _⟩
  · exact .refl s
  · exact .refl s

theorem casStore_extends (s : CasStore) (it : ItemRef) : Extends s (casStore s it).1 := by
  unfold casStore
  dsimp only
  split_ifs
  · exact (extends_next s).trans ⟨List.prefix_refl _, List.prefix_refl _⟩
  · exact (extends_next s).trans ((casReplace_extends _ _ _).trans ⟨List.prefix_refl _, List.prefix_refl _⟩)

/-- A successful store appended a version holding the item's datatype and value, right
after a version whose CAS is the item's, unless that CAS is 0. -/
theorem casStore_success {s : CasStore} {it : ItemRef} (h : (casStore s it).2.1 = .success) :
    ∃ pre dt value c, List.IsPrefix s.history pre ∧ s.items[it]? = some (.fresh dt value c) ∧
      (casStore s it).1.history = pre ++ [⟨dt, value, (casStore s it).2.2⟩] ∧
      (c = 0 ∨ pre.getLast?.map Version.cas = some c) := by
  have hitems : s.next.2.items = s.items := by unfold CasStore.next; split <;> rfl
  have hpre := (extends_next s).history
  unfold casStore at h ⊢
  dsimp only at h ⊢
  split_ifs at h ⊢ with h₁
  · exact absurd h h₁
  · revert h
    unfold casReplace
    rw [hitems]
    split
    · rename_i dt value c cur hit hcur
      split_ifs with hc
      · nofun
      · intro _
        refine ⟨_, dt, value, c, hpre, hit, rfl, ?_⟩
        by_cases hc0 : c = 0
        · exact .inl hc0
        · exact .inr (by rw [hcur, Option.map_some', (by simpa [hc0] using hc : c = cur.cas)])
    · nofun
    · nofun

/-! ## Filling a new item -/

theorem length_writeAt {value bytes : Bytes} {offset : Nat}
    (h : offset + bytes.length ≤ value.length) : (writeAt value offset bytes).length = value.length := by
  simp [writeAt]; omega

theorem take_writeAt {value bytes : Bytes} {offset : Nat}
    (h : offset + bytes.length ≤ value.length) :
    (writeAt value offset bytes).take (offset + bytes.length) = value.take offset ++ bytes :=
  List.take_left' (by simp; omega)

theorem drop_writeAt {value bytes : Bytes} {offset : Nat}
    (h : offset + bytes.length ≤ value.length) (k : Nat) :
    (writeAt value offset bytes).drop (offset + bytes.length + k) =
      value.drop (offset + bytes.length + k) := by
  have hl : (value.take offset ++ bytes).length = offset + bytes.length := by simp; omega
  rw [writeAt, ← hl, List.drop_append, List.drop_drop, hl]

theorem modify_concat_length {α : Type} (f : α → α) (pre : List α) (x : α) :
    (pre ++ [x]).modify f pre.length = pre ++ [f x] := by
  induction pre with
  | nil => rfl
  | cons a pre ih => simp [ih]

section Copy
variable (env : Env CasStore)

theorem copyNewdoc_fresh (he : env.engine = casEngine) (pre : List CasItem) (dt : UInt8)
    (c : UInt64) : ∀ (frags : List Bytes) (p : Nat) (buf : Bytes) (s : CasStore),
    s.items = pre ++ [.fresh dt buf c] → p + (frags.map List.length).sum ≤ buf.length →
    copyNewdoc env pre.length p frags s =
      { s with items := pre ++ [.fresh dt (buf.take p ++ frags.flatten ++
          buf.drop (p + (frags.map List.length).sum)) c] } := by
  intro frags
  induction frags with
  | nil =>
    intro p buf s hs _
    cases s
    simp_all [copyNewdoc]
  | cons f frags ih =>
    intro p buf s hs hlen
    simp only [List.map_cons, List.sum_cons] at hlen ⊢
    have hf : p + f.length ≤ buf.length := by omega
    rw [copyNewdoc, ih (p + f.length) (writeAt buf p f) _
      (by simp [he, casEngine, hs, modify_concat_length, writeFresh])
      (by rw [length_writeAt hf]; omega)]
    rw [take_writeAt hf, drop_writeAt hf]
    simp only [he, casEngine, List.flatten_cons, List.append_assoc, Nat.add_assoc]

theorem copyNewdoc_allocated (he : env.engine = casEngine) (s : CasStore) (c : UInt64)
    (frags : List Bytes) :
    copyNewdoc env s.items.length 0 frags (env.engine.itemSetCas
        { s.next.2 with items := s.items ++ [.fresh protocolBinaryDatatypeJson
          (List.replicate (frags.map List.length).sum 0) 0] } s.items.length c) =
      { s.next.2 with items := s.items ++ [.fresh protocolBinaryDatatypeJson frags.flatten c] } := by
  rw [copyNewdoc_fresh env he s.items protocolBinaryDatatypeJson c _ 0
    (List.replicate (frags.map List.length).sum 0) _
    (by simp [he, casEngine, modify_concat_length, setFreshCas]) (by simp)]
  simp [he, casEngine]

end Copy

/-! ## Engine calls through the environment -/

section Calls
variable (env : Env CasStore) (he : env.engine = casEngine)
include he

theorem get_extends {s s' : CasStore} {k : Bytes} {vb : UInt16} {code : EngineErrorCode} {it : ItemRef}
    (h : env.engine.get s k vb = (s', code, it)) : Extends s s' := by
  simp only [he, casEngine] at h
  have := casGet_extends s
  rwa [h] at this

theorem get_success {s s' : CasStore} {k : Bytes} {vb : UInt16} {it : ItemRef}
    (h : env.engine.get s k vb = (s', .success, it)) :
    ∃ i, s'.items[it]? = some (.snapshot i) ∧ i < s'.history.length := by
  simp only [he, casEngine] at h
  have := casGet_success (s := s) (by rw [h])
  rwa [h] at this

theorem allocate_extends {s s' : CasStore} {k : Bytes} {n : Nat} {dt : UInt8}
    {code : EngineErrorCode} {it : ItemRef} (h : env.engine.allocate s k n dt = (s', code, it)) :
    Extends s s' := by
  simp only [he, casEngine] at h
  have := casAllocate_extends s n dt
  rwa [h] at this

theorem store_extends {s s' : CasStore} {it : ItemRef} {op : StoreOperation} {vb : UInt16}
    {code : EngineErrorCode} {c : UInt64} (h : env.engine.store s it op vb = (s', code, c)) :
    Extends s s' := by
  simp only [he, casEngine] at h
  have := casStore_extends s it
  rwa [h] at this

theorem allocate_success {s s' : CasStore} {k : Bytes} {n : Nat} {dt : UInt8} {it : ItemRef}
    (h : env.engine.allocate s k n dt = (s', .success, it)) :
    s' = { s.next.2 with items := s.items ++ [.fresh dt (List.replicate n 0) 0] } ∧
      it = s.items.length := by
  simp only [he, casEngine] at h
  have := @casAllocate_success s n dt (by rw [h])
  rwa [h] at this

theorem store_success {s s' : CasStore} {it : ItemRef} {op : StoreOperation} {vb : UInt16}
    {c : UInt64} (h : env.engine.store s it op vb = (s', .success, c)) :
    ∃ pre dt value c₀, List.IsPrefix s.history pre ∧ s.items[it]? = some (.fresh dt value c₀) ∧
      s'.history = pre ++ [⟨dt, value, c⟩] ∧ (c₀ = 0 ∨ pre.getLast?.map Version.cas = some c₀) := by
  simp only [he, casEngine] at h
  have := @casStore_success s it (by rw [h])
  rwa [h] at this

theorem getDocumentForSearching_snapshot {s : CasStore} {it i : Nat} {v : Version}
    (hit : s.items[it]? = some (.snapshot i)) (hv : s.history[i]? = some v) (inCas : UInt64) :
    getDocumentForSearching env s it inCas = documentForSearching env v.info inCas := by
  simp [getDocumentForSearching, he, casEngine, casItemInfo, hit, hv]

end Calls

theorem documentForSearching_ok (env : Env CasStore) {info : ItemInfo} {inCas c : UInt64} {d : Bytes}
    (h : documentForSearching env info inCas = .ok (d, c)) :
    c = info.cas ∧ (inCas = 0 ∨ inCas = info.cas) := by
  unfold documentForSearching at h
  rcases hv : info.value with _ | ⟨value, _ | _⟩ <;> simp only [hv] at h
  · cases h
  · by_cases hA : inCas ≠ 0 ∧ inCas ≠ info.cas
    · simp [hA] at h
    · refine ⟨?_, by tauto⟩
      simp only [hA, if_false] at h
      split_ifs at h
      · cases h; rfl
      · revert h
        split
        · intro h; cases h
        · split_ifs
          · intro h; cases h
          · split
            · intro h; cases h
            · intro h; cases h; rfl
  · cases h

/-! ## Linearizability of success responses -/

section Lin
variable (env : Env CasStore) (traits : CmdTraits) (req : SubdocRequest)

/-- The read a result rests on: the command's successful `get` returned item `it`, a snapshot
of version `i`, `v`, and the JSON operation succeeded on its document `d`. -/
structure ReadOf (s : CasStore) (log : List Event) (it i : Nat) (v : Version) (d : Bytes) :
    Prop where
  get : Event.get req.key req.vbucket .success it ∈ log
  item : s.items[it]? = some (.snapshot i)
  version : s.history[i]? = some v
  doc : documentForSearching env v.info req.cas = .ok (d, v.cas)
  op : (subdocOpExec env traits req d).1 = .success

/-- A success response `(cas, value)` linearizes at the version `v` the command read: its value
is the result on `v`; a lookup reports `v`'s CAS; a mutation reports the CAS of the version its
`REPLACE` appended, which holds the new document and came right after a version of `v`'s CAS
(unless that CAS is 0). -/
def Lin (s : CasStore) (log : List Event) (cas : UInt64) (value : Bytes) : Prop :=
  ∃ it i v d, ReadOf env traits req s log it i v d ∧
    value = (if traits.responseHasValue then (subdocOpExec env traits req d).2.matchloc else []) ∧
    (traits.isMutator = false → cas = v.cas) ∧
    (traits.isMutator = true → ∃ pre post, s.history = pre ++
        ⟨protocolBinaryDatatypeJson, (subdocOpExec env traits req d).2.newdoc.flatten, cas⟩ :: post ∧
      i < pre.length ∧ (v.cas = 0 ∨ pre.getLast?.map Version.cas = some v.cas))

/-- What the command holds rests on its reads: `c->item` is a snapshot it got; a context with
a document holds that snapshot's document, CAS and result; `out_doc` holds the new document
with that CAS; and every success response written is linearizable. -/
structure CasInv (w : World CasStore) : Prop where
  item : ∀ it, w.conn.item = some it → ∃ i, w.eng.items[it]? = some (.snapshot i) ∧
    i < w.eng.history.length ∧ Event.get req.key req.vbucket .success it ∈ w.log
  doc : ∀ ctx d, w.conn.commandContext = some ctx → ctx.inDoc = some d →
    ∃ it i v, w.conn.item = some it ∧ ReadOf env traits req w.eng w.log it i v d ∧
      ctx.inCas = v.cas ∧ ctx.result = (subdocOpExec env traits req d).2
  out : ∀ ctx o, w.conn.commandContext = some ctx → ctx.outDoc = some o → ctx.inDoc.isSome ∧
    w.eng.items[o]? = some (.fresh protocolBinaryDatatypeJson ctx.result.newdoc.flatten ctx.inCas)
  resp : ∀ cas value, Event.respond (.subdoc cas value) ∈ w.log →
    Lin env traits req w.eng w.log cas value

variable {env traits req}

theorem ReadOf.mono {s s' : CasStore} {log log' : List Event} {it i : Nat} {v : Version}
    {d : Bytes} (h : ReadOf env traits req s log it i v d) (hs : Extends s s') (hlog : log ⊆ log') :
    ReadOf env traits req s' log' it i v d :=
  ⟨hlog h.get, getElem?_of_prefix hs.items h.item, getElem?_of_prefix hs.history h.version, h.doc,
    h.op⟩

theorem Lin.mono {s s' : CasStore} {log log' : List Event} {cas : UInt64} {value : Bytes}
    (h : Lin env traits req s log cas value) (hs : Extends s s') (hlog : log ⊆ log') :
    Lin env traits req s' log' cas value := by
  obtain ⟨it, i, v, d, hr, hv, hl, hm⟩ := h
  refine ⟨it, i, v, d, hr.mono hs hlog, hv, hl, fun hmut => ?_⟩
  obtain ⟨pre, post, hh, hi, hc⟩ := hm hmut
  obtain ⟨t, ht⟩ := hs.history
  exact ⟨pre, post ++ t, by rw [← ht, hh]; simp, hi, hc⟩

/-- A step that keeps `c->item` and the context, only adds to the engine, and writes no
success response keeps the invariant. -/
theorem CasInv.frame {w w' : World CasStore} (hi : CasInv env traits req w)
    (hitem : w'.conn.item = w.conn.item) (hctx : w'.conn.commandContext = w.conn.commandContext)
    (hs : Extends w.eng w'.eng) (es : List Event) (hlog : w'.log = w.log ++ es)
    (hes : ∀ cas value, Event.respond (.subdoc cas value) ∉ es) : CasInv env traits req w' := by
  have hsub : w.log ⊆ w'.log := hlog ▸ List.subset_append_left _ _
  refine ⟨fun it h => ?_, fun ctx d hc hd => ?_, fun ctx o hc ho => ?_, fun cas value h => ?_⟩
  · obtain ⟨i, h₁, h₂, h₃⟩ := hi.item it (hitem.symm.trans h)
    exact ⟨i, getElem?_of_prefix hs.items h₁, by have := hs.history.length_le; omega, hsub h₃⟩
  · obtain ⟨it, i, v, h₁, h₂, h₃, h₄⟩ := hi.doc ctx d (hctx.symm.trans hc) hd
    exact ⟨it, i, v, hitem.trans h₁, h₂.mono hs hsub, h₃, h₄⟩
  · obtain ⟨h₁, h₂⟩ := hi.out ctx o (hctx.symm.trans hc) ho
    exact ⟨h₁, getElem?_of_prefix hs.items h₂⟩
  · rw [hlog, List.mem_append] at h
    rcases h with h | h
    · exact (hi.resp cas value h).mono hs hsub
    · exact absurd h (hes cas value)

theorem CasInv.setConn {w : World CasStore} (hi : CasInv env traits req w) {c : Connection}
    (hitem : c.item = w.conn.item) (hctx : c.commandContext = w.conn.commandContext) :
    CasInv env traits req { w with conn := c } :=
  hi.frame hitem hctx (.refl _) [] (by simp) (by simp)

theorem CasInv.emit {w : World CasStore} (hi : CasInv env traits req w) {e : Event}
    (he : ∀ cas value, e ≠ .respond (.subdoc cas value)) : CasInv env traits req (w.emit e) :=
  hi.frame rfl rfl (.refl _) [e] rfl (by simpa using fun cas value h => he cas value h.symm)

theorem CasInv.respond {w : World CasStore} (hi : CasInv env traits req w) {cas : UInt64}
    {value : Bytes} (h : Lin env traits req w.eng w.log cas value) :
    CasInv env traits req (w.emit (.respond (.subdoc cas value))) := by
  have hsub : w.log ⊆ (w.emit (.respond (.subdoc cas value))).log := List.subset_append_left _ _
  refine ⟨fun it h => ?_, fun ctx d hc hd => ?_, hi.out, fun cas' value' h' => ?_⟩
  · obtain ⟨i, h₁, h₂, h₃⟩ := hi.item it h
    exact ⟨i, h₁, h₂, hsub h₃⟩
  · obtain ⟨it, i, v, h₁, h₂, h₃, h₄⟩ := hi.doc ctx d hc hd
    exact ⟨it, i, v, h₁, h₂.mono (.refl _) hsub, h₃, h₄⟩
  · simp only [World.emit, List.mem_append, List.mem_singleton, Event.respond.injEq,
      Response.subdoc.injEq] at h'
    rcases h' with h' | ⟨rfl, rfl⟩
    · exact (hi.resp cas' value' h').mono (.refl _) hsub
    · exact h.mono (.refl _) hsub

theorem CasInv.setContext {w : World CasStore} (hi : CasInv env traits req w) {ctx : SubdocCmdContext}
    (hdoc : ∀ d, ctx.inDoc = some d → ∃ it i v, w.conn.item = some it ∧
      ReadOf env traits req w.eng w.log it i v d ∧ ctx.inCas = v.cas ∧
      ctx.result = (subdocOpExec env traits req d).2)
    (hout : ∀ o, ctx.outDoc = some o → ctx.inDoc.isSome ∧
      w.eng.items[o]? = some (.fresh protocolBinaryDatatypeJson ctx.result.newdoc.flatten ctx.inCas)) :
    CasInv env traits req (w.setCommandContext (some ctx)) :=
  ⟨hi.item, fun _ d hc hd => Option.some.inj hc ▸ hdoc d (Option.some.inj hc ▸ hd),
    fun _ o hc ho => Option.some.inj hc ▸ hout o (Option.some.inj hc ▸ ho), hi.resp⟩

theorem CasInv.clear {w w' : World CasStore} (hi : CasInv env traits req w)
    (hitem : w'.conn.item = none) (hctx : w'.conn.commandContext = none) (heng : w'.eng = w.eng)
    (es : List ItemRef) (hlog : w'.log = w.log ++ es.map Event.release) : CasInv env traits req w' := by
  have hsub : w.log ⊆ w'.log := hlog ▸ List.subset_append_left _ _
  refine ⟨by simp [hitem], by simp [hctx], by simp [hctx], fun cas value h => ?_⟩
  rw [hlog, List.mem_append] at h
  rcases h with h | h
  · exact heng ▸ (hi.resp cas value h).mono (.refl _) hsub
  · simp at h

end Lin

/-! ## The invariant along the executor -/

section Steps
variable (env : Env CasStore) (traits : CmdTraits) (req : SubdocRequest)
  (he : env.engine = casEngine)
include he

/-- A success response about to be written: the context's result, with `c->cas`. -/
def Ready (w : World CasStore) : Prop :=
  ∃ ctx, w.conn.commandContext = some ctx ∧ Lin env traits req w.eng w.log w.conn.cas
    (if traits.responseHasValue then ctx.result.matchloc else [])

omit he in
theorem not_subdoc_status (s : ProtocolStatus) (cas : UInt64) (value : Bytes) :
    Event.respond (.status s) ≠ .respond (.subdoc cas value) := by simp

theorem casInv_subdocFetch {w : World CasStore} (hi : CasInv env traits req w) (ret : EngineErrorCode) :
    CasInv env traits req (subdocFetch env req w ret).1 := by
  unfold subdocFetch
  cases hitem : w.conn.item with
  | some it => exact hi
  | none =>
    by_cases hret : ret = .success
    · simp only [hret, if_true, engineGet]
      rcases hg : env.engine.get w.eng req.key req.vbucket with ⟨s, code, it⟩
      have hw : CasInv env traits req
          { w with eng := s, log := w.log ++ [.get req.key req.vbucket code it] } :=
        hi.frame rfl rfl (get_extends env he hg) _ rfl (by simp)
      by_cases hc : code = .success
      · subst hc
        obtain ⟨i, hit, hlen⟩ := get_success env he hg
        simp only [if_true]
        split_ifs
        · exact hw.emit (by simp)
        · refine ⟨fun it' h => ?_, by rintro _ _ ⟨⟩ ⟨⟩, by rintro _ _ ⟨⟩ ⟨⟩, hw.resp⟩
          simp only [World.setCommandContext, World.setItem, Option.some.injEq] at h
          subst h
          exact ⟨i, hit, hlen, by simp⟩
      · simp only [hc, if_false]
        split_ifs
        · exact hw.setConn rfl rfl
        · exact hw.setConn rfl rfl
        · exact hw.emit (not_subdoc_status _)
    · simp only [hret, if_false]
      split_ifs
      · exact hi.setConn rfl rfl
      · exact hi.setConn rfl rfl
      · exact hi.emit (not_subdoc_status _)

theorem casInv_subdocOperate {w : World CasStore} (hi : CasInv env traits req w) :
    CasInv env traits req (subdocOperate env traits req w).1 ∧
      ((subdocOperate env traits req w).2 = true → ∃ ctx d,
        (subdocOperate env traits req w).1.conn.commandContext = some ctx ∧ ctx.inDoc = some d) := by
  unfold subdocOperate
  cases hc : w.conn.commandContext with
  | none => exact ⟨hi.emit (by simp), nofun⟩
  | some ctx =>
    dsimp only
    cases hdoc : ctx.inDoc with
    | some d => exact ⟨hi, fun _ => ⟨ctx, d, hc, hdoc⟩⟩
    | none =>
      have hout : ctx.outDoc = none := by
        cases ho : ctx.outDoc with
        | none => rfl
        | some o => simpa [hdoc] using (hi.out ctx o hc ho).1
      simp only [Option.isSome_none, Bool.false_eq_true, if_false]
      cases hit : w.conn.item with
      | none => exact ⟨hi.emit (by simp), nofun⟩
      | some it =>
        obtain ⟨i, hii, hlen, hget⟩ := hi.item it hit
        obtain ⟨v, hv⟩ : ∃ v, w.eng.history[i]? = some v :=
          ⟨_, List.getElem?_eq_getElem hlen⟩
        dsimp only
        rw [getDocumentForSearching_snapshot env he hii hv]
        cases hd : documentForSearching env v.info req.cas with
        | error st => exact ⟨hi.emit (not_subdoc_status _), nofun⟩
        | ok r =>
          obtain ⟨doc, docCas⟩ := r
          have hdc := (documentForSearching_ok env hd).1
          simp only [Version.info] at hdc
          subst hdc
          have he' := hi.emit (e := .opExec doc) (by simp)
          dsimp only
          split_ifs with hres
          · refine ⟨he'.setContext (fun d' hd' => ?_) (fun o ho => by simp [hout] at ho),
              fun _ => ⟨_, doc, rfl, rfl⟩⟩
            cases hd'
            exact ⟨it, i, v, hit, ⟨by simp [hget], hii, hv, hd, hres⟩, rfl, rfl⟩
          · exact ⟨(he'.setContext (fun d' hd' => by simp [hdoc] at hd')
              (fun o ho => by simp [hout] at ho)).emit (not_subdoc_status _), nofun⟩

theorem casInv_subdocStore {w : World CasStore} (hi : CasInv env traits req w)
    {ctx : SubdocCmdContext} {d : Bytes} {o : ItemRef} (hctx : w.conn.commandContext = some ctx)
    (hd : ctx.inDoc = some d) (ho : ctx.outDoc = some o) (hm : traits.isMutator = true) :
    CasInv env traits req (subdocStore env req w o).1 ∧
      ((subdocStore env req w o).2 = .success → Ready env traits req (subdocStore env req w o).1) := by
  unfold subdocStore engineStore
  rcases hst : env.engine.store w.eng o .replace req.vbucket with ⟨s, code, newCas⟩
  have hs := store_extends env he hst
  have hw : CasInv env traits req { w with eng := s, log := w.log ++ [.store o code] } :=
    hi.frame rfl rfl hs _ rfl (by simp)
  dsimp only
  split_ifs with h₁ h₂ h₃ h₄
  · subst h₁
    refine ⟨hw.setConn rfl rfl, fun _ => ⟨ctx, hctx, ?_⟩⟩
    obtain ⟨it, i, v, -, hr, hcas, hres⟩ := hi.doc ctx d hctx hd
    obtain ⟨pre, dt, value, c, hpre, hitem, hhist, hc⟩ := store_success env he hst
    rw [(hi.out ctx o hctx ho).2] at hitem
    cases hitem
    have hlen := (List.getElem?_eq_some_iff.mp hr.version).1
    refine ⟨it, i, v, d, hr.mono hs (List.subset_append_left _ _), by rw [hres],
      fun h => absurd hm (by simp [h]), fun _ => ⟨pre, [], by simp [hhist, hres], ?_, ?_⟩⟩
    · have := hpre.length_le; omega
    · rwa [← hcas]
  · exact ⟨hw, fun h => absurd h h₁⟩
  · exact ⟨hw.setConn rfl rfl, fun h => absurd h h₁⟩
  · exact ⟨hw.setConn rfl rfl, fun h => absurd h h₁⟩
  · exact ⟨hw.emit (not_subdoc_status _), fun h => absurd h h₁⟩

theorem subdocAllocate_allocated {w : World CasStore} (ctx : SubdocCmdContext)
    (ha : (env.engine.allocate w.eng req.key (ctx.result.newdoc.map List.length).sum
      protocolBinaryDatatypeJson).2.1 = .success) :
    subdocAllocate env req w ctx .success (ctx.result.newdoc.map List.length).sum =
      (World.setCommandContext { w with
          eng := { w.eng.next.2 with items := w.eng.items ++
            [.fresh protocolBinaryDatatypeJson ctx.result.newdoc.flatten ctx.inCas] },
          log := w.log ++ [.allocate req.key (ctx.result.newdoc.map List.length).sum .success
            w.eng.items.length] } (some { ctx with outDoc := some w.eng.items.length }),
        .inr w.eng.items.length) := by
  unfold subdocAllocate
  simp only [if_true, engineAllocate]
  rcases hal : env.engine.allocate w.eng req.key (ctx.result.newdoc.map List.length).sum
    protocolBinaryDatatypeJson with ⟨s, code, o⟩
  rw [hal] at ha
  dsimp only at ha
  subst ha
  obtain ⟨rfl, rfl⟩ := allocate_success env he hal
  have hinfo : (env.engine.getItemInfo (env.engine.itemSetCas { w.eng.next.2 with
      items := w.eng.items ++ [.fresh protocolBinaryDatatypeJson
        (List.replicate (ctx.result.newdoc.map List.length).sum 0) 0] }
      w.eng.items.length ctx.inCas) w.eng.items.length).isSome := by
    simp [he, casEngine, casItemInfo, modify_concat_length, setFreshCas]
  obtain ⟨info, hinfo⟩ := Option.isSome_iff_exists.mp hinfo
  simp only [if_true, World.setCommandContext, hinfo,
    copyNewdoc_allocated env he w.eng ctx.inCas ctx.result.newdoc]

theorem casInv_subdocAllocate {w : World CasStore} (hi : CasInv env traits req w)
    {ctx : SubdocCmdContext} {d : Bytes} (hctx : w.conn.commandContext = some ctx)
    (hd : ctx.inDoc = some d) (ret : EngineErrorCode) :
    CasInv env traits req
        (subdocAllocate env req w ctx ret (ctx.result.newdoc.map List.length).sum).1 ∧
      (∀ e, (subdocAllocate env req w ctx ret (ctx.result.newdoc.map List.length).sum).2 = .inl e →
        e ≠ .success) ∧
      (∀ o, (subdocAllocate env req w ctx ret (ctx.result.newdoc.map List.length).sum).2 = .inr o →
        (subdocAllocate env req w ctx ret (ctx.result.newdoc.map List.length).sum).1.conn.commandContext =
          some { ctx with outDoc := some o }) := by
  by_cases hret : ret = .success
  · subst hret
    by_cases hc : (env.engine.allocate w.eng req.key (ctx.result.newdoc.map List.length).sum
        protocolBinaryDatatypeJson).2.1 = .success
    · rw [subdocAllocate_allocated env req he ctx hc]
      have hw : CasInv env traits req { w with
          eng := { w.eng.next.2 with items := w.eng.items ++
            [.fresh protocolBinaryDatatypeJson ctx.result.newdoc.flatten ctx.inCas] },
          log := w.log ++ [.allocate req.key (ctx.result.newdoc.map List.length).sum .success
            w.eng.items.length] } :=
        hi.frame rfl rfl ⟨(extends_next w.eng).history, List.prefix_append _ _⟩ _ rfl (by simp)
      refine ⟨hw.setContext (fun d' hd' => hw.doc ctx d' hctx hd') (fun o ho => ?_), by simp, by simp⟩
      cases ho
      exact ⟨by simp [hd], by simp⟩
    · unfold subdocAllocate
      simp only [if_true, engineAllocate]
      rcases ha : env.engine.allocate w.eng req.key (ctx.result.newdoc.map List.length).sum
        protocolBinaryDatatypeJson with ⟨s, code, o⟩
      rw [ha] at hc
      dsimp only at hc
      have hw : CasInv env traits req { w with eng := s, log := w.log ++
          [.allocate req.key (ctx.result.newdoc.map List.length).sum code o] } :=
        hi.frame rfl rfl (allocate_extends env he ha) _ rfl (by simp)
      simp only [hc, if_false]
      split_ifs
      · exact ⟨hw.setConn rfl rfl, by simpa using hc, nofun⟩
      · exact ⟨hw.setConn rfl rfl, by simpa using hc, nofun⟩
      · exact ⟨hw.emit (not_subdoc_status _), by simpa using hc, nofun⟩
  · unfold subdocAllocate
    simp only [hret, if_false]
    split_ifs
    · exact ⟨hi.setConn rfl rfl, by simpa using hret, nofun⟩
    · exact ⟨hi.setConn rfl rfl, by simpa using hret, nofun⟩
    · exact ⟨hi.emit (not_subdoc_status _), by simpa using hret, nofun⟩

theorem casInv_subdocUpdate {w : World CasStore} (hi : CasInv env traits req w)
    {ctx : SubdocCmdContext} {d : Bytes} (hctx : w.conn.commandContext = some ctx)
    (hd : ctx.inDoc = some d) (ret : EngineErrorCode) :
    CasInv env traits req (subdocUpdate env traits req w ret).1 ∧
      ((subdocUpdate env traits req w ret).2 = .success →
        Ready env traits req (subdocUpdate env traits req w ret).1) := by
  rcases h : subdocUpdate env traits req w ret with ⟨w', r⟩
  rcases subdocUpdate_cases env traits req hctx h with ⟨hm, rfl, rfl⟩ |
    ⟨hm, ⟨o, ho, hs⟩ | ⟨-, hal⟩ | ⟨-, w₁, o, hal, hs⟩⟩
  · refine ⟨hi.setConn rfl rfl, fun _ => ⟨ctx, hctx, ?_⟩⟩
    obtain ⟨it, i, v, -, hr, hcas, hres⟩ := hi.doc ctx d hctx hd
    exact ⟨it, i, v, d, hr, by rw [hres], fun _ => hcas, fun h => by simp [h] at hm⟩
  · have := casInv_subdocStore env traits req he hi hctx hd ho hm
    rwa [hs] at this
  · have ha := casInv_subdocAllocate env traits req he hi hctx hd ret
    rw [hal] at ha
    exact ⟨ha.1, fun he' => absurd he' (ha.2.1 r rfl)⟩
  · have ha := casInv_subdocAllocate env traits req he hi hctx hd ret
    rw [hal] at ha
    have := casInv_subdocStore env traits req he ha.1 (ha.2.2 o rfl) hd rfl hm
    rwa [hs] at this

omit he in
theorem casInv_subdocResponse {w : World CasStore} (hi : CasInv env traits req w)
    (hr : Ready env traits req w) : CasInv env traits req (subdocResponse env traits w) := by
  obtain ⟨ctx, hc, hlin⟩ := hr
  unfold subdocResponse
  simp only [hc]
  generalize (if traits.responseHasValue then ctx.result.matchloc else []) = value at hlin ⊢
  split_ifs
  · exact hi.setConn rfl rfl
  · exact (hi.respond hlin).setConn rfl rfl

theorem casInv_releaseItemAndContext {w : World CasStore} (hi : CasInv env traits req w) :
    CasInv env traits req (releaseItemAndContext env w) := by
  rcases hitem : w.conn.item with _ | it <;>
    rcases hc : w.conn.commandContext with _ | ⟨inDoc, inCas, result, _ | o⟩ <;>
    simp only [releaseItemAndContext, hitem, hc, engineRelease, he, casEngine, World.setItem,
      World.setCommandContext]
  · exact hi.clear rfl rfl rfl [] (by simp)
  · exact hi.clear rfl rfl rfl [] (by simp)
  · exact hi.clear rfl rfl rfl [o] (by simp)
  · exact hi.clear rfl rfl rfl [it] (by simp)
  · exact hi.clear rfl rfl rfl [it] (by simp)
  · exact hi.clear rfl rfl rfl [it, o] (by simp)

theorem casInv_executorLoop (autoRetry : Bool) :
    ∀ (fuel attempts : Nat) (ret : EngineErrorCode) {w : World CasStore},
      CasInv env traits req w →
      CasInv env traits req (executorLoop env traits req autoRetry fuel attempts ret w) := by
  intro fuel
  induction fuel with
  | zero => intro _ _ w hi; exact hi
  | succ fuel ih =>
    intro attempts ret w hi
    have hf := casInv_subdocFetch env traits req he hi ret
    rw [executorLoop]
    rcases hfetch : subdocFetch env req w ret with ⟨w₁, _ | _⟩
    · rw [hfetch] at hf; exact hf
    rw [hfetch] at hf
    dsimp only
    have ho := casInv_subdocOperate env traits req he hf
    rcases hop : subdocOperate env traits req w₁ with ⟨w₂, _ | _⟩
    · rw [hop] at ho; exact ho.1
    rw [hop] at ho
    dsimp only
    obtain ⟨ctx, d, hctx, hd⟩ := ho.2 rfl
    have hu := casInv_subdocUpdate env traits req he ho.1 hctx hd ret
    rcases hup : subdocUpdate env traits req w₂ ret with ⟨w₃, ret₃⟩
    rw [hup] at hu
    dsimp only
    split_ifs with h₁ h₂ h₃ h₄
    · exact ih _ _ (casInv_releaseItemAndContext env traits req he hu.1)
    · exact (casInv_releaseItemAndContext env traits req he hu.1).emit (not_subdoc_status _)
    · exact hu.1.emit (not_subdoc_status _)
    · exact hu.1
    · exact casInv_subdocResponse env traits req hu.1 (hu.2 (not_not.mp h₄))

theorem casInv_subdocExecutor {w : World CasStore} (hi : CasInv env traits req w) :
    CasInv env traits req (subdocExecutor env traits req w) :=
  casInv_executorLoop env traits req he _ _ _ _ (hi.setConn rfl rfl)

theorem casInv_runFrom {w₀ w : World CasStore} (h₀ : Fresh w₀)
    (h : RunFrom env traits req w₀ w) : CasInv env traits req w := by
  induction h with
  | start =>
    exact casInv_subdocExecutor env traits req he
      ⟨by simp [h₀.item], by simp [h₀.context], by simp [h₀.context], by simp [h₀.log]⟩
  | resume s _ _ ih => exact casInv_subdocExecutor env traits req he (ih.setConn rfl rfl)

end Steps

/-! ## Linearizability -/

/-- Against an engine whose CAS values are non-zero and never repeat for the key, every
success response of a single-path command linearizes at the version `v` its `get` returned:
the result is computed on `v`'s document and a request CAS, when non-zero, is `v`'s. A lookup
reports `v`'s CAS. A mutation's `REPLACE` appended, right after `v`, the document its
operation produced from `v`, and the response reports the CAS of that version. -/
theorem subdoc_success_linearizable (env : Env CasStore) (he : env.engine = casEngine)
    (traits : CmdTraits) (req : SubdocRequest) {w₀ w : World CasStore} (h₀ : Fresh w₀)
    (h : RunFrom env traits req w₀ w) (hfresh : (w.eng.history.map Version.cas).Nodup)
    (hnz : ∀ v ∈ w.eng.history, v.cas ≠ 0) (cas : UInt64) (value : Bytes)
    (hresp : Event.respond (.subdoc cas value) ∈ w.log) :
    ∃ it i v d, Event.get req.key req.vbucket .success it ∈ w.log ∧
      w.eng.items[it]? = some (.snapshot i) ∧ w.eng.history[i]? = some v ∧
      documentForSearching env v.info req.cas = .ok (d, v.cas) ∧ (req.cas ≠ 0 → v.cas = req.cas) ∧
      (subdocOpExec env traits req d).1 = .success ∧
      value = (if traits.responseHasValue then (subdocOpExec env traits req d).2.matchloc else []) ∧
      (traits.isMutator = false → cas = v.cas) ∧
      (traits.isMutator = true → w.eng.history[i + 1]? =
        some ⟨protocolBinaryDatatypeJson, (subdocOpExec env traits req d).2.newdoc.flatten, cas⟩) := by
  obtain ⟨it, i, v, d, hr, hv, hl, hm⟩ := (casInv_runFrom env traits req he h₀ h).resp cas value hresp
  refine ⟨it, i, v, d, hr.get, hr.item, hr.version, hr.doc,
    fun hc => ((documentForSearching_ok env hr.doc).2.resolve_left hc).symm, hr.op, hv, hl,
    fun hmut => ?_⟩
  obtain ⟨pre, post, hh, hi, hc⟩ := hm hmut
  obtain ⟨u, hu, huc⟩ := Option.map_eq_some'.mp
    ((List.getLast?_eq_getElem? pre) ▸ hc.resolve_left (hnz v (List.mem_iff_getElem?.mpr ⟨i, hr.version⟩)))
  have hu' : w.eng.history[pre.length - 1]? = some u := by
    rw [hh, List.getElem?_append_left (by omega)]; exact hu
  have hidx : i = pre.length - 1 := by
    have hlt : i < (w.eng.history.map Version.cas).length := by
      simpa using (List.getElem?_eq_some_iff.mp hr.version).1
    refine List.getElem?_inj hlt hfresh ?_
    simp [hr.version, hu', huc]
  rw [hh, hidx, Nat.sub_add_cancel (by omega), List.getElem?_append_right (le_refl _), Nat.sub_self]
  simp


/-! ## Runs -/

section Runs

/-- The key holds `{}` with CAS 5. Before the command's `allocate`, other writers store `[]`
(CAS 6) and then `[1]`, which the engine gives CAS 5 again; its `REPLACE` gets CAS 8. -/
def abaStore : CasStore :=
  ⟨[⟨protocolBinaryDatatypeJson, [0x7b, 0x7d], 5⟩], [],
    [⟨[], .success, 0⟩,
      ⟨[⟨protocolBinaryDatatypeJson, [0x5b, 0x5d], 6⟩,
        ⟨protocolBinaryDatatypeJson, [0x5b, 0x31, 0x5d], 5⟩], .success, 0⟩,
      ⟨[], .success, 8⟩], []⟩

def abaRun : World CasStore := scriptedExecutor casEngine 0 (freshWorld abaStore)

/-- With a CAS that changes on every write but comes back to an earlier value, a mutation
responds `SUCCESS` having stored its result on `{}` over `[1]`, the version current before its
`REPLACE`, from which the operation would have produced another document. -/
theorem subdoc_aba_overwrites :
    RunFrom (scriptedEnv _ casEngine) mutatorTraits (scriptedRequest 0) (freshWorld abaStore)
        abaRun ∧
      responses abaRun.log = [.subdoc 8 []] ∧
      abaRun.eng.history = [⟨protocolBinaryDatatypeJson, [0x7b, 0x7d], 5⟩,
        ⟨protocolBinaryDatatypeJson, [0x5b, 0x5d], 6⟩,
        ⟨protocolBinaryDatatypeJson, [0x5b, 0x31, 0x5d], 5⟩,
        ⟨protocolBinaryDatatypeJson, [0x7b, 0x7d, 0x20], 8⟩] ∧
      abaRun.eng.history.Chain' (fun a b => a.cas ≠ b.cas) ∧
      (∀ v ∈ abaRun.eng.history, v.cas ≠ 0) ∧
      (subdocOpExec (scriptedEnv _ casEngine) mutatorTraits (scriptedRequest 0)
        [0x5b, 0x31, 0x5d]).2.newdoc.flatten ≠ [0x7b, 0x7d, 0x20] := by
  have hh : abaRun.eng.history = [⟨protocolBinaryDatatypeJson, [0x7b, 0x7d], 5⟩,
      ⟨protocolBinaryDatatypeJson, [0x5b, 0x5d], 6⟩, ⟨protocolBinaryDatatypeJson, [0x5b, 0x31, 0x5d], 5⟩,
      ⟨protocolBinaryDatatypeJson, [0x7b, 0x7d, 0x20], 8⟩] := by decide
  refine ⟨.start, by decide, hh, ?_, by decide, by decide⟩
  rw [hh]
  simp only [List.chain'_cons, List.chain'_singleton, and_true]
  decide

/-- As `abaStore`, but the second write gets a new CAS, 7: the first `REPLACE` conflicts,
and the retry stores its result on `[1]` with CAS 8. -/
def freshCasStore : CasStore :=
  ⟨[⟨protocolBinaryDatatypeJson, [0x7b, 0x7d], 5⟩], [],
    [⟨[], .success, 0⟩,
      ⟨[⟨protocolBinaryDatatypeJson, [0x5b, 0x5d], 6⟩,
        ⟨protocolBinaryDatatypeJson, [0x5b, 0x31, 0x5d], 7⟩], .success, 0⟩,
      ⟨[], .success, 0⟩, ⟨[], .success, 0⟩, ⟨[], .success, 0⟩, ⟨[], .success, 8⟩], []⟩

def freshCasRun : World CasStore := scriptedExecutor casEngine 0 (freshWorld freshCasStore)

theorem subdoc_success_linearizable_freshCasRun :
    ∃ it i v d, Event.get [0x6b] 0 .success it ∈ freshCasRun.log ∧
      freshCasRun.eng.items[it]? = some (.snapshot i) ∧ freshCasRun.eng.history[i]? = some v ∧
      documentForSearching (scriptedEnv _ casEngine) v.info 0 = .ok (d, v.cas) ∧
      ((0 : UInt64) ≠ 0 → v.cas = 0) ∧
      (subdocOpExec (scriptedEnv _ casEngine) mutatorTraits (scriptedRequest 0) d).1 = .success ∧
      ([] : Bytes) = (if mutatorTraits.responseHasValue then
        (subdocOpExec (scriptedEnv _ casEngine) mutatorTraits (scriptedRequest 0) d).2.matchloc
        else []) ∧
      (mutatorTraits.isMutator = false → (8 : UInt64) = v.cas) ∧
      (mutatorTraits.isMutator = true → freshCasRun.eng.history[i + 1]? =
        some ⟨protocolBinaryDatatypeJson,
          (subdocOpExec (scriptedEnv _ casEngine) mutatorTraits (scriptedRequest 0) d).2.newdoc.flatten,
          8⟩) := by
  unfold freshCasRun scriptedExecutor
  exact subdoc_success_linearizable (scriptedEnv _ casEngine) rfl mutatorTraits (scriptedRequest 0)
    (fresh_freshWorld _) .start (by decide) (by decide) 8 [] (by decide)

end Runs

end Memcached.CasEngine
