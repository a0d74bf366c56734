import Memcached.CasEngine

set_option autoImplicit false

/-!
# The new document of `subdoc_update`

After a successful mutation, `subdoc_update` (src/daemon/subdocument.cc) sums the lengths of the
result's fragments, allocates an item of that size with datatype JSON, sets its CAS to the input
CAS recorded when the document was fetched, copies the fragments one after the other into the
item's first iovec, and stores the item with `OPERATION_REPLACE`.

The copy loop is `copyNewdoc`; `copyWrites` lists its `memcpy`s. `FirstIovec` says what a
`memcpy` into an item's first iovec does, for an engine whose `writeValue` is that `memcpy`.
-/

namespace Memcached.SubdocUpdate
open Memcached.Protocol Memcached.SubdocExecutor Memcached.ExecutorRuns
open Memcached.CasEngine (writeAt length_writeAt take_writeAt)

/-- An engine whose items have a first iovec that the executor's `memcpy` writes: `iov s it` is
the bytes of item `it`'s first iovec, the first `get_item_info` reports, and a write that lies
inside it overwrites those bytes. -/
structure FirstIovec {σ : Type} (e : Engine σ) where
  iov : σ → ItemRef → Bytes
  getItemInfo_value : ∀ s it info, e.getItemInfo s it = some info → info.value.head? = some (iov s it)
  writeValue_iov : ∀ s it off b, off + b.length ≤ (iov s it).length →
    iov (e.writeValue s it off b) it = writeAt (iov s it) off b

/-- The `memcpy`s of the copy loop from `writePtr`: each fragment, where the one before it
ended. -/
def copyWrites : Nat → List Bytes → List (Nat × Bytes)
  | _, [] => []
  | writePtr, loc :: locs => (writePtr, loc) :: copyWrites (writePtr + loc.length) locs

/-! ## The copy loop -/

theorem copyWrites_getElem? (p : Nat) (frags : List Bytes) {k : Nat} (h : k < frags.length) :
    (copyWrites p frags)[k]? = some (p + ((frags.take k).map List.length).sum, frags[k]) := by
  induction frags generalizing p k with
  | nil => simp at h
  | cons f fs ih =>
    cases k with
    | zero => simp [copyWrites]
    | succ k =>
      simp only [copyWrites, List.getElem?_cons_succ, ih _ (by simpa using h), List.take_succ_cons,
        List.map_cons, List.sum_cons, List.getElem_cons_succ]
      congr 2
      omega

theorem copyWrites_within (p : Nat) (frags : List Bytes) :
    ∀ x ∈ copyWrites p frags, p ≤ x.1 ∧ x.1 + x.2.length ≤ p + (frags.map List.length).sum := by
  induction frags generalizing p with
  | nil => simp [copyWrites]
  | cons f fs ih =>
    simp only [copyWrites, List.mem_cons, forall_eq_or_imp]
    refine ⟨by simp, fun x hx => ?_⟩
    have := ih (p + f.length) x hx
    simp only [List.map_cons, List.sum_cons]
    omega

section Copy
variable {σ : Type} (env : Env σ)

theorem copyNewdoc_eq_foldl (it : ItemRef) (p : Nat) (frags : List Bytes) (s : σ) :
    copyNewdoc env it p frags s =
      (copyWrites p frags).foldl (fun s x => env.engine.writeValue s it x.1 x.2) s := by
  induction frags generalizing p s with
  | nil => rfl
  | cons f fs ih => exact ih _ _

/-- Into an iovec that ends where the fragments do, the copy loop writes their concatenation
after `writePtr`. -/
theorem iov_copyNewdoc (ie : FirstIovec env.engine) (it : ItemRef) (frags : List Bytes) :
    ∀ (p : Nat) (s : σ), (ie.iov s it).length = p + (frags.map List.length).sum →
      ie.iov (copyNewdoc env it p frags s) it = (ie.iov s it).take p ++ frags.flatten := by
  induction frags with
  | nil => intro p s h; simp at h; simp [copyNewdoc, ← h]
  | cons f fs ih =>
    intro p s h
    simp only [List.map_cons, List.sum_cons] at h
    have hin : p + f.length ≤ (ie.iov s it).length := by omega
    rw [copyNewdoc, ih, ie.writeValue_iov _ _ _ _ hin, take_writeAt hin]
    · simp
    · rw [ie.writeValue_iov _ _ _ _ hin, length_writeAt hin]; omega

end Copy

/-! ## The steps of `subdoc_update` after a successful operation -/

section Steps
variable {σ : Type} (env : Env σ) (traits : CmdTraits) (req : SubdocRequest)

theorem documentForSearching_ok_cases {info : ItemInfo} {inCas docCas : UInt64} {doc : Bytes}
    (h : documentForSearching env info inCas = .ok (doc, docCas)) :
    docCas = info.cas ∧
      (info.datatype = protocolBinaryDatatypeJson ∧ info.value = [doc] ∨
        info.datatype = protocolBinaryDatatypeCompressedJson ∧
          ∃ v, info.value = [v] ∧ env.snappyUncompress v = some doc) := by
  unfold documentForSearching at h
  rcases hv : info.value with _ | ⟨value, _ | _⟩ <;> simp only [hv] at h
  · cases h
  · split_ifs at h with hA hj hc
    · cases h; exact ⟨rfl, .inl ⟨hj, rfl⟩⟩
    · revert h
      split
      · intro h; cases h
      · split_ifs
        · intro h; cases h
        · split
          · intro h; cases h
          · rename_i hu
            intro h; cases h; exact ⟨rfl, .inr ⟨hc, value, rfl, hu⟩⟩
  · cases h

theorem subdocOperate_success {w : World σ} {ctx : SubdocCmdContext} {item : ItemRef}
    {doc matchloc : Bytes} {docCas : UInt64} {frags : List Bytes}
    (hctx : w.conn.commandContext = some ctx) (hin : ctx.inDoc = none)
    (hitem : w.conn.item = some item)
    (hdoc : getDocumentForSearching env w.eng item req.cas = .ok (doc, docCas))
    (hop : subdocOpExec env traits req doc = (.success, ⟨matchloc, frags⟩)) :
    subdocOperate env traits req w = ((w.emit (.opExec doc)).setCommandContext
      (some { ctx with result := ⟨matchloc, frags⟩, inDoc := some doc, inCas := docCas }), true) := by
  simp [subdocOperate, hctx, hin, hitem, hdoc, hop]

theorem subdocAllocate_success {w : World σ} {ctx : SubdocCmdContext} {n : Nat} {s₁ : σ}
    {it : ItemRef} {info : ItemInfo}
    (hal : env.engine.allocate w.eng req.key n protocolBinaryDatatypeJson = (s₁, .success, it))
    (hinfo : env.engine.getItemInfo (env.engine.itemSetCas s₁ it ctx.inCas) it = some info) :
    subdocAllocate env req w ctx .success n =
      (⟨{ w.conn with commandContext := some { ctx with outDoc := some it } },
        copyNewdoc env it 0 ctx.result.newdoc (env.engine.itemSetCas s₁ it ctx.inCas),
        w.log ++ [.allocate req.key n .success it]⟩, .inr it) := by
  simp [subdocAllocate, engineAllocate, hal, hinfo]

/-- A mutation's first `subdoc_update` with an allocation that succeeds: it allocates, sets the
CAS and copies (`subdocAllocate_success`), then stores the new item. -/
theorem subdocUpdate_allocated {w : World σ} {ctx : SubdocCmdContext} {s₁ : σ} {it : ItemRef}
    {info : ItemInfo} (hmut : traits.isMutator = true) (hctx : w.conn.commandContext = some ctx)
    (hout : ctx.outDoc = none)
    (hal : env.engine.allocate w.eng req.key (ctx.result.newdoc.map List.length).sum
      protocolBinaryDatatypeJson = (s₁, .success, it))
    (hinfo : env.engine.getItemInfo (env.engine.itemSetCas s₁ it ctx.inCas) it = some info) :
    subdocUpdate env traits req w .success = subdocStore env req
      ⟨{ w.conn with commandContext := some { ctx with outDoc := some it } },
        copyNewdoc env it 0 ctx.result.newdoc (env.engine.itemSetCas s₁ it ctx.inCas),
        w.log ++ [.allocate req.key (ctx.result.newdoc.map List.length).sum .success it]⟩ it := by
  simp [subdocUpdate, hctx, hmut, hout, subdocAllocate_success env req hal hinfo]

theorem subdocStore_eng (w : World σ) (o : ItemRef) :
    (subdocStore env req w o).1.eng = (env.engine.store w.eng o .replace req.vbucket).1 := by
  unfold subdocStore engineStore
  dsimp only
  split_ifs <;> rfl

end Steps

/-- Take a mutation whose operation succeeds on the fetched document with fragments `frags`, and
an engine whose `allocate` gives an item whose first iovec has the fragments' total length. The
fetched document is the item's JSON value, or its COMPRESSED_JSON value uncompressed, and its
CAS is recorded as the input CAS. `subdoc_update` then allocates one item of that length with
datatype JSON, sets its CAS to the input CAS, copies the fragments with `memcpy`s that cover the
iovec from its start, each right after the one before and none past its end, so that it holds
the fragments' concatenation, and stores it with `OPERATION_REPLACE` under the request's
vbucket. -/
theorem subdoc_update_copies_newdoc {σ : Type} (env : Env σ) (ie : FirstIovec env.engine)
    (traits : CmdTraits) (req : SubdocRequest) {w : World σ} {ctx : SubdocCmdContext}
    {item : ItemRef} {doc matchloc : Bytes} {docCas : UInt64} {frags : List Bytes} {s₁ : σ}
    {it : ItemRef} {info : ItemInfo} (hmut : traits.isMutator = true)
    (hctx : w.conn.commandContext = some ctx) (hin : ctx.inDoc = none) (hout : ctx.outDoc = none)
    (hitem : w.conn.item = some item)
    (hdoc : getDocumentForSearching env w.eng item req.cas = .ok (doc, docCas))
    (hop : subdocOpExec env traits req doc = (.success, ⟨matchloc, frags⟩))
    (hal : env.engine.allocate w.eng req.key (frags.map List.length).sum
      protocolBinaryDatatypeJson = (s₁, .success, it))
    (hinfo : env.engine.getItemInfo (env.engine.itemSetCas s₁ it docCas) it = some info)
    (hsize : info.value.head?.map List.length = some (frags.map List.length).sum) :
    (∃ fetched, env.engine.getItemInfo w.eng item = some fetched ∧ docCas = fetched.cas ∧
      (fetched.datatype = protocolBinaryDatatypeJson ∧ fetched.value = [doc] ∨
        fetched.datatype = protocolBinaryDatatypeCompressedJson ∧
          ∃ v, fetched.value = [v] ∧ env.snappyUncompress v = some doc)) ∧
    ∃ w₂ ctx₂, subdocOperate env traits req w = (w₂, true) ∧
      w₂.conn.commandContext = some ctx₂ ∧ ctx₂.inCas = docCas ∧ w₂.eng = w.eng ∧
      subdocUpdate env traits req w₂ .success = subdocStore env req
        ⟨{ w₂.conn with commandContext := some { ctx₂ with outDoc := some it } },
          copyNewdoc env it 0 frags (env.engine.itemSetCas s₁ it docCas),
          w₂.log ++ [.allocate req.key (frags.map List.length).sum .success it]⟩ it ∧
      (subdocUpdate env traits req w₂ .success).1.eng = (env.engine.store
        (copyNewdoc env it 0 frags (env.engine.itemSetCas s₁ it docCas)) it .replace req.vbucket).1 ∧
      copyNewdoc env it 0 frags (env.engine.itemSetCas s₁ it docCas) =
        (copyWrites 0 frags).foldl (fun s x => env.engine.writeValue s it x.1 x.2)
          (env.engine.itemSetCas s₁ it docCas) ∧
      (∀ k (h : k < frags.length),
        (copyWrites 0 frags)[k]? = some (((frags.take k).map List.length).sum, frags[k])) ∧
      (∀ x ∈ copyWrites 0 frags, x.1 + x.2.length ≤ (frags.map List.length).sum) ∧
      ie.iov (copyNewdoc env it 0 frags (env.engine.itemSetCas s₁ it docCas)) it = frags.flatten := by
  obtain ⟨fetched, hf, hd⟩ : ∃ fetched, env.engine.getItemInfo w.eng item = some fetched ∧
      documentForSearching env fetched req.cas = .ok (doc, docCas) := by
    unfold getDocumentForSearching at hdoc
    split at hdoc
    · cases hdoc
    · exact ⟨_, ‹_›, hdoc⟩
  have hiov : (ie.iov (env.engine.itemSetCas s₁ it docCas) it).length =
      0 + (frags.map List.length).sum := by
    simpa [ie.getItemInfo_value _ _ _ hinfo] using hsize
  have hup := subdocUpdate_allocated env traits req (w := (w.emit (.opExec doc)).setCommandContext
    (some { ctx with result := ⟨matchloc, frags⟩, inDoc := some doc, inCas := docCas }))
    hmut rfl hout hal hinfo
  refine ⟨⟨fetched, hf, documentForSearching_ok_cases env hd⟩, _, _,
    subdocOperate_success env traits req hctx hin hitem hdoc hop, rfl, rfl, rfl, hup,
    by rw [hup, subdocStore_eng], copyNewdoc_eq_foldl env it 0 frags _,
    fun k h => by simpa using copyWrites_getElem? 0 frags h,
    fun x hx => by simpa using (copyWrites_within 0 frags x hx).2,
    by simpa using iov_copyNewdoc env ie it frags 0 _ hiov⟩

/-! ## Runs -/

section Runs

/-- An engine that keeps each item as its bytes, one iovec, and sets no CAS: enough to run
`subdoc_update`'s allocation and copy. -/
def bufferEngine : Engine (List Bytes) where
  get s _ _ := (s, .success, 0)
  getItemInfo s it := s[it]?.map fun v => ⟨0, protocolBinaryDatatypeJson, [v]⟩
  allocate s _ n _ := (s ++ [List.replicate n 0], .success, s.length)
  itemSetCas s _ _ := s
  writeValue s it off b := s.modify (fun v => writeAt v off b) it
  store s _ _ _ := (s, .success, 1)
  release s _ := s

def bufferIovec : FirstIovec bufferEngine where
  iov s it := s[it]?.getD []
  getItemInfo_value s it info h := by
    cases hs : s[it]? <;> simp [bufferEngine, hs] at h ⊢
    subst h; rfl
  writeValue_iov s it off b h := by
    dsimp only at h ⊢
    cases hs : s[it]? with
    | none =>
      simp only [hs, Option.getD_none, List.length_nil] at h
      simp [bufferEngine, List.getElem?_modify, hs, writeAt,
        List.eq_nil_of_length_eq_zero (by omega : b.length = 0)]
    | some v => simp [bufferEngine, List.getElem?_modify, hs]

/-- A mutation on item 0, which holds `{}` as JSON, its context fresh from `subdoc_fetch`. -/
def updateWorld : World (List Bytes) :=
  ⟨⟨some 0, some .new, .success, false, .execute, 0⟩, [[0x7b, 0x7d]], []⟩

theorem subdoc_update_copies_newdoc_updateWorld :
    ∃ w₂, subdocOperate (scriptedEnv _ bufferEngine) mutatorTraits (scriptedRequest 0)
        updateWorld = (w₂, true) ∧
      (subdocUpdate (scriptedEnv _ bufferEngine) mutatorTraits (scriptedRequest 0) w₂ .success).1.eng =
        [[0x7b, 0x7d], [0x7b, 0x7d, 0x20]] := by
  obtain ⟨-, w₂, -, hop, -, -, -, -, heng, -⟩ := subdoc_update_copies_newdoc (scriptedEnv _ bufferEngine)
    bufferIovec mutatorTraits (scriptedRequest 0) (w := updateWorld) rfl rfl rfl rfl rfl rfl rfl rfl rfl rfl
  exact ⟨w₂, hop, heng⟩

end Runs

end Memcached.SubdocUpdate
