import Memcached.ExecutorRuns

set_option autoImplicit false

/-!
# What a command does to the engine

The executor reaches the engine through six calls: `get`, `allocate`, `item_set_cas`, the
`memcpy` into an item's value, `store` and `release`. Two facts over every run of a command,
across auto-retries and suspensions, for every result the engine gives:

* a lookup (`is_mutator` false) only reads: the events it logs hold no `allocate` and no
  `store`, and the engine it leaves is the one it found with the logged `get`s and `release`s
  applied in order, so it never sets a CAS or writes a value either;
* a mutation stores only an item it holds: at every `store` in the log, the item has been
  obtained from the engine more often than it has been released.
-/

namespace Memcached.ExecutorFootprint
open Memcached.Protocol Memcached.SubdocExecutor Memcached.ExecutorRuns

/-- `allocate` and `store`: the logged engine calls that create or replace an item. -/
def writes : Event → Bool
  | .allocate .. | .store .. => true
  | _ => false

theorem ne_store_of_writes {e : Event} (h : writes e = false) (it : ItemRef)
    (ret : EngineErrorCode) : e ≠ .store it ret := by
  rintro rfl; cases h

section Reads
variable {σ : Type} (engine : Engine σ)

/-- The engine after the logged `get`s and `release`s, applied in order. -/
def replayReads : σ → List Event → σ
  | eng, [] => eng
  | eng, .get key vbucket _ _ :: es => replayReads (engine.get eng key vbucket).1 es
  | eng, .release it :: es => replayReads (engine.release eng it) es
  | eng, _ :: es => replayReads eng es

theorem replayReads_append (eng : σ) (es₁ es₂ : List Event) :
    replayReads engine eng (es₁ ++ es₂) =
      replayReads engine (replayReads engine eng es₁) es₂ := by
  induction es₁ generalizing eng with
  | nil => rfl
  | cons e es ih => cases e <;> exact ih _

/-- `w'` is `w` after engine calls that only read: the events logged since `w` hold no
`allocate` or `store`, and the engine is `w`'s with the logged `get`s and `release`s applied. -/
def ReadStep (w w' : World σ) : Prop :=
  ∃ es, w'.log = w.log ++ es ∧ (∀ e ∈ es, writes e = false) ∧
    w'.eng = replayReads engine w.eng es

variable {engine}

theorem ReadStep.refl (w : World σ) : ReadStep engine w w := ⟨[], by simp, by simp, rfl⟩

theorem ReadStep.trans {w₁ w₂ w₃ : World σ} (h₁ : ReadStep engine w₁ w₂)
    (h₂ : ReadStep engine w₂ w₃) : ReadStep engine w₁ w₃ := by
  obtain ⟨es₁, hl₁, hw₁, he₁⟩ := h₁
  obtain ⟨es₂, hl₂, hw₂, he₂⟩ := h₂
  exact ⟨es₁ ++ es₂, by rw [hl₂, hl₁, List.append_assoc], List.forall_mem_append.2 ⟨hw₁, hw₂⟩,
    by rw [he₂, he₁, replayReads_append]⟩

theorem readStep_frame {w w' : World σ} (hl : w'.log = w.log) (he : w'.eng = w.eng) :
    ReadStep engine w w' :=
  ⟨[], by simp [hl], by simp, he⟩

theorem readStep_emit (w : World σ) {e : Event} (hw : writes e = false)
    (hr : ∀ eng, replayReads engine eng [e] = eng) : ReadStep engine w (w.emit e) :=
  ⟨[e], rfl, by simpa using hw, (hr w.eng).symm⟩

theorem readStep_respond (w : World σ) (r : Response) : ReadStep engine w (w.emit (.respond r)) :=
  readStep_emit w rfl fun _ => rfl

theorem readStep_crash (w : World σ) : ReadStep engine w (w.emit .crash) :=
  readStep_emit w rfl fun _ => rfl

end Reads

section Steps
variable {σ : Type} (env : Env σ) (traits : CmdTraits) (req : SubdocRequest)

theorem readStep_engineGet (w : World σ) : ReadStep env.engine w (engineGet env req w).1 :=
  ⟨_, rfl, by simp [writes], rfl⟩

theorem readStep_subdocFetch (w : World σ) (ret : EngineErrorCode) :
    ReadStep env.engine w (subdocFetch env req w ret).1 := by
  unfold subdocFetch
  split
  · exact .refl w
  by_cases hret : ret = .success
  · simp only [hret, if_true]
    have hg := readStep_engineGet env req w
    rcases h : engineGet env req w with ⟨w₁, r, it⟩
    rw [h] at hg
    dsimp only
    split_ifs
    · exact hg.trans (readStep_crash _)
    · exact hg.trans (readStep_frame rfl rfl)
    · exact hg.trans (readStep_frame rfl rfl)
    · exact hg.trans (readStep_frame rfl rfl)
    · exact hg.trans (readStep_respond _ _)
  · simp only [hret, if_false]
    split_ifs
    · exact readStep_frame rfl rfl
    · exact readStep_frame rfl rfl
    · exact readStep_respond _ _

theorem readStep_subdocOperate (w : World σ) :
    ReadStep env.engine w (subdocOperate env traits req w).1 := by
  unfold subdocOperate
  rcases w.conn.commandContext with _ | c
  · exact readStep_crash _
  dsimp only
  split_ifs
  · exact .refl w
  rcases w.conn.item with _ | it
  · exact readStep_crash _
  dsimp only
  rcases getDocumentForSearching env w.eng it req.cas with status | ⟨doc, docCas⟩
  · exact readStep_respond _ _
  rcases subdocOpExec env traits req doc with ⟨res, result⟩
  have ho : ReadStep env.engine w (w.emit (.opExec doc)) := readStep_emit _ rfl fun _ => rfl
  dsimp only
  split_ifs
  · exact ho.trans (readStep_frame rfl rfl)
  · exact (ho.trans (readStep_frame rfl rfl)).trans (readStep_respond _ _)

theorem readStep_subdocUpdate (hm : traits.isMutator = false) (w : World σ)
    (ret : EngineErrorCode) : ReadStep env.engine w (subdocUpdate env traits req w ret).1 := by
  unfold subdocUpdate
  rcases w.conn.commandContext with _ | c
  · exact readStep_crash _
  · simp only [hm, Bool.not_false, if_true]
    exact readStep_frame rfl rfl

theorem readStep_subdocResponse (w : World σ) :
    ReadStep env.engine w (subdocResponse env traits w) := by
  unfold subdocResponse
  rcases w.conn.commandContext with _ | c
  · exact readStep_crash _
  dsimp only
  split_ifs
  all_goals first
    | exact readStep_frame rfl rfl
    | exact (readStep_respond _ _).trans (readStep_frame rfl rfl)

theorem readStep_releaseItemAndContext (w : World σ) :
    ReadStep env.engine w (releaseItemAndContext env w) := by
  unfold releaseItemAndContext
  rcases w.conn.item with _ | it <;>
    rcases hc : w.conn.commandContext with _ | ⟨inDoc, inCas, result, _ | d⟩ <;>
    simp only [hc, engineRelease, World.setItem, World.setCommandContext]
  all_goals first
    | exact readStep_frame rfl rfl
    | exact ⟨_, rfl, by simp [writes], rfl⟩
    | exact ⟨[.release _, .release _], by simp, by simp [writes], rfl⟩

/-- One entry into the executor loop of a lookup only reads, whatever the engine returns. -/
theorem readStep_executorLoop (hm : traits.isMutator = false) (autoRetry : Bool) :
    ∀ (fuel attempts : Nat) (ret : EngineErrorCode) (w : World σ),
      ReadStep env.engine w (executorLoop env traits req autoRetry fuel attempts ret w) := by
  intro fuel
  induction fuel with
  | zero => intro _ _ w; exact .refl w
  | succ fuel ih =>
    intro attempts ret w
    have hf := readStep_subdocFetch env req w ret
    rw [executorLoop]
    rcases hfetch : subdocFetch env req w ret with ⟨w₁, _ | _⟩ <;> rw [hfetch] at hf
    · exact hf
    dsimp only
    have ho := hf.trans (readStep_subdocOperate env traits req w₁)
    rcases hop : subdocOperate env traits req w₁ with ⟨w₂, _ | _⟩ <;> rw [hop] at ho
    · exact ho
    dsimp only
    have hu := ho.trans (readStep_subdocUpdate env traits req hm w₂ ret)
    rcases hup : subdocUpdate env traits req w₂ ret with ⟨w₃, ret₃⟩
    rw [hup] at hu
    have hr := hu.trans (readStep_releaseItemAndContext env w₃)
    dsimp only
    split_ifs
    · exact hr.trans (ih _ _ _)
    · exact hr.trans (readStep_respond _ _)
    · exact hu.trans (readStep_respond _ _)
    · exact hu
    · exact hu.trans (readStep_subdocResponse env traits w₃)

/-- Over every run of a lookup, from any world it starts in, for every result the engine gives
at each call and at each completion: the events it logs hold no `allocate` and no `store`,
and the engine is the one it started with, changed only by the logged `get`s and `release`s
in order. No `item_set_cas` and no write into an item's value happens. -/
theorem subdoc_lookup_reads_only (hm : traits.isMutator = false) {w₀ w : World σ}
    (h : RunFrom env traits req w₀ w) :
    ∃ es, w.log = w₀.log ++ es ∧ (∀ e ∈ es, writes e = false) ∧
      w.eng = replayReads env.engine w₀.eng es := by
  have entry : ∀ w : World σ, ReadStep env.engine w (subdocExecutor env traits req w) :=
    fun w => (readStep_frame rfl rfl).trans (readStep_executorLoop env traits req hm _ _ _ _ _)
  show ReadStep env.engine w₀ w
  induction h with
  | start => exact entry w₀
  | resume s _ _ ih => exact (ih.trans (readStep_frame rfl rfl)).trans (entry _)

end Steps

/-! ## Stores of held items -/

/-- Every `store` in the log is of an item obtained from the engine more often than it was
released before that point: an item the command holds. -/
def StoresHeld (log : List Event) : Prop :=
  ∀ pre it ret post, log = pre ++ .store it ret :: post →
    (released pre).count it < (obtained pre).count it

theorem append_eq_append_cons {α : Type} {l es pre post : List α} {x : α}
    (h : l ++ es = pre ++ x :: post) :
    (∃ post', l = pre ++ x :: post') ∨ ∃ es₁ es₂, pre = l ++ es₁ ∧ es = es₁ ++ x :: es₂ := by
  rcases List.append_eq_append_iff.1 h with ⟨a', hpre, hes⟩ | ⟨c', hl, hx⟩
  · exact .inr ⟨a', post, hpre, hes⟩
  · rcases c' with _ | ⟨y, c'⟩
    · exact .inr ⟨[], post, by simpa using hl.symm, by simpa using hx.symm⟩
    · obtain ⟨rfl, rfl⟩ := List.cons_eq_cons.1 hx
      exact .inl ⟨c', hl⟩

theorem StoresHeld.append {l es : List Event} (h : StoresHeld l)
    (hes : ∀ e ∈ es, ∀ it ret, e ≠ .store it ret) : StoresHeld (l ++ es) := by
  intro pre it ret post hl
  rcases append_eq_append_cons hl with ⟨post', hl'⟩ | ⟨es₁, es₂, -, rfl⟩
  · exact h pre it ret post' hl'
  · exact absurd rfl (hes _ (by simp) it ret)

theorem StoresHeld.concat_store {l : List Event} {o : ItemRef} (h : StoresHeld l)
    (ret : EngineErrorCode) (hc : (released l).count o < (obtained l).count o) :
    StoresHeld (l ++ [.store o ret]) := by
  intro pre it r post hl
  rcases append_eq_append_cons hl with ⟨post', hl'⟩ | ⟨es₁, es₂, rfl, hes⟩
  · exact h pre it r post' hl'
  · rcases es₁ with _ | ⟨_, _ | _⟩
    · cases hes
      simpa using hc
    · cases hes
    · cases hes

theorem ReadStep.storesHeld {σ : Type} {engine : Engine σ} {w w' : World σ}
    (h : ReadStep engine w w') (hs : StoresHeld w.log) : StoresHeld w'.log := by
  obtain ⟨es, hl, hw, -⟩ := h
  rw [hl]
  exact hs.append fun e he => ne_store_of_writes (hw e he)

section Stores
variable {σ : Type} (env : Env σ) (traits : CmdTraits) (req : SubdocRequest)

theorem count_released_lt_of_held {w : World σ} (hi : ItemsInv w) {o : ItemRef}
    (ho : o ∈ held w.conn) : (released w.log).count o < (obtained w.log).count o := by
  rw [hi.balance.count_eq, List.count_append]
  exact Nat.lt_add_of_pos_right (List.count_pos_iff.2 ho)

theorem storesHeld_subdocStore {w : World σ} (hi : ItemsInv w) (hs : StoresHeld w.log)
    {o : ItemRef} (ho : o ∈ held w.conn) : StoresHeld (subdocStore env req w o).1.log := by
  have h := hs.concat_store (env.engine.store w.eng o .replace req.vbucket).2.1
    (count_released_lt_of_held hi ho)
  unfold subdocStore engineStore
  dsimp only
  split_ifs
  all_goals first | exact h | exact h.append (by simp)

theorem storesHeld_subdocAllocate {w : World σ} (hs : StoresHeld w.log) (c : SubdocCmdContext)
    (ret : EngineErrorCode) (n : Nat) : StoresHeld (subdocAllocate env req w c ret n).1.log := by
  unfold subdocAllocate
  by_cases hret : ret = .success
  · simp only [hret, if_true, engineAllocate]
    rcases env.engine.allocate w.eng req.key n protocolBinaryDatatypeJson with ⟨e, code, d⟩
    have ha : StoresHeld (w.log ++ [.allocate req.key n code d]) := hs.append (by simp)
    dsimp only
    split_ifs
    · split
      · exact ha.append (by simp)
      · exact ha
    all_goals first | exact ha | exact ha.append (by simp)
  · simp only [hret, if_false]
    split_ifs
    all_goals first | exact hs | exact hs.append (by simp)

theorem subdocAllocate_outDoc {w w₁ : World σ} {c : SubdocCmdContext} {ret : EngineErrorCode}
    {n : Nat} {o : ItemRef} (h : subdocAllocate env req w c ret n = (w₁, .inr o)) :
    outDocOf w₁.conn = some o := by
  unfold subdocAllocate at h
  by_cases hret : ret = .success
  · simp only [hret, if_true, engineAllocate] at h
    split_ifs at h
    · split at h
      · cases h
      · cases h; rfl
    all_goals cases h
  · simp only [hret, if_false] at h
    split_ifs at h <;> cases h

theorem storesHeld_subdocUpdate {w : World σ} (hi : ItemsInv w)
    (hctx : w.conn.commandContext.isSome) (ret : EngineErrorCode) (hs : StoresHeld w.log) :
    StoresHeld (subdocUpdate env traits req w ret).1.log := by
  obtain ⟨c, hc⟩ := Option.isSome_iff_exists.mp hctx
  rcases h : subdocUpdate env traits req w ret with ⟨w', r⟩
  rcases subdocUpdate_cases env traits req hc h with ⟨-, rfl, -⟩ |
    ⟨-, ⟨o, ho, hst⟩ | ⟨-, hal⟩ | ⟨hno, w₁, o, hal, hst⟩⟩
  · exact hs
  · have := storesHeld_subdocStore env req hi hs
      (by simp [held, outDocOf, hc, ho] : o ∈ held w.conn)
    rwa [hst] at this
  · have := storesHeld_subdocAllocate env req hs c ret (c.result.newdoc.map List.length).sum
    rwa [hal] at this
  · have ha := itemsInv_subdocAllocate env req hi hc hno ret (c.result.newdoc.map List.length).sum
    have hsa := storesHeld_subdocAllocate env req hs c ret (c.result.newdoc.map List.length).sum
    rw [hal] at ha hsa
    have := storesHeld_subdocStore env req ha.1 hsa
      (by simp [held, subdocAllocate_outDoc env req hal] : o ∈ held w₁.conn)
    rwa [hst] at this

theorem storesHeld_executorLoop (autoRetry : Bool) :
    ∀ (fuel attempts : Nat) (ret : EngineErrorCode) {w : World σ}, ItemsInv w →
      StoresHeld w.log →
        StoresHeld (executorLoop env traits req autoRetry fuel attempts ret w).log := by
  intro fuel
  induction fuel with
  | zero => intro _ _ w _ hs; exact hs
  | succ fuel ih =>
    intro attempts ret w hi hs
    have hf := itemsInv_subdocFetch env req hi ret
    have hfs := (readStep_subdocFetch env req w ret).storesHeld hs
    rw [executorLoop]
    rcases hfetch : subdocFetch env req w ret with ⟨w₁, _ | _⟩ <;> rw [hfetch] at hf hfs
    · exact hfs
    dsimp only
    have hc₁ : w₁.conn.commandContext.isSome := hf.1.item_iff ▸ hf.2 rfl
    have ho := itemsInv_subdocOperate env traits req hf.1 hc₁
    have hos := (readStep_subdocOperate env traits req w₁).storesHeld hfs
    rcases hop : subdocOperate env traits req w₁ with ⟨w₂, _ | _⟩ <;> rw [hop] at ho hos
    · exact hos
    dsimp only
    have hu := itemsInv_subdocUpdate env traits req ho.1 ho.2 ret
    have hus := storesHeld_subdocUpdate env traits req ho.1 ho.2 ret hos
    rcases hup : subdocUpdate env traits req w₂ ret with ⟨w₃, ret₃⟩
    rw [hup] at hu hus
    have hr := (readStep_releaseItemAndContext env w₃).storesHeld hus
    dsimp only
    split_ifs
    · exact ih _ _ (itemsInv_releaseItemAndContext env hu.1).1 hr
    · exact hr.append (by simp)
    · exact hus.append (by simp)
    · exact hus
    · exact (readStep_subdocResponse env traits w₃).storesHeld hus

/-- Over every run of a command from a fresh connection, across auto-retries and suspensions,
for every result the engine gives: each `store` the executor issues is of an item it holds,
obtained from `get` or `allocate` more often than released before the store. The executor
never stores an item it has released, nor one it never obtained. -/
theorem subdoc_stores_held_items {w : World σ} (h : Reachable env traits req w) :
    ∀ pre it ret post, w.log = pre ++ .store it ret :: post →
      (released pre).count it < (obtained pre).count it := by
  induction h with
  | start hf =>
    refine storesHeld_executorLoop env traits req _ _ _ _ ?_ ?_
    · exact ItemsInv.setConn ⟨by simp [hf.item, hf.context],
        by simp [hf.log, held, outDocOf, hf.item, hf.context, obtained, released],
        by simp [hf.log]⟩ rfl rfl
    · intro pre it ret post hl
      simp [hf.log] at hl
  | resume s h _ ih =>
    exact storesHeld_executorLoop env traits req _ _ _ _
      (((itemsInv_reachable env traits req h).setConn rfl rfl).setConn rfl rfl) ih

end Stores

/-! ## Runs -/

/-- A lookup without a value, such as `SUBDOC_GET`. -/
def lookupTraits : CmdTraits :=
  { isMutator := false, requestHasValue := false, responseHasValue := true,
    allowEmptyPath := false, validFlags := 0, optype := 0 }

theorem subdoc_lookup_reads_only_lookupTraits :
    lookupTraits.isMutator = false ∧
      ∃ es, (subdocExecutor (scriptedEnv _ (scriptedEngine scriptedInfo)) lookupTraits
          (scriptedRequest 0) (freshWorld ⟨[(.success, 1)], [], []⟩)).log =
          (freshWorld (⟨[(.success, 1)], [], []⟩ : Script)).log ++ es ∧
        (∀ e ∈ es, writes e = false) ∧
        (subdocExecutor (scriptedEnv _ (scriptedEngine scriptedInfo)) lookupTraits
          (scriptedRequest 0) (freshWorld ⟨[(.success, 1)], [], []⟩)).eng =
          replayReads (scriptedEngine scriptedInfo)
            (freshWorld (⟨[(.success, 1)], [], []⟩ : Script)).eng es :=
  ⟨rfl, subdoc_lookup_reads_only _ _ _ rfl .start⟩

theorem subdoc_stores_held_items_retryRun :
    Reachable (scriptedEnv _ conflictingEngine) mutatorTraits (scriptedRequest 0) (retryRun 2) ∧
      ∀ pre it ret post, (retryRun 2).log = pre ++ .store it ret :: post →
        (released pre).count it < (obtained pre).count it :=
  ⟨retryRun_reachable 2, subdoc_stores_held_items _ _ _ (retryRun_reachable 2)⟩

end Memcached.ExecutorFootprint
