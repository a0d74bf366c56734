import Memcached.ExecutorRuns
import Mathlib

set_option autoImplicit false

/-!
# What one entry into the executor does

An entry into `subdoc_executor<CMD>` should end in one of two ways: it sends exactly one
response and the connection goes on, or it sends none because an engine call would block
(`ewouldblock`) or the connection is closing. This holds for every entry of every run, every
engine and every completion status, as long as `subdoc_update`'s allocation step never sees
`KEY_EEXISTS`: there its `default` branch writes a response and returns the code, and the
executor's retry test answers a second time. The theorem assumes exactly that away: the
engine's `allocate` never returns `KEY_EEXISTS`, and the entry does not resume with it.

Each function of the executor gets one lemma saying how it leaves the entry (`Ends`,
`UpdateEnds`); the loop is then an induction on its fuel that chains them.

The attempt counter bounds the work of one entry, whatever the engine returns: at most
`MAXIMUM_ATTEMPTS` calls each of `get`, `allocate` and `store`. Across suspensions the counter
starts again (`retryRun_exceeds_maximum_attempts`), so this bound is per entry only. A request
that names a CAS is not auto-retried, and its entry makes at most one call of each kind.
-/

namespace Memcached.ExecutorEntries
open Memcached.Protocol Memcached.SubdocExecutor Memcached.ExecutorRuns

/-- The connection neither waits on the engine nor is closing. -/
def Running (c : Connection) : Prop := c.ewouldblock = false ∧ c.state ≠ .closing

instance (c : Connection) : Decidable (Running c) := inferInstanceAs (Decidable (_ ∧ _))

section Answers
variable {σ : Type}

/-- From `w` to `w'` nothing was answered. -/
def Silent (w w' : World σ) : Prop := ∃ es, w'.log = w.log ++ es ∧ responses es = []

/-- From `w` to `w'` the entry ended: with one response if the connection is still running,
with none if it waits on the engine or is closing. -/
def Answered (w w' : World σ) : Prop :=
  ∃ es, w'.log = w.log ++ es ∧ (responses es).length = if Running w'.conn then 1 else 0

/-- How a step that answers "go on?" leaves the entry: going on, it sent nothing and the
connection runs; stopping, it ended the entry. -/
def Ends (w w' : World σ) : Bool → Prop
  | true => Silent w w' ∧ Running w'.conn
  | false => Answered w w'

/-- How `subdoc_update` leaves the entry when it returns `r`: on `SUCCESS` and `KEY_EEXISTS`
the executor answers; any other code has ended the entry. -/
def UpdateEnds (w w' : World σ) (r : EngineErrorCode) : Prop :=
  (r = .success ∨ r = .keyEexists) ∧ Silent w w' ∧ Running w'.conn ∨
    r ≠ .success ∧ r ≠ .keyEexists ∧ Answered w w'

theorem Silent.refl (w : World σ) : Silent w w := ⟨[], by simp, rfl⟩

theorem silent_frame {w w' : World σ} (hl : w'.log = w.log) : Silent w w' :=
  ⟨[], by simp [hl], rfl⟩

theorem Silent.trans {w₁ w₂ w₃ : World σ} (h₁ : Silent w₁ w₂) (h₂ : Silent w₂ w₃) :
    Silent w₁ w₃ := by
  obtain ⟨es₁, hl₁, hr₁⟩ := h₁
  obtain ⟨es₂, hl₂, hr₂⟩ := h₂
  exact ⟨es₁ ++ es₂, by rw [hl₂, hl₁, List.append_assoc], by simp [hr₁, hr₂]⟩

theorem Silent.answered {w₁ w₂ w₃ : World σ} (h₁ : Silent w₁ w₂) (h₂ : Answered w₂ w₃) :
    Answered w₁ w₃ := by
  obtain ⟨es₁, hl₁, hr₁⟩ := h₁
  obtain ⟨es₂, hl₂, hr₂⟩ := h₂
  exact ⟨es₁ ++ es₂, by rw [hl₂, hl₁, List.append_assoc], by simpa [hr₁] using hr₂⟩

theorem Silent.updateEnds {w₁ w₂ w₃ : World σ} {r : EngineErrorCode} (h₁ : Silent w₁ w₂)
    (h₂ : UpdateEnds w₂ w₃ r) : UpdateEnds w₁ w₃ r :=
  h₂.imp (fun h => ⟨h.1, h₁.trans h.2.1, h.2.2⟩) fun h => ⟨h.1, h.2.1, h₁.answered h.2.2⟩

theorem Silent.respond {w₀ w : World σ} {r : Response} (h : Silent w₀ w) (hr : Running w.conn) :
    Answered w₀ (w.emit (.respond r)) :=
  h.answered ⟨[.respond r], rfl, by rw [if_pos (show Running (w.emit _).conn from hr)]; rfl⟩

theorem Silent.stop {w₀ w : World σ} (h : Silent w₀ w) (hs : ¬Running w.conn) : Answered w₀ w :=
  h.answered ⟨[], by simp, by rw [if_neg hs]; rfl⟩

theorem not_running_suspended (w : World σ) : ¬Running (w.setEwouldblock true).conn :=
  fun h => nomatch h.1

theorem not_running_closing (w : World σ) : ¬Running (w.setState .closing).conn :=
  fun h => h.2 rfl

theorem responses_map_release (l : List ItemRef) : responses (l.map Event.release) = [] := by
  induction l with
  | nil => rfl
  | cons _ _ ih => exact ih

end Answers

section Steps
variable {σ : Type} (env : Env σ) (traits : CmdTraits) (req : SubdocRequest)

theorem subdocFetch_ends {w : World σ} (hi : ItemsInv w) (hr : Running w.conn)
    (ret : EngineErrorCode) :
    Ends w (subdocFetch env req w ret).1 (subdocFetch env req w ret).2 := by
  unfold subdocFetch
  cases hitem : w.conn.item with
  | some _ => exact ⟨.refl w, hr⟩
  | none =>
    have hctx : w.conn.commandContext = none := by
      have := hi.item_iff; rw [hitem] at this; exact Option.not_isSome_iff_eq_none.mp (by simp_all)
    have hg : Silent w (if ret = .success then engineGet env req w else (w, ret, default)).1 ∧
        (if ret = .success then engineGet env req w else (w, ret, default)).1.conn = w.conn := by
      split
      · exact ⟨⟨[_], rfl, rfl⟩, rfl⟩
      · exact ⟨.refl w, rfl⟩
    rcases h : (if ret = .success then engineGet env req w else (w, ret, default)) with
      ⟨w₁, r, it⟩
    rw [h] at hg
    dsimp only at hg
    obtain ⟨hs, hconn⟩ := hg
    have hr₁ : Running w₁.conn := hconn ▸ hr
    have hs₁ : ∀ {w' : World σ}, w'.log = w₁.log → Silent w w' := fun hl => hs.trans (silent_frame hl)
    dsimp only
    split_ifs with h₁ h₂
    · simp [hconn, hctx] at h₂
    · exact ⟨hs₁ rfl, hr₁⟩
    · exact Silent.stop (hs₁ rfl) (not_running_suspended _)
    · exact Silent.stop (hs₁ rfl) (not_running_closing _)
    · exact Silent.respond hs hr₁

theorem subdocOperate_ends {w : World σ} (hi : ItemsInv w) (hctx : w.conn.commandContext.isSome)
    (hr : Running w.conn) :
    Ends w (subdocOperate env traits req w).1 (subdocOperate env traits req w).2 := by
  obtain ⟨c, hc⟩ := Option.isSome_iff_exists.mp hctx
  obtain ⟨it, hit⟩ : ∃ it, w.conn.item = some it :=
    Option.isSome_iff_exists.mp (hi.item_iff.trans hctx)
  unfold subdocOperate
  simp only [hc, hit]
  by_cases hdoc : c.inDoc.isSome
  · simp only [hdoc, if_true]; exact ⟨.refl w, hr⟩
  · simp only [hdoc, Bool.false_eq_true, if_false]
    split
    · exact Silent.respond (.refl w) hr
    · rename_i doc docCas _
      rcases subdocOpExec env traits req doc with ⟨res, result⟩
      have hs : ∀ {w' : World σ}, w'.log = w.log ++ [.opExec doc] → Silent w w' :=
        fun hl => ⟨[_], hl, rfl⟩
      dsimp only
      split_ifs
      · exact ⟨hs rfl, hr⟩
      · exact Silent.respond (hs rfl) hr

theorem subdocStore_ends {w : World σ} (hr : Running w.conn) (o : ItemRef) :
    UpdateEnds w (subdocStore env req w o).1 (subdocStore env req w o).2 := by
  unfold subdocStore engineStore
  rcases env.engine.store w.eng o .replace req.vbucket with ⟨e, code, cas⟩
  have hs : ∀ {w' : World σ}, w'.log = w.log ++ [.store o code] → Silent w w' :=
    fun hl => ⟨[_], hl, rfl⟩
  dsimp only
  split_ifs with h₁ h₂
  · exact .inl ⟨.inl h₁, hs rfl, hr⟩
  · exact .inl ⟨.inr h₂, hs rfl, hr⟩
  · exact .inr ⟨h₁, h₂, Silent.stop (hs rfl) (not_running_suspended _)⟩
  · exact .inr ⟨h₁, h₂, Silent.stop (hs rfl) (not_running_closing _)⟩
  · exact .inr ⟨h₁, h₂, Silent.respond (hs rfl) hr⟩

section Allocate
variable (hA : ∀ eng key nbytes datatype,
  (env.engine.allocate eng key nbytes datatype).2.1 ≠ .keyEexists)
include hA

/-- The allocation step goes on with the new item, silently; or it ended the entry and returns a
code other than `SUCCESS` and `KEY_EEXISTS`, as long as neither the engine nor the completion
status it is given is `KEY_EEXISTS`. -/
theorem subdocAllocate_ends {w : World σ} (hr : Running w.conn) (c : SubdocCmdContext)
    {ret : EngineErrorCode} (hret : ret ≠ .keyEexists) (n : Nat) :
    Ends w (subdocAllocate env req w c ret n).1 (subdocAllocate env req w c ret n).2.isRight ∧
      ∀ r, (subdocAllocate env req w c ret n).2 = .inl r → r ≠ .success ∧ r ≠ .keyEexists := by
  unfold subdocAllocate
  have hg : Silent w (if ret = .success then engineAllocate env req w n else (w, ret, default)).1 ∧
      (if ret = .success then engineAllocate env req w n else (w, ret, default)).1.conn = w.conn ∧
      (if ret = .success then engineAllocate env req w n else (w, ret, default)).2.1 ≠
        .keyEexists := by
    split
    · exact ⟨⟨[_], rfl, rfl⟩, rfl, hA _ _ _ _⟩
    · exact ⟨.refl w, rfl, hret⟩
  rcases h : (if ret = .success then engineAllocate env req w n else (w, ret, default)) with
    ⟨w₁, r, d⟩
  rw [h] at hg
  dsimp only at hg
  obtain ⟨hs, hconn, hcode⟩ := hg
  have hr₁ : Running w₁.conn := hconn ▸ hr
  have hs₁ : ∀ {w' : World σ}, w'.log = w₁.log → Silent w w' := fun hl => hs.trans (silent_frame hl)
  dsimp only
  split_ifs with h₁ h₂
  · split
    · exact ⟨Silent.respond (hs₁ rfl) hr₁, by rintro _ ⟨⟩; decide⟩
    · exact ⟨⟨hs₁ rfl, hr₁⟩, by rintro _ ⟨⟩⟩
  · exact ⟨Silent.stop (hs₁ rfl) (not_running_suspended _), by rintro _ ⟨⟩; exact ⟨h₁, hcode⟩⟩
  · exact ⟨Silent.stop (hs₁ rfl) (not_running_closing _), by rintro _ ⟨⟩; exact ⟨h₁, hcode⟩⟩
  · exact ⟨Silent.respond hs hr₁, by rintro _ ⟨⟩; exact ⟨h₁, hcode⟩⟩

theorem subdocUpdate_ends {w : World σ} (hctx : w.conn.commandContext.isSome)
    (hr : Running w.conn) {ret : EngineErrorCode} (hret : ret ≠ .keyEexists) :
    UpdateEnds w (subdocUpdate env traits req w ret).1 (subdocUpdate env traits req w ret).2 := by
  obtain ⟨c, hc⟩ := Option.isSome_iff_exists.mp hctx
  rcases h : subdocUpdate env traits req w ret with ⟨w', r⟩
  rcases subdocUpdate_cases env traits req hc h with ⟨-, rfl, rfl⟩ |
    ⟨-, ⟨o, -, hs⟩ | ⟨-, hal⟩ | ⟨-, w₁, o, hal, hs⟩⟩
  · exact .inl ⟨.inl rfl, silent_frame rfl, hr⟩
  · have := subdocStore_ends env req hr o
    rwa [hs] at this
  · have := subdocAllocate_ends env req hA hr c hret (c.result.newdoc.map List.length).sum
    rw [hal] at this
    obtain ⟨h₁, h₂⟩ := this.2 r rfl
    exact .inr ⟨h₁, h₂, this.1⟩
  · have ha := subdocAllocate_ends env req hA hr c hret (c.result.newdoc.map List.length).sum
    rw [hal] at ha
    have := subdocStore_ends env req ha.1.2 o
    rw [hs] at this
    exact ha.1.1.updateEnds this

end Allocate

theorem subdocResponse_ends {w : World σ} (hctx : w.conn.commandContext.isSome)
    (hr : Running w.conn) : Answered w (subdocResponse env traits w) := by
  obtain ⟨c, hc⟩ := Option.isSome_iff_exists.mp hctx
  unfold subdocResponse
  simp only [hc]
  split_ifs <;>
    first
    | exact Silent.stop (.refl w) (not_running_closing w)
    | exact ⟨[.respond _], rfl, by rw [if_pos ⟨hr.1, nofun⟩]; rfl⟩

theorem releaseItemAndContext_conn_log (w : World σ) :
    (releaseItemAndContext env w).conn =
        { w.conn with item := none, commandContext := none } ∧
      (releaseItemAndContext env w).log = w.log ++ (held w.conn).map Event.release := by
  unfold releaseItemAndContext
  rcases hitem : w.conn.item with _ | it <;>
    rcases hc : w.conn.commandContext with _ | ⟨inDoc, inCas, result, _ | d⟩ <;>
    simp_all [engineRelease, held, outDocOf]

theorem releaseItemAndContext_silent (w : World σ) : Silent w (releaseItemAndContext env w) :=
  ⟨_, (releaseItemAndContext_conn_log env w).2, responses_map_release _⟩

theorem running_releaseItemAndContext {w : World σ} (hr : Running w.conn) :
    Running (releaseItemAndContext env w).conn := by
  rw [(releaseItemAndContext_conn_log env w).1]; exact hr

/-- One attempt after another, as long as attempts remain within the fuel. -/
theorem executorLoop_answered
    (hA : ∀ eng key nbytes datatype,
      (env.engine.allocate eng key nbytes datatype).2.1 ≠ .keyEexists) (autoRetry : Bool) :
    ∀ (fuel attempts : Nat) (ret : EngineErrorCode) {w : World σ}, attempts < maximumAttempts →
      maximumAttempts ≤ fuel + attempts → ret ≠ .keyEexists → ItemsInv w → Running w.conn →
      Answered w (executorLoop env traits req autoRetry fuel attempts ret w) := by
  intro fuel
  induction fuel with
  | zero => intro _ _ _ h₁ h₂; omega
  | succ fuel ih =>
    intro attempts ret w hlt hle hret hi hr
    have hf := subdocFetch_ends env req hi hr ret
    have hfi := itemsInv_subdocFetch env req hi ret
    rw [executorLoop]
    rcases hfetch : subdocFetch env req w ret with ⟨w1, _ | _⟩ <;> rw [hfetch] at hf hfi
    · exact hf
    dsimp only
    have hc1 : w1.conn.commandContext.isSome := hfi.1.item_iff ▸ hfi.2 rfl
    have ho := subdocOperate_ends env traits req hfi.1 hc1 hf.2
    have hoi := itemsInv_subdocOperate env traits req hfi.1 hc1
    rcases hop : subdocOperate env traits req w1 with ⟨w2, _ | _⟩ <;> rw [hop] at ho hoi
    · exact hf.1.answered ho
    dsimp only
    have hu := subdocUpdate_ends env traits req hA hoi.2 ho.2 hret
    have hui := itemsInv_subdocUpdate env traits req hoi.1 hoi.2 ret
    rcases hup : subdocUpdate env traits req w2 ret with ⟨w3, ret3⟩
    rw [hup] at hu hui
    dsimp only
    refine (hf.1.trans ho.1).answered ?_
    -- on `SUCCESS` and `KEY_EEXISTS` the update left the answer to the executor
    have hgo : ret3 = .success ∨ ret3 = .keyEexists → Silent w2 w3 ∧ Running w3.conn :=
      fun h => (hu.resolve_right fun h' => h.elim h'.1 h'.2.1).2
    split_ifs with hk ha hlt' hs
    · -- the retry: release, then the next attempt
      obtain ⟨hs3, hr3⟩ := hgo (.inr hk)
      exact (hs3.trans (releaseItemAndContext_silent env w3)).answered
        (ih _ _ hlt' (by omega) (by decide) (itemsInv_releaseItemAndContext env hui.1).1
          (running_releaseItemAndContext env hr3))
    · obtain ⟨hs3, hr3⟩ := hgo (.inr hk)
      exact Silent.respond (hs3.trans (releaseItemAndContext_silent env w3))
        (running_releaseItemAndContext env hr3)
    · exact Silent.respond (hgo (.inr hk)).1 (hgo (.inr hk)).2
    · exact (hu.resolve_left fun h' => h'.1.elim hs hk).2.2
    · obtain ⟨hs3, hr3⟩ := hgo (.inl (not_not.mp hs))
      exact hs3.answered (subdocResponse_ends env traits hui.2 hr3)

/-- Every entry into the executor of a command, the first one or one resuming it after a
suspended engine call with any completion status but `KEY_EEXISTS`, under any engine whose
`allocate` never returns `KEY_EEXISTS`, ends with exactly one response while the connection
still runs, and with none when it waits on the engine again or is closing. -/
theorem subdoc_entry_answers_once
    (hA : ∀ eng key nbytes datatype,
      (env.engine.allocate eng key nbytes datatype).2.1 ≠ .keyEexists)
    {w : World σ} (hw : Fresh w ∨ ∃ w₀ s, Reachable env traits req w₀ ∧ w = resume s w₀)
    (hr : Running w.conn) (hs : w.conn.aiostat ≠ .keyEexists) :
    ∃ es, (subdocExecutor env traits req w).log = w.log ++ es ∧
      (responses es).length = if Running (subdocExecutor env traits req w).conn then 1 else 0 := by
  have hi : ItemsInv w := by
    rcases hw with hf | ⟨w₀, s, h₀, rfl⟩
    · refine ⟨by simp [hf.item, hf.context], ?_, by simp [hf.log]⟩
      simp [hf.log, held, outDocOf, hf.item, hf.context, obtained, released]
    · exact (itemsInv_reachable env traits req h₀).setConn rfl rfl
  exact executorLoop_answered env traits req hA _ _ _ _ (by decide) (by simp) hs
    (hi.setConn rfl rfl) hr

/-- Under `conflictingEngine`, whose `allocate` always succeeds, a mutation with a request CAS
(so no auto-retry) meets its conflicting `store` and answers it once. -/
theorem subdoc_entry_answers_once_conflictingEngine :
    (∀ eng key nbytes datatype,
        (conflictingEngine.allocate eng key nbytes datatype).2.1 ≠ .keyEexists) ∧
      ∃ es, (scriptedExecutor conflictingEngine 7 (freshWorld false)).log =
          (freshWorld false).log ++ es ∧
        (responses es).length =
          if Running (scriptedExecutor conflictingEngine 7 (freshWorld false)).conn then 1 else 0 :=
  have hA : ∀ eng key nbytes datatype,
      (conflictingEngine.allocate eng key nbytes datatype).2.1 ≠ .keyEexists := fun _ _ _ _ => nofun
  ⟨hA, subdoc_entry_answers_once (scriptedEnv _ conflictingEngine) mutatorTraits (scriptedRequest 7)
    hA (.inl (fresh_freshWorld false)) ⟨rfl, nofun⟩ nofun⟩

example : responses (scriptedExecutor conflictingEngine 7 (freshWorld false)).log =
    [.status .keyEexists] := by
  decide

end Steps

section Calls
variable {σ : Type}

/-- The `get`, `allocate` and `store` calls a log records, counted apart. -/
def engineCalls (log : List Event) : Nat × Nat × Nat :=
  (log.countP (fun | .get .. => true | _ => false),
    log.countP (fun | .allocate .. => true | _ => false),
    log.countP (fun | .store .. => true | _ => false))

@[simp] theorem engineCalls_append (l₁ l₂ : List Event) :
    engineCalls (l₁ ++ l₂) = engineCalls l₁ + engineCalls l₂ := by
  simp [engineCalls, List.countP_append]

theorem engineCalls_map_release (l : List ItemRef) : engineCalls (l.map Event.release) = 0 := by
  induction l with
  | nil => rfl
  | cons _ _ ih => exact ih

/-- From `w` to `w'` at most `n` engine calls of each kind were made. -/
def CallsWithin (w w' : World σ) (n : Nat × Nat × Nat) : Prop :=
  ∃ es, w'.log = w.log ++ es ∧ engineCalls es ≤ n

theorem callsWithin_frame {w w' : World σ} {n : Nat × Nat × Nat} (hl : w'.log = w.log) :
    CallsWithin w w' n :=
  ⟨[], by simp [hl], zero_le n⟩

theorem CallsWithin.trans {w₁ w₂ w₃ : World σ} {a b : Nat × Nat × Nat} (h₁ : CallsWithin w₁ w₂ a)
    (h₂ : CallsWithin w₂ w₃ b) : CallsWithin w₁ w₃ (a + b) := by
  obtain ⟨es₁, hl₁, hc₁⟩ := h₁
  obtain ⟨es₂, hl₂, hc₂⟩ := h₂
  exact ⟨es₁ ++ es₂, by rw [hl₂, hl₁, List.append_assoc], by simpa using add_le_add hc₁ hc₂⟩

theorem CallsWithin.mono {w w' : World σ} {a b : Nat × Nat × Nat} (h : CallsWithin w w' a)
    (hab : a ≤ b) : CallsWithin w w' b :=
  h.imp fun _ h => ⟨h.1, h.2.trans hab⟩

theorem CallsWithin.frame {w w₁ w' : World σ} {n : Nat × Nat × Nat} (h : CallsWithin w w₁ n)
    (hl : w'.log = w₁.log) : CallsWithin w w' n := by
  simpa using h.trans (callsWithin_frame (n := 0) hl)

theorem CallsWithin.emit {w w₁ w' : World σ} {n : Nat × Nat × Nat} {e : Event}
    (h : CallsWithin w w₁ n) (hl : w'.log = w₁.log ++ [e]) (he : engineCalls [e] = 0) :
    CallsWithin w w' n := by
  simpa using h.trans (show CallsWithin w₁ w' 0 from ⟨[e], hl, he.le⟩)

end Calls

section CallSteps
variable {σ : Type} (env : Env σ) (traits : CmdTraits) (req : SubdocRequest)

theorem subdocFetch_calls (w : World σ) (ret : EngineErrorCode) :
    CallsWithin w (subdocFetch env req w ret).1 (1, 0, 0) := by
  unfold subdocFetch
  split
  · exact callsWithin_frame rfl
  have hg : CallsWithin w (if ret = .success then engineGet env req w else (w, ret, default)).1
      (1, 0, 0) := by
    split
    · exact ⟨[_], rfl, le_rfl⟩
    · exact callsWithin_frame rfl
  rcases h : (if ret = .success then engineGet env req w else (w, ret, default)) with ⟨w₁, r, it⟩
  rw [h] at hg
  dsimp only at hg ⊢
  split_ifs
  · exact hg.emit rfl rfl
  · exact hg.frame rfl
  · exact hg.frame rfl
  · exact hg.frame rfl
  · exact hg.emit rfl rfl

theorem subdocOperate_calls (w : World σ) : CallsWithin w (subdocOperate env traits req w).1 0 := by
  have h₀ : CallsWithin w w 0 := callsWithin_frame rfl
  unfold subdocOperate
  split
  · exact h₀.emit rfl rfl
  split
  · exact h₀.frame rfl
  split
  · exact h₀.emit rfl rfl
  split
  · exact h₀.emit rfl rfl
  · rename_i doc docCas _
    rcases subdocOpExec env traits req doc with ⟨res, result⟩
    have h₁ : CallsWithin w (w.emit (.opExec doc)) 0 := h₀.emit rfl rfl
    dsimp only
    split_ifs
    · exact h₁.frame rfl
    · exact h₁.emit rfl rfl

theorem subdocStore_calls (w : World σ) (o : ItemRef) :
    CallsWithin w (subdocStore env req w o).1 (0, 0, 1) := by
  unfold subdocStore engineStore
  rcases env.engine.store w.eng o .replace req.vbucket with ⟨e, code, cas⟩
  have hs : CallsWithin w { w with eng := e, log := w.log ++ [.store o code] } (0, 0, 1) :=
    ⟨[_], rfl, le_rfl⟩
  dsimp only
  split_ifs
  · exact hs.frame rfl
  · exact hs
  · exact hs.frame rfl
  · exact hs.frame rfl
  · exact hs.emit rfl rfl

theorem subdocAllocate_calls (w : World σ) (c : SubdocCmdContext) (ret : EngineErrorCode)
    (n : Nat) : CallsWithin w (subdocAllocate env req w c ret n).1 (0, 1, 0) := by
  unfold subdocAllocate
  have hg : CallsWithin w (if ret = .success then engineAllocate env req w n else (w, ret, default)).1
      (0, 1, 0) := by
    split
    · exact ⟨[_], rfl, le_rfl⟩
    · exact callsWithin_frame rfl
  rcases h : (if ret = .success then engineAllocate env req w n else (w, ret, default)) with
    ⟨w₁, r, d⟩
  rw [h] at hg
  dsimp only at hg ⊢
  split_ifs
  · split
    · exact hg.emit rfl rfl
    · exact hg.frame rfl
  · exact hg.frame rfl
  · exact hg.frame rfl
  · exact hg.emit rfl rfl

theorem subdocUpdate_calls (w : World σ) (ret : EngineErrorCode) :
    CallsWithin w (subdocUpdate env traits req w ret).1 (0, 1, 1) := by
  rcases h : subdocUpdate env traits req w ret with ⟨w', r⟩
  cases hc : w.conn.commandContext with
  | none =>
    simp only [subdocUpdate, hc, Prod.mk.injEq] at h
    obtain ⟨rfl, -⟩ := h
    exact CallsWithin.emit (callsWithin_frame rfl) rfl rfl
  | some c =>
    rcases subdocUpdate_cases env traits req hc h with ⟨-, rfl, -⟩ |
      ⟨-, ⟨o, -, hs⟩ | ⟨-, hal⟩ | ⟨-, w₁, o, hal, hs⟩⟩
    · exact callsWithin_frame rfl
    · have := subdocStore_calls env req w o
      rw [hs] at this
      exact this.mono ⟨zero_le _, zero_le _, le_rfl⟩
    · have := subdocAllocate_calls env req w c ret (c.result.newdoc.map List.length).sum
      rw [hal] at this
      exact this.mono ⟨le_rfl, le_rfl, zero_le _⟩
    · have ha := subdocAllocate_calls env req w c ret (c.result.newdoc.map List.length).sum
      rw [hal] at ha
      have := subdocStore_calls env req w₁ o
      rw [hs] at this
      exact ha.trans this

theorem subdocResponse_calls (w : World σ) : CallsWithin w (subdocResponse env traits w) 0 := by
  have h₀ : CallsWithin w w 0 := callsWithin_frame rfl
  unfold subdocResponse
  split
  · exact h₀.emit rfl rfl
  · dsimp only
    split_ifs <;> first | exact h₀.frame rfl | exact h₀.emit rfl rfl

theorem releaseItemAndContext_calls (w : World σ) : CallsWithin w (releaseItemAndContext env w) 0 :=
  ⟨_, (releaseItemAndContext_conn_log env w).2, (engineCalls_map_release _).le⟩

theorem executorLoop_succ_calls {autoRetry : Bool} {fuel attempts : Nat} {n : Nat × Nat × Nat}
    (hrec : autoRetry = true → attempts + 1 < maximumAttempts → ∀ ret (w : World σ),
      CallsWithin w (executorLoop env traits req autoRetry fuel (attempts + 1) ret w) n)
    (ret : EngineErrorCode) (w : World σ) :
    CallsWithin w (executorLoop env traits req autoRetry (fuel + 1) attempts ret w)
      ((1, 1, 1) + n) := by
  have hf := subdocFetch_calls env req w ret
  rw [executorLoop]
  have hle : ((1, 0, 0) : Nat × Nat × Nat) + 0 ≤ (1, 1, 1) + n :=
    ⟨Nat.le_add_right _ _, zero_le _, zero_le _⟩
  rcases hfetch : subdocFetch env req w ret with ⟨w1, _ | _⟩ <;> rw [hfetch] at hf
  · exact hf.mono ((le_add_of_nonneg_right le_rfl).trans hle)
  dsimp only
  have ho := subdocOperate_calls env traits req w1
  rcases hop : subdocOperate env traits req w1 with ⟨w2, _ | _⟩ <;> rw [hop] at ho
  · exact (hf.trans ho).mono hle
  dsimp only
  have hu := subdocUpdate_calls env traits req w2 ret
  rcases hup : subdocUpdate env traits req w2 ret with ⟨w3, ret3⟩
  rw [hup] at hu
  dsimp only
  -- whatever follows the update makes at most the calls of the run after it
  have step : ∀ {w' : World σ} {a : Nat × Nat × Nat}, CallsWithin w3 w' a → a ≤ n →
      CallsWithin w w' ((1, 1, 1) + n) :=
    fun h ha => ((hf.trans ho).trans hu).trans (h.mono ha)
  have h₀ : CallsWithin w3 w3 0 := callsWithin_frame rfl
  split_ifs with _ hr hlt
  · exact step ((releaseItemAndContext_calls env w3).trans (hrec hr hlt _ _)) (zero_add _).le
  · exact step ((releaseItemAndContext_calls env w3).emit rfl rfl) (zero_le _)
  · exact step (h₀.emit rfl rfl) (zero_le _)
  · exact step h₀ (zero_le _)
  · exact step (subdocResponse_calls env traits w3) (zero_le _)

/-- Run lemma: from `attempts` attempts made, with any fuel, the loop makes at most one call of
each kind per attempt left before `MAXIMUM_ATTEMPTS`: the bound is the `attempts` check's. -/
theorem executorLoop_calls (autoRetry : Bool) :
    ∀ (fuel attempts : Nat) (ret : EngineErrorCode) (w : World σ), attempts < maximumAttempts →
      CallsWithin w (executorLoop env traits req autoRetry fuel attempts ret w)
        (maximumAttempts - attempts, maximumAttempts - attempts, maximumAttempts - attempts)
  | 0, _, _, _, _ => callsWithin_frame rfl
  | fuel + 1, attempts, ret, w, h =>
    (executorLoop_succ_calls env traits req
      (fun _ hlt ret w => executorLoop_calls autoRetry fuel (attempts + 1) ret w hlt) ret w).mono
      (by simp only [Prod.mk_add_mk, Prod.mk_le_mk]; omega)

theorem executorLoop_calls_once (fuel attempts : Nat) (ret : EngineErrorCode) (w : World σ) :
    CallsWithin w (executorLoop env traits req false fuel attempts ret w) (1, 1, 1) := by
  cases fuel with
  | zero => exact callsWithin_frame rfl
  | succ fuel =>
    exact (@executorLoop_succ_calls _ env traits req false fuel attempts 0 nofun ret w).mono
      (add_zero _).le

/-- Within one entry into the executor, whatever the engine returns, the retry loop makes at most
`MAXIMUM_ATTEMPTS` attempts, so at most that many `get`, `allocate` and `store` calls each. The
loop is run here with any fuel (`subdocExecutor` gives it `MAXIMUM_ATTEMPTS`): the bound comes
from its `attempts < MAXIMUM_ATTEMPTS` check alone. -/
theorem subdoc_entry_calls_bounded (w : World σ) (fuel : Nat) :
    ∃ es, (executorLoop env traits req (req.cas == 0) fuel 0 w.conn.aiostat
        (w.setAiostat .success)).log = w.log ++ es ∧
      engineCalls es ≤ (maximumAttempts, maximumAttempts, maximumAttempts) :=
  executorLoop_calls env traits req _ fuel 0 _ _ (by decide)

/-- A request that names a CAS is never retried: whatever the engine returns, one entry into the
executor makes at most one `get`, one `allocate` and one `store`. -/
theorem subdoc_cas_entry_single_attempt (w : World σ) (hcas : req.cas ≠ 0) :
    ∃ es, (subdocExecutor env traits req w).log = w.log ++ es ∧ engineCalls es ≤ (1, 1, 1) := by
  rw [subdocExecutor, beq_false_of_ne hcas]
  exact executorLoop_calls_once env traits req _ _ _ _

theorem subdoc_cas_entry_single_attempt_conflictingEngine :
    (scriptedRequest 7).cas ≠ 0 ∧
      ∃ es, (scriptedExecutor conflictingEngine 7 (freshWorld false)).log =
        (freshWorld false).log ++ es ∧ engineCalls es ≤ (1, 1, 1) :=
  ⟨by decide, subdoc_cas_entry_single_attempt (scriptedEnv _ conflictingEngine) mutatorTraits
    (scriptedRequest 7) (freshWorld false) (by decide)⟩

end CallSteps

end Memcached.ExecutorEntries
