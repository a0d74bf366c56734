import Memcached.SubdocExecutor
import Mathlib.Data.List.Perm.Basic

set_option autoImplicit false

/-!
# Runs of a command, and the items it holds

A command enters `subdoc_executor<CMD>` once, and once more each time a
suspended engine call completes, with the completion status in `aiostat`.
Over every such run, for every result the engine gives, the command holds
exactly `c->item` and the context's `out_doc`: every item it obtained from
`get` or `allocate` is either one of those or has been released once.
-/

namespace Memcached.ExecutorRuns
open Memcached.Protocol Memcached.SubdocExecutor

section Runs
variable {σ : Type} (env : Env σ) (traits : CmdTraits) (req : SubdocRequest)

/-- `notify_io_complete`: the suspended command is resumed with status `s`. -/
def resume (s : EngineErrorCode) (w : World σ) : World σ := (w.setAiostat s).setEwouldblock false

/-- A connection about to execute a new command. -/
structure Fresh (w : World σ) : Prop where
  item : w.conn.item = none
  context : w.conn.commandContext = none
  aiostat : w.conn.aiostat = .success
  log : w.log = []

/-- The worlds a command reaches: its first entry into the executor, then one
entry per completion of a suspended call, with any completion status. -/
inductive Reachable : World σ → Prop
  | start {w : World σ} : Fresh w → Reachable (subdocExecutor env traits req w)
  | resume {w : World σ} (s : EngineErrorCode) : Reachable w → w.conn.ewouldblock = true →
      Reachable (subdocExecutor env traits req (resume s w))

/-- The worlds a command reaches from the world `w₀` it starts in. -/
inductive RunFrom (w₀ : World σ) : World σ → Prop
  | start : RunFrom w₀ (subdocExecutor env traits req w₀)
  | resume {w : World σ} (s : EngineErrorCode) : RunFrom w₀ w → w.conn.ewouldblock = true →
      RunFrom w₀ (subdocExecutor env traits req (resume s w))

theorem RunFrom.reachable {w₀ w : World σ} (h₀ : Fresh w₀) (h : RunFrom env traits req w₀ w) :
    Reachable env traits req w := by
  induction h with
  | start => exact .start h₀
  | resume s _ hb ih => exact .resume s ih hb

end Runs

def responses (log : List Event) : List Response :=
  log.filterMap fun | .respond r => some r | _ => none

@[simp] theorem responses_nil : responses [] = [] := rfl
@[simp] theorem responses_append (l₁ l₂ : List Event) :
    responses (l₁ ++ l₂) = responses l₁ ++ responses l₂ := List.filterMap_append ..
@[simp] theorem responses_cons_respond (r : Response) (l : List Event) :
    responses (.respond r :: l) = r :: responses l := rfl
@[simp] theorem responses_cons_get (k : Bytes) (vb : UInt16) (ret : EngineErrorCode)
    (it : ItemRef) (l : List Event) : responses (.get k vb ret it :: l) = responses l := rfl
@[simp] theorem responses_cons_allocate (k : Bytes) (n : Nat) (ret : EngineErrorCode)
    (it : ItemRef) (l : List Event) : responses (.allocate k n ret it :: l) = responses l := rfl
@[simp] theorem responses_cons_store (it : ItemRef) (ret : EngineErrorCode) (l : List Event) :
    responses (.store it ret :: l) = responses l := rfl
@[simp] theorem responses_cons_release (it : ItemRef) (l : List Event) :
    responses (.release it :: l) = responses l := rfl
@[simp] theorem responses_cons_opExec (d : Bytes) (l : List Event) :
    responses (.opExec d :: l) = responses l := rfl
@[simp] theorem responses_cons_crash (l : List Event) : responses (.crash :: l) = responses l := rfl

/-- The stores whose result was a CAS mismatch. -/
def conflicts (log : List Event) : Nat :=
  log.countP fun | .store _ .keyEexists => true | _ => false

/-! ## A scripted engine

Each `get`, `allocate` and `store` returns the next result of its own script;
`item_info` is fixed per item. Any finite sequence of engine results is one of
its runs. -/

structure Script where
  gets : List (EngineErrorCode × ItemRef)
  allocates : List (EngineErrorCode × ItemRef)
  stores : List (EngineErrorCode × UInt64)
  deriving DecidableEq, Repr

def scriptedEngine (info : ItemRef → Option ItemInfo) : Engine Script where
  get s _ _ := match s.gets with
    | r :: rs => ({ s with gets := rs }, r)
    | [] => (s, .failed, 0)
  getItemInfo _ it := info it
  allocate s _ _ _ := match s.allocates with
    | r :: rs => ({ s with allocates := rs }, r)
    | [] => (s, .failed, 0)
  itemSetCas s _ _ := s
  writeValue s _ _ _ := s
  store s _ _ _ := match s.stores with
    | r :: rs => ({ s with stores := rs }, r)
    | [] => (s, .failed, 0)
  release s _ := s

/-- Item 1 is a JSON document `{}` of CAS 7; any other item is an empty JSON value. -/
def scriptedInfo (it : ItemRef) : Option ItemInfo :=
  if it = 1 then some ⟨7, protocolBinaryDatatypeJson, [[0x7b, 0x7d]]⟩
  else some ⟨0, protocolBinaryDatatypeJson, [[]]⟩

/-- An engine error map that keeps the codes these runs produce apart. -/
def scriptedStatus (e : EngineErrorCode) : ProtocolStatus :=
  if e = .keyEexists then .keyEexists else if e = .tmpfail then .etmpfail else .einternal

/-- Every JSON operation succeeds and appends one byte to the document. -/
def scriptedEnv (σ : Type) (engine : Engine σ) : Env σ where
  engine := engine
  opExec _ doc _ _ := (.success, ⟨doc, [doc, [0x20]]⟩)
  snappyUncompressedLength _ := none
  snappyUncompress _ := none
  growDynamicBuffer _ := true
  addBinHeader _ := true
  engineError2ProtocolError := scriptedStatus

/-- A mutator with a value, such as `SUBDOC_DICT_ADD`. -/
def mutatorTraits : CmdTraits :=
  { isMutator := true, requestHasValue := true, responseHasValue := false,
    allowEmptyPath := false, validFlags := subdocFlagMkdirP, optype := 0 }

def scriptedRequest (cas : UInt64) : SubdocRequest := ⟨[0x6b], [0x61], [0x31], 0, 0, cas⟩

def freshWorld {σ : Type} (eng : σ) : World σ := ⟨⟨none, none, .success, false, .execute, 0⟩, eng, []⟩

theorem fresh_freshWorld {σ : Type} (eng : σ) : Fresh (freshWorld eng) := ⟨rfl, rfl, rfl, rfl⟩

def scriptedExecutor {σ : Type} (engine : Engine σ) (cas : UInt64) (w : World σ) : World σ :=
  subdocExecutor (scriptedEnv σ engine) mutatorTraits (scriptedRequest cas) w

/-- A mutation with a request CAS (no auto-retry) whose `allocate` returns
`KEY_EEXISTS`. -/
def allocateConflictRun : World Script :=
  scriptedExecutor (scriptedEngine scriptedInfo) 7 (freshWorld ⟨[(.success, 1)], [(.keyEexists, 2)], []⟩)

/-- In `allocateConflictRun`, `subdoc_update` writes the mapped status and
returns `KEY_EEXISTS`, and the executor writes it a second time: the command
ends, neither suspended nor closing, with two responses. -/
theorem subdocExecutor_allocate_eexists_responds_twice :
    Reachable (scriptedEnv _ (scriptedEngine scriptedInfo)) mutatorTraits (scriptedRequest 7)
        allocateConflictRun ∧
      allocateConflictRun.conn.ewouldblock = false ∧ allocateConflictRun.conn.state = .execute ∧
      responses allocateConflictRun.log = [.status .keyEexists, .status .keyEexists] := by
  refine ⟨?_, by decide, by decide, by decide⟩
  unfold allocateConflictRun scriptedExecutor
  exact .start (fresh_freshWorld _)

/-- A mutation whose `store` is suspended (`EWOULDBLOCK`), then succeeds. -/
def storeSuspendedRun : World Script :=
  scriptedExecutor (scriptedEngine scriptedInfo) 0
    (freshWorld ⟨[(.success, 1)], [(.success, 2)], [(.ewouldblock, 0), (.success, 9)]⟩)

/-- The same mutation whose `store` returns `TMPFAIL` directly. -/
def storeFailedRun : World Script :=
  scriptedExecutor (scriptedEngine scriptedInfo) 0
    (freshWorld ⟨[(.success, 1)], [(.success, 2)], [(.tmpfail, 0)]⟩)

/-- Resumed with a failed completion (`TMPFAIL`) of its suspended store, the
mutation issues the store again, which here succeeds, where the same completion
of `get` or `allocate` would end the command with the mapped status. Had the
store returned `TMPFAIL` directly, the command would have responded with it. -/
theorem subdocExecutor_store_resume_reissues :
    Reachable (scriptedEnv _ (scriptedEngine scriptedInfo)) mutatorTraits (scriptedRequest 0)
        (scriptedExecutor (scriptedEngine scriptedInfo) 0 (resume .tmpfail storeSuspendedRun)) ∧
      storeSuspendedRun.conn.ewouldblock = true ∧
      (scriptedExecutor (scriptedEngine scriptedInfo) 0 (resume .tmpfail storeSuspendedRun)).log.drop
        storeSuspendedRun.log.length = [.store 2 .success, .respond (.subdoc 9 [])] ∧
      responses storeFailedRun.log = [.status .etmpfail] :=
  ⟨.resume .tmpfail (by unfold storeSuspendedRun scriptedExecutor; exact .start (fresh_freshWorld _))
    (by decide), by decide, by decide, by decide⟩

/-- An engine under which every attempt is suspended once at its `get` and
conflicts at its `store`: `get` alternately blocks and returns item 1, and
`store` always answers `KEY_EEXISTS`. -/
def conflictingEngine : Engine Bool where
  get blocked _ _ := if blocked then (false, .ewouldblock, 0) else (true, .success, 1)
  getItemInfo _ it := scriptedInfo it
  allocate b _ _ _ := (b, .success, 2)
  itemSetCas b _ _ := b
  writeValue b _ _ _ := b
  store b _ _ _ := (b, .keyEexists, 0)
  release b _ := b

def suspendedConn : Connection := ⟨none, none, .success, true, .execute, 0⟩

/-- One resumed entry: the attempt runs to its conflicting store, the executor
retries, and the next attempt's `get` suspends the command again. -/
def retryCycle : List Event :=
  [.get [0x6b] 0 .success 1, .opExec [0x7b, 0x7d], .allocate [0x6b] 3 .success 2,
    .store 2 .keyEexists, .release 1, .release 2, .get [0x6b] 0 .ewouldblock 0]

theorem subdocExecutor_resume_conflicting (log : List Event) :
    subdocExecutor (scriptedEnv _ conflictingEngine) mutatorTraits (scriptedRequest 0)
        (resume .success ⟨suspendedConn, false, log⟩) = ⟨suspendedConn, false, log ++ retryCycle⟩ := by
  simp [subdocExecutor, executorLoop, resume, subdocFetch, engineGet, conflictingEngine,
    suspendedConn, subdocOperate, getDocumentForSearching, documentForSearching, scriptedInfo,
    subdocOpExec, scriptedEnv, subdocUpdate, subdocAllocate, engineAllocate, subdocStore, engineStore, releaseItemAndContext,
    engineRelease, mutatorTraits, scriptedRequest, retryCycle, maximumAttempts,
    SubdocCmdContext.new, copyNewdoc]

/-- The command's world after its first entry and `n` resumptions. -/
def retryRun : Nat → World Bool
  | 0 => subdocExecutor (scriptedEnv _ conflictingEngine) mutatorTraits (scriptedRequest 0)
      (freshWorld true)
  | n + 1 => subdocExecutor (scriptedEnv _ conflictingEngine) mutatorTraits (scriptedRequest 0)
      (resume .success (retryRun n))

theorem retryRun_succ (n : Nat) :
    retryRun (n + 1) = ⟨suspendedConn, false, (retryRun n).log ++ retryCycle⟩ ∧
      (retryRun n).conn = suspendedConn ∧ (retryRun n).eng = false := by
  have step : ∀ w : World Bool, w.conn = suspendedConn → w.eng = false →
      subdocExecutor (scriptedEnv _ conflictingEngine) mutatorTraits (scriptedRequest 0)
        (resume .success w) = ⟨suspendedConn, false, w.log ++ retryCycle⟩ := by
    rintro ⟨c, e, log⟩ hc he
    simp only at hc he
    subst hc he
    exact subdocExecutor_resume_conflicting log
  induction n with
  | zero => exact ⟨step _ rfl rfl, rfl, rfl⟩
  | succ n ih => exact ⟨step _ (by rw [ih.1]) (by rw [ih.1]), by rw [ih.1], by rw [ih.1]⟩

theorem retryRun_reachable (n : Nat) :
    Reachable (scriptedEnv _ conflictingEngine) mutatorTraits (scriptedRequest 0) (retryRun n) := by
  induction n with
  | zero => exact .start (fresh_freshWorld _)
  | succ n ih => exact .resume .success ih (by rw [(retryRun_succ n).2.1]; rfl)

theorem retryRun_log (n : Nat) :
    conflicts (retryRun n).log = n ∧ responses (retryRun n).log = [] ∧
      (retryRun n).conn.ewouldblock = true := by
  induction n with
  | zero => exact ⟨rfl, rfl, rfl⟩
  | succ n ih =>
    obtain ⟨⟨h1, h2, -⟩, h3⟩ := And.intro ih (retryRun_succ n).1
    rw [h3]
    simp only [conflicts, responses, List.countP_append, List.filterMap_append] at h1 h2 ⊢
    rw [h1, h2]
    exact ⟨rfl, rfl, rfl⟩

/-- Across suspensions the attempt counter starts again at zero: after 101
attempts whose stores all returned `KEY_EEXISTS`, the auto-retrying command
has written no response (no `TMPFAIL`) and is suspended before another. -/
theorem retryRun_exceeds_maximum_attempts :
    Reachable (scriptedEnv _ conflictingEngine) mutatorTraits (scriptedRequest 0) (retryRun 101) ∧
      conflicts (retryRun 101).log = 101 ∧ responses (retryRun 101).log = [] ∧
      (retryRun 101).conn.ewouldblock = true :=
  ⟨retryRun_reachable 101, retryRun_log 101⟩

/-! ## Item accounting -/

def obtainedBy : Event → List ItemRef
  | .get _ _ ret item => if ret = .success then [item] else []
  | .allocate _ _ ret item => if ret = .success then [item] else []
  | _ => []

def releasedBy : Event → List ItemRef
  | .release item => [item]
  | _ => []

/-- The items obtained from the engine, and those released back to it. -/
def obtained (log : List Event) : List ItemRef := log.flatMap obtainedBy
def released (log : List Event) : List ItemRef := log.flatMap releasedBy

def outDocOf (c : Connection) : Option ItemRef := c.commandContext.bind SubdocCmdContext.outDoc

/-- The items the command holds: `c->item` and the context's `out_doc`. -/
def held (c : Connection) : List ItemRef := c.item.toList ++ (outDocOf c).toList

@[simp] theorem obtained_append (l₁ l₂ : List Event) :
    obtained (l₁ ++ l₂) = obtained l₁ ++ obtained l₂ := List.flatMap_append ..
@[simp] theorem released_append (l₁ l₂ : List Event) :
    released (l₁ ++ l₂) = released l₁ ++ released l₂ := List.flatMap_append ..
@[simp] theorem released_map_release (l : List ItemRef) : released (l.map Event.release) = l := by
  induction l with
  | nil => rfl
  | cons a l ih => exact congrArg (a :: ·) ih
@[simp] theorem obtained_map_release (l : List ItemRef) : obtained (l.map Event.release) = [] := by
  induction l with
  | nil => rfl
  | cons _ _ ih => exact ih
@[simp] theorem obtained_singleton (e : Event) : obtained [e] = obtainedBy e := by simp [obtained]
@[simp] theorem released_singleton (e : Event) : released [e] = releasedBy e := by simp [released]

/-- An event that neither obtains nor releases an item, and is not a crash. -/
def Quiet (e : Event) : Prop := obtainedBy e = [] ∧ releasedBy e = [] ∧ e ≠ .crash

theorem quiet_respond (r : Response) : Quiet (.respond r) := ⟨rfl, rfl, by simp⟩
theorem quiet_opExec (d : Bytes) : Quiet (.opExec d) := ⟨rfl, rfl, by simp⟩
theorem quiet_store (it : ItemRef) (ret : EngineErrorCode) : Quiet (.store it ret) :=
  ⟨rfl, rfl, by simp⟩
theorem quiet_get {k : Bytes} {vb : UInt16} {ret : EngineErrorCode} {it : ItemRef}
    (h : ret ≠ .success) : Quiet (.get k vb ret it) := ⟨by simp [obtainedBy, h], rfl, by simp⟩
theorem quiet_allocate {k : Bytes} {n : Nat} {ret : EngineErrorCode} {it : ItemRef}
    (h : ret ≠ .success) : Quiet (.allocate k n ret it) := ⟨by simp [obtainedBy, h], rfl, by simp⟩

section Inv
variable {σ : Type}

/-- What the executor keeps of the connection and the engine: `c->item` and the command
context are set together, no `cb_assert` has fired, and the items the engine handed out are
those released plus those the command holds (`c->item` and the context's `out_doc`). -/
structure ItemsInv (w : World σ) : Prop where
  item_iff : w.conn.item.isSome = w.conn.commandContext.isSome
  balance : (obtained w.log).Perm (released w.log ++ held w.conn)
  no_crash : Event.crash ∉ w.log

theorem ItemsInv.frame {w w' : World σ} (hi : ItemsInv w) (hitem : w'.conn.item = w.conn.item)
    (hctx : w'.conn.commandContext.isSome = w.conn.commandContext.isSome)
    (hout : outDocOf w'.conn = outDocOf w.conn) (es : List Event) (hlog : w'.log = w.log ++ es)
    (hq : ∀ e ∈ es, Quiet e) : ItemsInv w' := by
  have ho : obtained es = [] := List.flatMap_eq_nil_iff.mpr fun e he => (hq e he).1
  have hr : released es = [] := List.flatMap_eq_nil_iff.mpr fun e he => (hq e he).2.1
  refine ⟨by rw [hitem, hctx]; exact hi.item_iff, ?_, ?_⟩
  · simpa [hlog, held, hitem, hout, ho, hr] using hi.balance
  · rw [hlog, List.mem_append, not_or]
    exact ⟨hi.no_crash, fun h => (hq _ h).2.2 rfl⟩

theorem ItemsInv.emit {w : World σ} (hi : ItemsInv w) {e : Event} (he : Quiet e) :
    ItemsInv (w.emit e) :=
  hi.frame rfl rfl rfl [e] rfl (by simpa using he)

theorem ItemsInv.setConn {w : World σ} (hi : ItemsInv w) {c : Connection}
    (hitem : c.item = w.conn.item) (hctx : c.commandContext = w.conn.commandContext) :
    ItemsInv { w with conn := c } :=
  hi.frame hitem (by rw [hctx]) (by simp [outDocOf, hctx]) [] (by simp) (by simp)

theorem ItemsInv.setEng {w : World σ} (hi : ItemsInv w) (e : σ) : ItemsInv { w with eng := e } :=
  hi.frame rfl rfl rfl [] (by simp) (by simp)

theorem ItemsInv.setContext {w : World σ} (hi : ItemsInv w) {c c' : SubdocCmdContext}
    (hc : w.conn.commandContext = some c) (hout : c'.outDoc = c.outDoc) :
    ItemsInv (w.setCommandContext (some c')) :=
  hi.frame rfl (by simp [hc]) (by simp [outDocOf, hc, hout]) [] (by simp) (by simp)

theorem ItemsInv.allocated {w : World σ} (hi : ItemsInv w) {c : SubdocCmdContext}
    (hc : w.conn.commandContext = some c) (hnone : c.outDoc = none) (e : σ) (k : Bytes) (n : Nat)
    (d : ItemRef) :
    ItemsInv (World.setCommandContext { w with eng := e, log := w.log ++ [.allocate k n .success d] }
      (some { c with outDoc := some d })) := by
  refine ⟨by simpa [hc] using hi.item_iff, ?_, by simpa using hi.no_crash⟩
  simpa [held, outDocOf, hc, hnone, obtainedBy] using hi.balance.append_right [d]

end Inv

section Steps
variable {σ : Type} (env : Env σ) (traits : CmdTraits) (req : SubdocRequest)

theorem itemsInv_subdocFetch {w : World σ} (hi : ItemsInv w) (ret : EngineErrorCode) :
    ItemsInv (subdocFetch env req w ret).1 ∧
      ((subdocFetch env req w ret).2 = true → (subdocFetch env req w ret).1.conn.item.isSome) := by
  unfold subdocFetch
  cases hitem : w.conn.item with
  | some it => exact ⟨hi, fun _ => by simp [hitem]⟩
  | none =>
    have hctx : w.conn.commandContext = none := by
      have := hi.item_iff; rw [hitem] at this; exact Option.not_isSome_iff_eq_none.mp (by simp_all)
    by_cases hret : ret = .success
    · simp only [hret, if_true, engineGet]
      rcases hg : env.engine.get w.eng req.key req.vbucket with ⟨e, code, it⟩
      by_cases hc : code = .success
      · subst hc
        simp only [hctx, Option.isSome_none, Bool.false_eq_true, if_false, if_true, World.setItem,
          World.setCommandContext, Option.isSome_some, implies_true, and_true]
        refine ⟨by simp, ?_, by simpa using hi.no_crash⟩
        simpa [held, outDocOf, hitem, hctx, obtainedBy, SubdocCmdContext.new] using
          hi.balance.append_right [it]
      · have hw : ItemsInv { w with eng := e, log := w.log ++ [.get req.key req.vbucket code it] } :=
          hi.frame rfl rfl rfl _ rfl (by simpa using quiet_get hc)
        simp only [hc, if_false]
        split_ifs
        · exact ⟨hw.setConn rfl rfl, by simp⟩
        · exact ⟨hw.setConn rfl rfl, by simp⟩
        · exact ⟨hw.emit (quiet_respond _), by simp⟩
    · simp only [hret, if_false]
      split_ifs
      · exact ⟨hi.setConn rfl rfl, by simp⟩
      · exact ⟨hi.setConn rfl rfl, by simp⟩
      · exact ⟨hi.emit (quiet_respond _), by simp⟩

theorem itemsInv_subdocOperate {w : World σ} (hi : ItemsInv w)
    (hctx : w.conn.commandContext.isSome) :
    ItemsInv (subdocOperate env traits req w).1 ∧
      (subdocOperate env traits req w).1.conn.commandContext.isSome := by
  obtain ⟨c, hc⟩ := Option.isSome_iff_exists.mp hctx
  obtain ⟨it, hit⟩ : ∃ it, w.conn.item = some it :=
    Option.isSome_iff_exists.mp (hi.item_iff.trans hctx)
  unfold subdocOperate
  simp only [hc, hit]
  by_cases hdoc : c.inDoc.isSome
  · simp only [hdoc, if_true]; exact ⟨hi, by simp [hc]⟩
  · simp only [hdoc, Bool.false_eq_true, if_false]
    split
    · exact ⟨hi.emit (quiet_respond _), by simp [hc]⟩
    · rename_i doc docCas _
      rcases subdocOpExec env traits req doc with ⟨res, result⟩
      have he := hi.emit (quiet_opExec doc)
      have hc' : (w.emit (.opExec doc)).conn.commandContext = some c := hc
      split_ifs
      · exact ⟨he.setContext hc' rfl, by simp⟩
      · refine ⟨ItemsInv.emit ?_ (quiet_respond _), by simp⟩
        exact he.setContext hc' rfl

theorem itemsInv_subdocStore {w : World σ} (hi : ItemsInv w) (it : ItemRef) :
    ItemsInv (subdocStore env req w it).1 ∧
      (subdocStore env req w it).1.conn.commandContext = w.conn.commandContext := by
  unfold subdocStore engineStore
  rcases env.engine.store w.eng it .replace req.vbucket with ⟨e, code, cas⟩
  have hs : ItemsInv { w with eng := e, log := w.log ++ [.store it code] } :=
    hi.frame rfl rfl rfl _ rfl (by simpa using quiet_store it code)
  dsimp only
  split_ifs
  · exact ⟨hs.setConn rfl rfl, rfl⟩
  · exact ⟨hs, rfl⟩
  · exact ⟨hs.setConn rfl rfl, rfl⟩
  · exact ⟨hs.setConn rfl rfl, rfl⟩
  · exact ⟨hs.emit (quiet_respond _), rfl⟩

theorem itemsInv_subdocAllocate {w : World σ} (hi : ItemsInv w) {c : SubdocCmdContext}
    (hc : w.conn.commandContext = some c) (hnone : c.outDoc = none) (ret : EngineErrorCode)
    (n : Nat) :
    ItemsInv (subdocAllocate env req w c ret n).1 ∧
      (subdocAllocate env req w c ret n).1.conn.commandContext.isSome := by
  unfold subdocAllocate
  by_cases hret : ret = .success
  · simp only [hret, if_true, engineAllocate]
    rcases env.engine.allocate w.eng req.key n protocolBinaryDatatypeJson with ⟨e, code, d⟩
    by_cases hcode : code = .success
    · subst hcode
      have ha := hi.allocated hc hnone e req.key n d
      simp only [if_true]
      split
      · exact ⟨(ha.setEng _).emit (quiet_respond _), by simp⟩
      · exact ⟨(ha.setEng _).setEng _, by simp⟩
    · have hw : ItemsInv { w with eng := e, log := w.log ++ [.allocate req.key n code d] } :=
        hi.frame rfl rfl rfl _ rfl (by simpa using quiet_allocate hcode)
      simp only [hcode, if_false]
      split_ifs
      · exact ⟨hw.setConn rfl rfl, by simp [hc]⟩
      · exact ⟨hw.setConn rfl rfl, by simp [hc]⟩
      · exact ⟨hw.emit (quiet_respond _), by simp [hc]⟩
  · simp only [hret, if_false]
    split_ifs
    · exact ⟨hi.setConn rfl rfl, by simp [hc]⟩
    · exact ⟨hi.setConn rfl rfl, by simp [hc]⟩
    · exact ⟨hi.emit (quiet_respond _), by simp [hc]⟩

/-- What `subdoc_update` does: a lookup records the input CAS; a mutation stores `out_doc`, or
allocates it first and stores it unless the allocation ended the attempt. -/
theorem subdocUpdate_cases {w w' : World σ} {ret r : EngineErrorCode} {c : SubdocCmdContext}
    (hc : w.conn.commandContext = some c) (h : subdocUpdate env traits req w ret = (w', r)) :
    traits.isMutator = false ∧ w' = w.setCAS c.inCas ∧ r = .success ∨
      traits.isMutator = true ∧
        ((∃ o, c.outDoc = some o ∧ subdocStore env req w o = (w', r)) ∨
          c.outDoc = none ∧
            subdocAllocate env req w c ret (c.result.newdoc.map List.length).sum = (w', .inl r) ∨
          c.outDoc = none ∧ ∃ w₁ o,
            subdocAllocate env req w c ret (c.result.newdoc.map List.length).sum = (w₁, .inr o) ∧
            subdocStore env req w₁ o = (w', r)) := by
  unfold subdocUpdate at h
  simp only [hc] at h
  split_ifs at h with hm
  · cases h
    exact .inl ⟨by simpa using hm, rfl, rfl⟩
  refine .inr ⟨by simpa using hm, ?_⟩
  cases ho : c.outDoc with
  | some o =>
    simp only [ho] at h
    exact .inl ⟨o, rfl, h⟩
  | none =>
    simp only [ho] at h
    rcases hal : subdocAllocate env req w c ret (c.result.newdoc.map List.length).sum with
      ⟨w₁, e | o⟩ <;> rw [hal] at h <;> dsimp only at h
    · cases h
      exact .inr (.inl ⟨rfl, rfl⟩)
    · exact .inr (.inr ⟨rfl, w₁, o, rfl, h⟩)

theorem itemsInv_subdocUpdate {w : World σ} (hi : ItemsInv w)
    (hctx : w.conn.commandContext.isSome) (ret : EngineErrorCode) :
    ItemsInv (subdocUpdate env traits req w ret).1 ∧
      (subdocUpdate env traits req w ret).1.conn.commandContext.isSome := by
  obtain ⟨c, hc⟩ := Option.isSome_iff_exists.mp hctx
  rcases h : subdocUpdate env traits req w ret with ⟨w', r⟩
  rcases subdocUpdate_cases env traits req hc h with ⟨-, rfl, -⟩ |
    ⟨-, ⟨o, -, hs⟩ | ⟨ho, hal⟩ | ⟨ho, w₁, o, hal, hs⟩⟩
  · exact ⟨hi.setConn rfl rfl, by simp [hc]⟩
  · have := itemsInv_subdocStore env req hi o
    rw [hs] at this
    exact ⟨this.1, by rw [this.2, hc]; rfl⟩
  · simpa [hal] using itemsInv_subdocAllocate env req hi hc ho ret
      (c.result.newdoc.map List.length).sum
  · have ha := itemsInv_subdocAllocate env req hi hc ho ret (c.result.newdoc.map List.length).sum
    rw [hal] at ha
    have := itemsInv_subdocStore env req ha.1 o
    rw [hs] at this
    exact ⟨this.1, by rw [this.2]; exact ha.2⟩

theorem itemsInv_subdocResponse {w : World σ} (hi : ItemsInv w)
    (hctx : w.conn.commandContext.isSome) : ItemsInv (subdocResponse env traits w) := by
  obtain ⟨c, hc⟩ := Option.isSome_iff_exists.mp hctx
  unfold subdocResponse
  simp only [hc]
  split_ifs <;>
    first | exact hi.setConn rfl rfl | exact (hi.emit (quiet_respond _)).setConn rfl rfl

/-- Releasing `c->item` and destroying the context releases exactly the held
items, in that order, and leaves nothing held. -/
theorem releaseItemAndContext_spec {w : World σ} (hi : ItemsInv w) :
    (releaseItemAndContext env w).conn.item = none ∧
      (releaseItemAndContext env w).conn.commandContext = none ∧
      (releaseItemAndContext env w).log = w.log ++ (held w.conn).map Event.release := by
  have hiff := hi.item_iff
  unfold releaseItemAndContext
  rcases hitem : w.conn.item with _ | it <;>
    rcases hc : w.conn.commandContext with _ | ⟨inDoc, inCas, result, _ | d⟩ <;>
    simp_all [engineRelease, held, outDocOf]

theorem itemsInv_releaseItemAndContext {w : World σ} (hi : ItemsInv w) :
    ItemsInv (releaseItemAndContext env w) ∧
      (obtained (releaseItemAndContext env w).log).Perm
        (released (releaseItemAndContext env w).log) := by
  obtain ⟨hitem, hc, hlog⟩ := releaseItemAndContext_spec env hi
  have hbal : (obtained (releaseItemAndContext env w).log).Perm
      (released (releaseItemAndContext env w).log) := by
    simpa [hlog] using hi.balance
  refine ⟨⟨by simp [hitem, hc], by simpa [held, outDocOf, hitem, hc] using hbal, ?_⟩, hbal⟩
  simpa [hlog] using hi.no_crash

theorem itemsInv_executorLoop (autoRetry : Bool) :
    ∀ (fuel attempts : Nat) (ret : EngineErrorCode) {w : World σ}, ItemsInv w →
      ItemsInv (executorLoop env traits req autoRetry fuel attempts ret w) := by
  intro fuel
  induction fuel with
  | zero => intro _ _ w hi; exact hi
  | succ fuel ih =>
    intro attempts ret w hi
    have hf := itemsInv_subdocFetch env req hi ret
    rw [executorLoop]
    rcases hfetch : subdocFetch env req w ret with ⟨w1, _ | _⟩
    · rw [hfetch] at hf; exact hf.1
    rw [hfetch] at hf
    dsimp only
    have h1 := hf.1
    have hc1 : w1.conn.commandContext.isSome := h1.item_iff ▸ hf.2 rfl
    have ho := itemsInv_subdocOperate env traits req h1 hc1
    rcases hop : subdocOperate env traits req w1 with ⟨w2, _ | _⟩
    · rw [hop] at ho; exact ho.1
    rw [hop] at ho
    dsimp only
    have hu := itemsInv_subdocUpdate env traits req ho.1 ho.2 ret
    rcases hup : subdocUpdate env traits req w2 ret with ⟨w3, ret3⟩
    rw [hup] at hu
    dsimp only
    split_ifs
    · exact ih _ _ (itemsInv_releaseItemAndContext env hu.1).1
    · exact (itemsInv_releaseItemAndContext env hu.1).1.emit (quiet_respond _)
    · exact hu.1.emit (quiet_respond _)
    · exact hu.1
    · exact itemsInv_subdocResponse env traits hu.1 hu.2

theorem itemsInv_subdocExecutor {w : World σ} (hi : ItemsInv w) :
    ItemsInv (subdocExecutor env traits req w) :=
  itemsInv_executorLoop env traits req _ _ _ _ (hi.setConn rfl rfl)

theorem itemsInv_reachable {w : World σ} (h : Reachable env traits req w) : ItemsInv w := by
  induction h with
  | start hf =>
    refine itemsInv_subdocExecutor env traits req ⟨by simp [hf.item, hf.context], ?_, ?_⟩
    · simp [hf.log, held, outDocOf, hf.item, hf.context, obtained, released]
    · simp [hf.log]
  | resume s _ _ ih => exact itemsInv_subdocExecutor env traits req (ih.setConn rfl rfl)

/-- Over every run of a single-path command, whatever the engine returns at
each call and at each completion: `c->item` is set exactly when the command
context is, so no `cb_assert` fires; the items obtained from `get` and
`allocate` are those released plus `c->item` and `out_doc`; and releasing
those two returns every item obtained, across all attempts, exactly once. -/
theorem subdoc_items_accounted {w : World σ} (h : Reachable env traits req w) :
    (w.conn.item.isSome = w.conn.commandContext.isSome ∧ Event.crash ∉ w.log) ∧
      (obtained w.log).Perm (released w.log ++ held w.conn) ∧
      (obtained (releaseItemAndContext env w).log).Perm
        (released (releaseItemAndContext env w).log) :=
  have hi := itemsInv_reachable env traits req h
  ⟨⟨hi.item_iff, hi.no_crash⟩, hi.balance, (itemsInv_releaseItemAndContext env hi).2⟩

/-- Two conflicting attempts, each suspended once at `get`. -/
theorem subdoc_items_accounted_retryRun :
    ((retryRun 2).conn.item.isSome = (retryRun 2).conn.commandContext.isSome ∧
        Event.crash ∉ (retryRun 2).log) ∧
      (obtained (retryRun 2).log).Perm (released (retryRun 2).log ++ held (retryRun 2).conn) ∧
      (obtained (releaseItemAndContext (scriptedEnv _ conflictingEngine) (retryRun 2)).log).Perm
        (released (releaseItemAndContext (scriptedEnv _ conflictingEngine) (retryRun 2)).log) :=
  subdoc_items_accounted _ _ _ (retryRun_reachable 2)

end Steps

end Memcached.ExecutorRuns
