import Memcached.Protocol
import Mathlib

set_option autoImplicit false

/-!
# The single-path sub-document executor

`subdoc_executor<CMD>` and the functions it calls, over an engine whose state
is `σ`. The engine, the sub-document library (`Subdoc::Operation`), snappy and
the connection's buffers are collaborators outside the modelled sources; their
results are whatever the `Env` record returns, so every statement about the
executor holds for every sequence of results they may give.

The world records, besides the connection and the engine state, a log of the
engine calls the executor makes, the operations it runs, the responses it
writes, and `crash` for a `cb_assert` that fires.
-/

namespace Memcached.SubdocExecutor
open Memcached.Protocol

abbrev ItemRef := Nat

/-- What `get_item_info` reports of an item. -/
structure ItemInfo where
  cas : UInt64
  datatype : UInt8
  value : List Bytes
  deriving DecidableEq, Repr

/-- `ENGINE_STORE_OPERATION`. -/
inductive StoreOperation
  | add | set | replace | append | prepend | cas
  deriving DecidableEq, Repr

/-- The bucket engine over a state `σ`, as far as the executor calls it.
`writeValue` is the executor's `memcpy` through the first iovec of an item. -/
structure Engine (σ : Type) where
  get : σ → Bytes → UInt16 → σ × EngineErrorCode × ItemRef
  getItemInfo : σ → ItemRef → Option ItemInfo
  allocate : σ → Bytes → Nat → UInt8 → σ × EngineErrorCode × ItemRef
  itemSetCas : σ → ItemRef → UInt64 → σ
  writeValue : σ → ItemRef → Nat → Bytes → σ
  store : σ → ItemRef → StoreOperation → UInt16 → σ × EngineErrorCode × UInt64
  release : σ → ItemRef → σ

/-- `Subdoc::Error`: the codes the executor maps one by one, and any other. -/
inductive SubdocError
  | success | pathEnoent | pathMismatch | docEtoodeep | pathEinval | docEexists | pathE2big
  | numE2big | deltaE2big | valueCantinsert | valueEtoodeep | other (code : Nat)
  deriving DecidableEq, Repr

/-- `Subdoc::Result`: where a lookup matched, and the fragments whose
concatenation is a mutation's new document. -/
structure SubdocResult where
  matchloc : Bytes
  newdoc : List Bytes
  deriving DecidableEq, Repr

/-- The code set on the operation: the opcode's `optype`, with `FLAG_MKDIR_P`. -/
structure SubdocCommand where
  optype : Nat
  mkdirP : Bool
  deriving DecidableEq, Repr

/-- The collaborators of the executor. -/
structure Env (σ : Type) where
  engine : Engine σ
  opExec : SubdocCommand → Bytes → Option Bytes → Bytes → SubdocError × SubdocResult
  snappyUncompressedLength : Bytes → Option Nat
  snappyUncompress : Bytes → Option Bytes
  growDynamicBuffer : Nat → Bool
  addBinHeader : Nat → Bool
  engineError2ProtocolError : EngineErrorCode → ProtocolStatus

/-- The parts of the request the executor reads after slicing the packet. -/
structure SubdocRequest where
  key : Bytes
  path : Bytes
  value : Bytes
  flags : UInt8
  vbucket : UInt16
  cas : UInt64
  deriving DecidableEq, Repr

/-- `SubdocCmdContext`; `inDoc = none` is `in_doc.buf == NULL`. -/
structure SubdocCmdContext where
  inDoc : Option Bytes
  inCas : UInt64
  result : SubdocResult
  outDoc : Option ItemRef
  deriving DecidableEq, Repr

def SubdocCmdContext.new : SubdocCmdContext := ⟨none, 0, ⟨[], []⟩, none⟩

inductive ConnState
  | execute | mwrite | closing
  deriving DecidableEq, Repr

structure Connection where
  item : Option ItemRef
  commandContext : Option SubdocCmdContext
  aiostat : EngineErrorCode
  ewouldblock : Bool
  state : ConnState
  cas : UInt64
  deriving DecidableEq, Repr

inductive Response
  | status (s : ProtocolStatus)
  | subdoc (cas : UInt64) (value : Bytes)
  deriving DecidableEq, Repr

inductive Event
  | get (key : Bytes) (vbucket : UInt16) (ret : EngineErrorCode) (item : ItemRef)
  | allocate (key : Bytes) (nbytes : Nat) (ret : EngineErrorCode) (item : ItemRef)
  | store (item : ItemRef) (ret : EngineErrorCode)
  | release (item : ItemRef)
  | opExec (doc : Bytes)
  | respond (r : Response)
  | crash
  deriving DecidableEq, Repr

structure World (σ : Type) where
  conn : Connection
  eng : σ
  log : List Event

namespace World
variable {σ : Type}

@[simp] def emit (w : World σ) (e : Event) : World σ := { w with log := w.log ++ [e] }
@[simp] def writeBinPacket (w : World σ) (s : ProtocolStatus) : World σ := w.emit (.respond (.status s))
@[simp] def setItem (w : World σ) (i : Option ItemRef) : World σ :=
  { w with conn := { w.conn with item := i } }
@[simp] def setCommandContext (w : World σ) (c : Option SubdocCmdContext) : World σ :=
  { w with conn := { w.conn with commandContext := c } }
@[simp] def setAiostat (w : World σ) (s : EngineErrorCode) : World σ :=
  { w with conn := { w.conn with aiostat := s } }
@[simp] def setEwouldblock (w : World σ) (b : Bool) : World σ :=
  { w with conn := { w.conn with ewouldblock := b } }
@[simp] def setState (w : World σ) (s : ConnState) : World σ :=
  { w with conn := { w.conn with state := s } }
@[simp] def setCAS (w : World σ) (cas : UInt64) : World σ :=
  { w with conn := { w.conn with cas := cas } }

end World

def maximumAttempts : Nat := 100

section Executor
variable {σ : Type} (env : Env σ) (traits : CmdTraits) (req : SubdocRequest)

/-! Engine calls, each logged with its arguments and result. -/

def engineGet (w : World σ) : World σ × EngineErrorCode × ItemRef :=
  let r := env.engine.get w.eng req.key req.vbucket
  ({ w with eng := r.1, log := w.log ++ [.get req.key req.vbucket r.2.1 r.2.2] }, r.2)

def engineAllocate (w : World σ) (nbytes : Nat) : World σ × EngineErrorCode × ItemRef :=
  let r := env.engine.allocate w.eng req.key nbytes protocolBinaryDatatypeJson
  ({ w with eng := r.1, log := w.log ++ [.allocate req.key nbytes r.2.1 r.2.2] }, r.2)

def engineStore (w : World σ) (it : ItemRef) : World σ × EngineErrorCode × UInt64 :=
  let r := env.engine.store w.eng it .replace req.vbucket
  ({ w with eng := r.1, log := w.log ++ [.store it r.2.1] }, r.2)

def engineRelease (w : World σ) (it : ItemRef) : World σ :=
  { w with eng := env.engine.release w.eng it, log := w.log ++ [.release it] }

/-- Fetch the item to operate on; `true` when execution should continue. -/
def subdocFetch (w : World σ) (ret : EngineErrorCode) : World σ × Bool :=
  match w.conn.item with
  | some _ => (w, true)
  | none =>
    let (w, ret, initialItem) :=
      if ret = .success then engineGet env req w else (w, ret, default)
    if ret = .success then
      if w.conn.commandContext.isSome then (w.emit .crash, false)
      else ((w.setItem (some initialItem)).setCommandContext (some .new), true)
    else if ret = .ewouldblock then (w.setEwouldblock true, false)
    else if ret = .disconnect then (w.setState .closing, false)
    else (w.writeBinPacket (env.engineError2ProtocolError ret), false)

/-- The flat, uncompressed JSON document `get_document_for_searching` takes
from an item's info, and its CAS, or the status to fail with. -/
def documentForSearching (info : ItemInfo) (inCas : UInt64) :
    Except ProtocolStatus (Bytes × UInt64) :=
  match info.value with
  | [value] =>
    if inCas ≠ 0 ∧ inCas ≠ info.cas then .error .keyEexists
    else if info.datatype = protocolBinaryDatatypeJson then .ok (value, info.cas)
    else if info.datatype = protocolBinaryDatatypeCompressedJson then
      match env.snappyUncompressedLength value with
      | none => .error .einternal
      | some uncompressedLen =>
        if !env.growDynamicBuffer uncompressedLen then .error .e2big
        else
          match env.snappyUncompress value with
          | none => .error .einternal
          | some doc => .ok (doc, info.cas)
    else if info.datatype = protocolBinaryRawBytes ∨
        info.datatype = protocolBinaryDatatypeCompressed then .error .subdocDocNotjson
    else .error .einternal
  | _ => .error .einternal

def getDocumentForSearching (eng : σ) (item : ItemRef) (inCas : UInt64) :
    Except ProtocolStatus (Bytes × UInt64) :=
  match env.engine.getItemInfo eng item with
  | none => .error .einternal
  | some info => documentForSearching env info inCas

/-- The status `subdoc_operate` responds with for a failed operation. -/
def subdocErrorStatus : SubdocError → ProtocolStatus
  | .pathEnoent => .subdocPathEnoent
  | .pathMismatch => .subdocPathMismatch
  | .docEtoodeep => .subdocDocE2deep
  | .pathEinval => .subdocPathEinval
  | .docEexists => .subdocPathEexists
  | .pathE2big => .subdocPathE2big
  | .numE2big => .subdocNumErange
  | .deltaE2big => .subdocDeltaErange
  | .valueCantinsert => .subdocValueCantinsert
  | .valueEtoodeep => .subdocValueEtoodeep
  | _ => .einternal

/-- Prepare the operation (its code with `FLAG_MKDIR_P` when the request asks
for it, the document, the value when the opcode has one) and execute it. -/
def subdocOpExec (doc : Bytes) : SubdocError × SubdocResult :=
  let opcode : SubdocCommand :=
    ⟨traits.optype, req.flags &&& subdocFlagMkdirP == subdocFlagMkdirP⟩
  let value := if traits.requestHasValue then some req.value else none
  env.opExec opcode doc value req.path

/-- Run the operation on the document, once per fetched item; `true` when
execution should continue. -/
def subdocOperate (w : World σ) : World σ × Bool :=
  match w.conn.commandContext with
  | none => (w.emit .crash, false)
  | some context =>
    if context.inDoc.isSome then (w, true)
    else
      match w.conn.item with
      | none => (w.emit .crash, false)
      | some item =>
        match getDocumentForSearching env w.eng item req.cas with
        | .error status => (w.writeBinPacket status, false)
        | .ok (doc, docCas) =>
          let (subdocRes, result) := subdocOpExec env traits req doc
          let w := w.emit (.opExec doc)
          if subdocRes = .success then
            (w.setCommandContext (some { context with result, inDoc := some doc, inCas := docCas }),
              true)
          else
            ((w.setCommandContext (some { context with result })).writeBinPacket
              (subdocErrorStatus subdocRes), false)

/-- The `memcpy` loop: each fragment written where the previous one ended. -/
def copyNewdoc (item : ItemRef) : Nat → List Bytes → σ → σ
  | _, [], eng => eng
  | writePtr, loc :: locs, eng =>
    copyNewdoc item (writePtr + loc.length) locs (env.engine.writeValue eng item writePtr loc)

/-- Allocate the new item, set its CAS and fill it (the `out_doc == NULL` branch
of `subdoc_update`): `.inr` the filled item, or `.inl` the code
`subdoc_update` returns. -/
def subdocAllocate (w : World σ) (context : SubdocCmdContext) (ret : EngineErrorCode)
    (newDocLen : Nat) : World σ × (EngineErrorCode ⊕ ItemRef) :=
  let (w, ret, newDoc) :=
    if ret = .success then engineAllocate env req w newDocLen else (w, ret, default)
  if ret = .success then
    let w := w.setCommandContext (some { context with outDoc := some newDoc })
    let w := { w with eng := env.engine.itemSetCas w.eng newDoc context.inCas }
    match env.engine.getItemInfo w.eng newDoc with
    | none => (w.writeBinPacket .einternal, .inl .failed)
    | some _ => ({ w with eng := copyNewdoc env newDoc 0 context.result.newdoc w.eng }, .inr newDoc)
  else if ret = .ewouldblock then (w.setEwouldblock true, .inl ret)
  else if ret = .disconnect then (w.setState .closing, .inl ret)
  else (w.writeBinPacket (env.engineError2ProtocolError ret), .inl ret)

/-- Store the new item with `OPERATION_REPLACE`. -/
def subdocStore (w : World σ) (outDoc : ItemRef) : World σ × EngineErrorCode :=
  let (w, ret, newCas) := engineStore env req w outDoc
  if ret = .success then (w.setCAS newCas, ret)
  else if ret = .keyEexists then (w, ret)
  else if ret = .ewouldblock then (w.setEwouldblock true, ret)
  else if ret = .disconnect then (w.setState .closing, ret)
  else (w.writeBinPacket (env.engineError2ProtocolError ret), ret)

/-- Update the engine with the new document (mutations only). -/
def subdocUpdate (w : World σ) (ret : EngineErrorCode) : World σ × EngineErrorCode :=
  match w.conn.commandContext with
  | none => (w.emit .crash, .failed)
  | some context =>
    if !traits.isMutator then (w.setCAS context.inCas, .success)
    else
      let newDocLen := (context.result.newdoc.map List.length).sum
      match context.outDoc with
      | some outDoc => subdocStore env req w outDoc
      | none =>
        match subdocAllocate env req w context ret newDocLen with
        | (w, .inl ret) => (w, ret)
        | (w, .inr newDoc) => subdocStore env req w newDoc

def subdocResponse (w : World σ) : World σ :=
  match w.conn.commandContext with
  | none => w.emit .crash
  | some context =>
    let value := if traits.responseHasValue then context.result.matchloc else []
    if !env.addBinHeader value.length then w.setState .closing
    else ((w.emit (.respond (.subdoc w.conn.cas value))).setState .mwrite)

/-- Release `c->item` and reset the command context, whose destructor releases
`out_doc`: the start of an auto-retry. -/
def releaseItemAndContext (w : World σ) : World σ :=
  let w := match w.conn.item with
    | some item => (engineRelease env w item).setItem none
    | none => w
  let w := match w.conn.commandContext with
    | some { outDoc := some outDoc, .. } => engineRelease env w outDoc
    | _ => w
  w.setCommandContext none

/-- The `do ... while (auto_retry && attempts < MAXIMUM_ATTEMPTS)` loop, with
`fuel` iterations left and `attempts` made in this invocation. -/
def executorLoop (autoRetry : Bool) : Nat → Nat → EngineErrorCode → World σ → World σ
  | 0, _, _, w => w
  | fuel + 1, attempts, ret, w =>
    let attempts := attempts + 1
    match subdocFetch env req w ret with
    | (w, false) => w
    | (w, true) =>
      match subdocOperate env traits req w with
      | (w, false) => w
      | (w, true) =>
        let (w, ret) := subdocUpdate env traits req w ret
        if ret = .keyEexists then
          if autoRetry then
            let w := releaseItemAndContext env w
            if attempts < maximumAttempts then executorLoop autoRetry fuel attempts .success w
            else w.writeBinPacket (env.engineError2ProtocolError .tmpfail)
          else w.writeBinPacket (env.engineError2ProtocolError ret)
        else if ret ≠ .success then w
        else subdocResponse env traits w

/-- One entry into `subdoc_executor<CMD>`: `ret` starts as the connection's
`aiostat`, which is reset to success. -/
def subdocExecutor (w : World σ) : World σ :=
  executorLoop env traits req (req.cas == 0) maximumAttempts 0 w.conn.aiostat
    (w.setAiostat .success)

end Executor

end Memcached.SubdocExecutor
