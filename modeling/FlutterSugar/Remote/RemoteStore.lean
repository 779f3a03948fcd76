import FlutterSugar.Local.LocalStore

/-!
# Sending the writes

The SDK sends the first ten writes of its queue over a stream, and the server answers
them one after the other.  The stream is started once there is a write to send, shakes
hands before it takes any, and is started again after an error.

A `HARD_ASSERT` that fails ends the app, and makes an action `none` here.  What is left
out is the stream token, which nothing but the requests uses, and the callbacks of a
stream that has been closed since, which `close_count_` and `GrpcStream` keep away.

## Main definitions

* `WriteStream K V` — the stream, with the requests that the server has not answered.
* `RemoteStore K V` — the store, the pipeline and the stream.
* `fillWritePipeline` — the pipeline takes writes from the queue.
* `step` — what the app, the server, the network and the timers do.
* `Possible` — when they can do it.
* `Expected` — what the SDK takes for granted.
-/

namespace FlutterSugar.Remote
open Lib Local

variable {K V : Type}

/-! ## Errors -/

/-- The codes of `Error` but `kErrorOk`. -/
inductive ErrorCode
  | cancelled | unknown | invalidArgument | deadlineExceeded | notFound | alreadyExists
  | permissionDenied | resourceExhausted | failedPrecondition | aborted | outOfRange
  | unimplemented | internal | unavailable | dataLoss | unauthenticated
  deriving DecidableEq

namespace ErrorCode

/-- `Datastore::IsPermanentError`. -/
def isPermanentError : ErrorCode → Bool
  | cancelled | unknown | deadlineExceeded | resourceExhausted | internal | unavailable
  | unauthenticated => false
  | invalidArgument | notFound | alreadyExists | permissionDenied | failedPrecondition
  | aborted | outOfRange | unimplemented | dataLoss => true

/-- `Datastore::IsPermanentWriteError`. -/
def isPermanentWriteError (code : ErrorCode) : Bool :=
  code.isPermanentError && code ≠ aborted

end ErrorCode

/-- `util::Status`, where `none` is `Status::OK()`. -/
abbrev Status := Option ErrorCode

/-! ## The stream -/

/-- `Stream::State`. -/
inductive StreamState
  | initial | starting | opened | healthy | error | backoff
  deriving DecidableEq

inductive WriteRequest (K V : Type)
  | handshake
  | mutations (batch : MutationBatch K V)

structure WriteStream (K V : Type) where
  state : StreamState
  handshakeComplete : Bool
  /-- Whether `idleness_timer_` is running. -/
  idlenessTimer : Bool
  /-- Whether the timer of `backoff_` is running. -/
  backoffTimer : Bool
  /-- The requests on `grpc_stream_` that the server has not answered. -/
  grpcStream : Option (List (WriteRequest K V))

namespace WriteStream

def create : WriteStream K V := ⟨.initial, false, false, false, none⟩

def isOpen (w : WriteStream K V) : Bool := w.state = .opened || w.state = .healthy

def isStarted (w : WriteStream K V) : Bool :=
  w.state = .starting || w.state = .backoff || w.isOpen

def start (w : WriteStream K V) : Option (WriteStream K V) :=
  match w.state with
  -- `BackoffAndTryRestarting`
  | .error => some { w with state := .backoff, backoffTimer := true }
  | .initial => some { w with state := .starting }
  | _ => none

/-- The timer of `backoff_` has elapsed. -/
def backoffElapsed (w : WriteStream K V) : Option (WriteStream K V) :=
  if w.state = .backoff then start { w with state := .initial, backoffTimer := false } else none

def inhibitBackoff (w : WriteStream K V) : Option (WriteStream K V) :=
  if w.isStarted then none else some { w with state := .initial }

def markIdle (w : WriteStream K V) : WriteStream K V :=
  if w.isOpen then { w with idlenessTimer := true } else w

/-- `Stream::Write`. -/
def write (w : WriteStream K V) (request : WriteRequest K V) : Option (WriteStream K V) :=
  if w.isOpen then
    w.grpcStream.map fun requests =>
      { w with idlenessTimer := false, grpcStream := some (requests ++ [request]) }
  else none

def writeHandshake (w : WriteStream K V) : Option (WriteStream K V) :=
  if w.handshakeComplete then none else w.write .handshake

def writeMutations (w : WriteStream K V) (batch : MutationBatch K V) :
    Option (WriteStream K V) :=
  if w.handshakeComplete then w.write (.mutations batch) else none

/-- The server has answered the first request. -/
def answered (w : WriteStream K V) : WriteStream K V :=
  { w with grpcStream := w.grpcStream.map List.tail }

/-- `Stream::Close` of a stream that has been started, before its listener is told. -/
def closed (w : WriteStream K V) (status : Status) : WriteStream K V :=
  { w with
    state := if status = none then .initial else .error
    idlenessTimer := false
    backoffTimer := false
    grpcStream := none }

end WriteStream

/-! ## The pipeline -/

def kMaxPendingWrites : ℕ := 10

def kBatchIdUnknown : ℤ := -1

/-- `NextMutationBatchAfterBatchId`. -/
def getNextMutationBatch (s : LocalStore K V) (batchId : ℤ) : Option (MutationBatch K V) :=
  s.mutationQueue.find? fun batch => batchId + 1 ≤ batch.batchId

structure RemoteStore (K V : Type) where
  localStore : LocalStore K V
  writePipeline : List (MutationBatch K V)
  isNetworkEnabled : Bool
  writeStream : WriteStream K V

namespace RemoteStore

def create (localStore : LocalStore K V) : RemoteStore K V := ⟨localStore, [], false, .create⟩

def canAddToWritePipeline (s : RemoteStore K V) : Bool :=
  s.isNetworkEnabled && s.writePipeline.length < kMaxPendingWrites

def addToWritePipeline (s : RemoteStore K V) (batch : MutationBatch K V) :
    Option (RemoteStore K V) :=
  if s.canAddToWritePipeline then
    let t := { s with writePipeline := s.writePipeline ++ [batch] }
    if t.writeStream.isOpen && t.writeStream.handshakeComplete then
      (t.writeStream.writeMutations batch).map fun w => { t with writeStream := w }
    else some t
  else none

def shouldStartWriteStream (s : RemoteStore K V) : Bool :=
  s.isNetworkEnabled && !s.writeStream.isStarted && !s.writePipeline.isEmpty

def startWriteStream (s : RemoteStore K V) : Option (RemoteStore K V) :=
  if s.shouldStartWriteStream then s.writeStream.start.map fun w => { s with writeStream := w }
  else none

/-- `if (ShouldStartWriteStream()) StartWriteStream()`. -/
def startIfNeeded (s : RemoteStore K V) : Option (RemoteStore K V) :=
  if s.shouldStartWriteStream then s.startWriteStream else some s

/-- `write_pipeline_.back().batch_id()`. -/
def lastBatchId (s : RemoteStore K V) : ℤ :=
  match s.writePipeline.getLast? with
  | none => kBatchIdUnknown
  | some batch => batch.batchId

/-- The loop of `FillWritePipeline`.  Each turn fills a slot, so that no more than
`kMaxPendingWrites` turns are made. -/
def fillSlots (s : RemoteStore K V) (lastBatchIdRetrieved : ℤ) : ℕ → Option (RemoteStore K V)
  | 0 => some s
  | n + 1 =>
    if s.canAddToWritePipeline then
      match getNextMutationBatch s.localStore lastBatchIdRetrieved with
      | none =>
        if s.writePipeline.isEmpty then some { s with writeStream := s.writeStream.markIdle }
        else some s
      | some batch => (s.addToWritePipeline batch).bind fun t => t.fillSlots batch.batchId n
    else some s

def fillWritePipeline (s : RemoteStore K V) : Option (RemoteStore K V) :=
  (s.fillSlots s.lastBatchId kMaxPendingWrites).bind startIfNeeded

/-! ## The answers of the server -/

variable [DecidableEq K]

/-- `SyncEngine::HandleSuccessfulWrite`: the batch has to be the first of the queue. -/
def handleSuccessfulWrite (arraySize : ℕ) (s : RemoteStore K V) (batch : MutationBatch K V)
    (version : SnapshotVersion) : Option (RemoteStore K V) :=
  if s.localStore.mutationQueue.head?.map (fun head => head.batchId) = some batch.batchId then
    (s.localStore.acknowledgeBatch arraySize version).map fun store =>
      { s with localStore := store }
  else none

/-- `SyncEngine::HandleRejectedWrite`. -/
def handleRejectedWrite (s : RemoteStore K V) (batch : MutationBatch K V) :
    Option (RemoteStore K V) :=
  if s.localStore.mutationQueue.head?.map (fun head => head.batchId) = some batch.batchId then
    s.localStore.rejectBatch.map fun store => { s with localStore := store }
  else none

def onWriteStreamMutationResult (arraySize : ℕ) (s : RemoteStore K V) (version : SnapshotVersion) :
    Option (RemoteStore K V) :=
  match s.writePipeline with
  | [] => none
  | batch :: rest =>
    ({ s with writePipeline := rest }.handleSuccessfulWrite arraySize batch version).bind
      fillWritePipeline

def handleWriteError (s : RemoteStore K V) (code : ErrorCode) : Option (RemoteStore K V) :=
  if code.isPermanentWriteError then
    match s.writePipeline with
    | [] => none
    | batch :: rest =>
      s.writeStream.inhibitBackoff.bind fun w =>
        ({ s with writePipeline := rest, writeStream := w }.handleRejectedWrite batch).bind
          fillWritePipeline
  else some s

omit [DecidableEq K] in
/-- The writes of the pipeline are sent once the stream is established. -/
def onWriteStreamHandshakeComplete (s : RemoteStore K V) : Option (RemoteStore K V) :=
  (s.writePipeline.foldlM WriteStream.writeMutations s.writeStream).map fun w =>
    { s with writeStream := w }

def onWriteStreamClose (s : RemoteStore K V) : Status → Option (RemoteStore K V)
  | none => if s.shouldStartWriteStream then none else s.startIfNeeded
  | some code =>
    if s.writePipeline.isEmpty then s.startIfNeeded
    -- an error of the handshake only resets the stream token
    else if s.writeStream.handshakeComplete then (s.handleWriteError code).bind startIfNeeded
    else s.startIfNeeded

/-- `Stream::Close`. -/
def close (s : RemoteStore K V) (status : Status) : Option (RemoteStore K V) :=
  if s.writeStream.isStarted then
    (onWriteStreamClose { s with writeStream := s.writeStream.closed status } status).map fun t =>
      { t with writeStream := { t.writeStream with handshakeComplete := false } }
  else if status = none then some s
  else none

/-- `OnStreamRead`: a message that cannot be read, or the version of a commit, which a
handshake does not have. -/
def onStreamRead (arraySize : ℕ) (s : RemoteStore K V)
    (message : Except ErrorCode SnapshotVersion) : Option (RemoteStore K V) :=
  if s.writeStream.isStarted then
    match message with
    | .error code => s.close (some code)
    | .ok version =>
      let w := s.writeStream.answered
      if w.handshakeComplete then
        { s with writeStream := w }.onWriteStreamMutationResult arraySize version
      else
        let established : WriteStream K V := { w with handshakeComplete := true }
        { s with writeStream := established }.onWriteStreamHandshakeComplete
  else none

/-- `ResumeStartWithCredentials`. -/
def resumeStartWithCredentials (s : RemoteStore K V) (status : Status) :
    Option (RemoteStore K V) :=
  if s.writeStream.state = .starting then
    match status with
    | some code => s.close (some code)
    | none => some { s with writeStream := { s.writeStream with grpcStream := some [] } }
  else none

omit [DecidableEq K] in
/-- `OnStreamStart`, with `OnWriteStreamOpen`. -/
def onStreamStart (s : RemoteStore K V) : Option (RemoteStore K V) :=
  let opened : WriteStream K V := { s.writeStream with state := .opened }
  opened.writeHandshake.map fun w => { s with writeStream := w }

/-! ## The network -/

omit [DecidableEq K] in
def enableNetwork (s : RemoteStore K V) : Option (RemoteStore K V) :=
  { s with isNetworkEnabled := true }.fillWritePipeline

/-- `is_network_enabled_ = false`, with `DisableNetworkInternal`. -/
def disableNetwork (s : RemoteStore K V) : Option (RemoteStore K V) :=
  (close { s with isNetworkEnabled := false } none).map fun t => { t with writePipeline := [] }

/-- `RestartNetwork`. -/
def restartNetwork (s : RemoteStore K V) : Option (RemoteStore K V) :=
  s.disableNetwork.bind fun t =>
    t.writeStream.inhibitBackoff.bind fun w => { t with writeStream := w }.enableNetwork

/-! ## Runs -/

inductive Act (K V : Type)
  | write (key : K) (write : Write V)
  | remote (key : K) (update : DocumentUpdate V)
  | enableNetwork
  | disableNetwork
  | networkChanged
  | restart
  | credentials (status : Status)
  | streamStart
  | streamRead (message : Except ErrorCode SnapshotVersion)
  | streamFinish (status : Status)
  | healthCheck
  | backoffElapsed
  | idleElapsed

/-- `SyncEngine::WriteMutations`.  The queue asserts that the numbers of its batches
ascend. -/
def writeMutations (s : RemoteStore K V) (key : K) (m : Mutation V) : Option (RemoteStore K V) :=
  if s.localStore.mutationQueue.getLast?.all
      (fun prior => prior.batchId < s.localStore.nextBatchId) then
    { s with localStore := s.localStore.writeLocally key m }.fillWritePipeline
  else none

/-- An action, unless it fails a `HARD_ASSERT`. -/
def step (arraySize : ℕ) (s : RemoteStore K V) : Act K V → Option (RemoteStore K V)
  | .write key write => s.writeMutations key write.toMutation
  | .remote key update =>
    some { s with localStore := s.localStore.applyRemoteEvent key update.doc }
  | .enableNetwork => s.enableNetwork
  | .disableNetwork => s.disableNetwork
  -- the connectivity, or the credentials of the same user
  | .networkChanged => if s.isNetworkEnabled then s.restartNetwork else some s
  -- the store is on the disk
  | .restart => some (create s.localStore.start)
  | .credentials status => s.resumeStartWithCredentials status
  | .streamStart => s.onStreamStart
  | .streamRead message => s.onStreamRead arraySize message
  | .streamFinish status => s.close status
  | .healthCheck =>
    if s.writeStream.isOpen then
      some { s with writeStream := { s.writeStream with state := .healthy } }
    else some s
  | .backoffElapsed => s.writeStream.backoffElapsed.map fun w => { s with writeStream := w }
  | .idleElapsed => s.close none

/-- What the server, the network and the timers can do: credentials are asked for once
for each start, the server answers requests, and only a timer that runs can elapse. -/
def Possible (s : RemoteStore K V) : Act K V → Prop
  | .credentials _ => s.writeStream.state = .starting ∧ s.writeStream.grpcStream = none
  | .streamStart => s.writeStream.state = .starting ∧ s.writeStream.grpcStream.isSome
  | .streamRead _ => (s.writeStream.grpcStream.getD []).isEmpty = false
  | .streamFinish _ => s.writeStream.grpcStream.isSome
  | .backoffElapsed => s.writeStream.backoffTimer
  | .idleElapsed => s.writeStream.idlenessTimer
  | _ => True

omit [DecidableEq K] in
instance possibleDecidable (s : RemoteStore K V) : (act : Act K V) → Decidable (s.Possible act)
  | .credentials _ => inferInstanceAs (Decidable (_ ∧ _))
  | .streamStart => inferInstanceAs (Decidable (_ ∧ _))
  | .streamRead _ => inferInstanceAs (Decidable (_ = false))
  | .streamFinish _ => inferInstanceAs (Decidable (_ = true))
  | .backoffElapsed => inferInstanceAs (Decidable (_ = true))
  | .idleElapsed => inferInstanceAs (Decidable (_ = true))
  | .write _ _ | .remote _ _ | .enableNetwork | .disableNetwork | .networkChanged | .restart
  | .healthCheck => isTrue trivial

omit [DecidableEq K] in
/-- The server does not close the stream with `OK` while there are writes to send. -/
def Expected (s : RemoteStore K V) : Act K V → Prop
  | .streamFinish none => s.writePipeline.isEmpty
  | _ => True

omit [DecidableEq K] in
instance expectedDecidable (s : RemoteStore K V) : (act : Act K V) → Decidable (s.Expected act)
  | .streamFinish none => inferInstanceAs (Decidable (_ = true))
  | .streamFinish (some _) => isTrue trivial
  | .write _ _ | .remote _ _ | .enableNetwork | .disableNetwork | .networkChanged | .restart
  | .credentials _ | .streamStart | .streamRead _ | .healthCheck | .backoffElapsed
  | .idleElapsed => isTrue trivial

end RemoteStore

end FlutterSugar.Remote
