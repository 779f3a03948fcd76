import FlutterSugar.Local.Coherence
import FlutterSugar.Remote.Closing

/-!
# The pipeline of writes

While the network is enabled the pipeline is the first ten writes of the queue, and the
server has been sent exactly these, in this order, once the stream is established.  So
each answer is for the first write of the queue, which is the one that the store removes.

No `HARD_ASSERT` fails, with one exception: the SDK counts on a server that does not
close the stream with `OK` while there are writes to send.

## Main results

* `pipeline_current` — the pipeline and the requests, in every state of a run.
* `proceeds_iff` — which runs end in a `HARD_ASSERT`.
* `localStore_simulates` — what the stream does to the store is a run of the store.
* `writes_answered_in_order` — no write is lost, answered twice or overtaken.
* `answers_first` — an answer is for the first write of the queue.
-/

namespace FlutterSugar.Remote
open Lib Local

variable {K V : Type}

namespace RemoteStore
variable [DecidableEq K] {s t : RemoteStore K V} {batch : MutationBatch K V}

/-! ## Steps -/

omit [DecidableEq K] in
/-- Another state of the stream, which is started. -/
theorem Inv.started (h : s.Inv) (hnetwork : s.isNetworkEnabled) {w : WriteStream K V}
    (hcarries : Carries s.writePipeline w) (hopen : w.handshakeComplete → w.isOpen)
    (hstarted : w.isStarted) : Inv { s with writeStream := w } :=
  ⟨h.ordered, h.pipeline, hcarries, hopen, fun _ => hnetwork,
    by simp [shouldStartWriteStream, hstarted]⟩

theorem Inv.exists_write (h : s.Inv) (key : K) (m : Mutation V) :
    ∃ t, s.writeMutations key m = some t ∧ t.Inv ∧
      t.localStore = s.localStore.writeLocally key m := by
  have hordered := ordered_writeLocally h.ordered key m
  have hascending : s.localStore.mutationQueue.getLast?.all
      (fun prior => prior.batchId < s.localStore.nextBatchId) = true := by
    rw [Option.all_eq_true]
    intro prior hprior
    exact decide_eq_true (h.ordered.next prior (List.mem_of_getLast? hprior))
  rw [writeMutations, if_pos hascending]
  by_cases hnetwork : s.isNetworkEnabled
  · obtain ⟨rest, hqueue, hlength⟩ := h.exists_rest
    have hqueue' : (s.localStore.writeLocally key m).mutationQueue =
        s.writePipeline ++ (rest ++ [⟨s.localStore.nextBatchId, key, m⟩]) := by
      rw [LocalStore.mutationQueue_writeLocally, hqueue, List.append_assoc]
    exact exists_fill_inv hordered hnetwork hqueue' hlength h.carries h.handshake
  · refine ⟨_, fillWritePipeline_of_disabled (by simpa using hnetwork), ⟨hordered, ?_, h.carries,
      h.handshake, h.network, h.needed⟩, rfl⟩
    rw [h.pipeline, if_neg hnetwork, if_neg hnetwork]

theorem Inv.remote (h : s.Inv) (key : K) (doc : MutableDocument V) :
    Inv { s with localStore := s.localStore.applyRemoteEvent key doc } := by
  refine ⟨ordered_applyRemoteEvent h.ordered key doc, ?_, h.carries, h.handshake, h.network,
    h.needed⟩
  rw [LocalStore.mutationQueue_applyRemoteEvent]
  exact h.pipeline

omit [DecidableEq K] in
theorem Inv.exists_enableNetwork (h : s.Inv) :
    ∃ t, s.enableNetwork = some t ∧ t.Inv ∧ t.localStore = s.localStore := by
  obtain ⟨rest, hqueue, hlength⟩ := h.exists_rest
  exact exists_fill_inv (s := { s with isNetworkEnabled := true }) h.ordered rfl hqueue hlength
    h.carries h.handshake

omit [DecidableEq K] in
/-- A state without a network. -/
theorem inv_disabled {store : LocalStore K V} (hstore : Ordered store) {state : StreamState}
    (hstate : state = .initial ∨ state = .error) :
    Inv ⟨store, [], false, ⟨state, false, false, false, none⟩⟩ := by
  refine ⟨hstore, rfl, .stopped hstate false, by simp, ?_, by simp [shouldStartWriteStream]⟩
  rcases hstate with rfl | rfl <;> simp [WriteStream.isStarted, WriteStream.isOpen]

theorem Inv.exists_restartNetwork (h : s.Inv) :
    ∃ t, s.restartNetwork = some t ∧ t.Inv ∧ t.localStore = s.localStore := by
  obtain ⟨state, hstate, hdisable⟩ := h.exists_disableNetwork
  have hinhibit : (⟨state, false, false, false, none⟩ : WriteStream K V).inhibitBackoff =
      some .create := by
    rcases hstate with rfl | rfl <;> rfl
  rw [restartNetwork, hdisable, Option.bind_some, hinhibit, Option.bind_some]
  exact (inv_disabled h.ordered (Or.inl rfl)).exists_enableNetwork

omit [DecidableEq K] in
theorem foldlM_writeMutations {state : StreamState} (hstate : state = .opened ∨ state = .healthy)
    (requests : List (WriteRequest K V)) (pipeline : List (MutationBatch K V)) :
    pipeline.foldlM WriteStream.writeMutations ⟨state, true, false, false, some requests⟩ =
      some ⟨state, true, false, false, some (requests ++ pipeline.map .mutations)⟩ := by
  induction pipeline generalizing requests with
  | nil => simp
  | cons batch pipeline ih =>
    have hwrite : WriteStream.writeMutations ⟨state, true, false, false, some requests⟩ batch =
        some ⟨state, true, false, false, some (requests ++ [.mutations batch])⟩ := by
      rcases hstate with rfl | rfl <;> rfl
    rw [List.foldlM_cons, hwrite, Option.bind_eq_bind, Option.bind_some, ih]
    simp

/-- **An answer to the handshake** lets the pipeline be sent. -/
theorem Inv.exists_handshake (h : s.Inv) {state : StreamState}
    (hstate : state = .opened ∨ state = .healthy)
    (hw : s.writeStream = ⟨state, false, false, false, some [.handshake]⟩) (arraySize : ℕ)
    (version : SnapshotVersion) :
    ∃ t, s.onStreamRead arraySize (.ok version) = some t ∧ t.Inv ∧ t.localStore = s.localStore := by
  have hstarted : s.writeStream.isStarted := by
    rw [hw]
    exact WriteStream.isStarted_of_isOpen (WriteStream.isOpen_of_state hstate)
  have hcarries : Carries s.writePipeline
      ⟨state, true, false, false, some (s.writePipeline.map .mutations)⟩ :=
    .established hstate (by simp)
  have hopen := WriteStream.isOpen_of_state (K := K) (V := V)
    (w := ⟨state, true, false, false, some (s.writePipeline.map .mutations)⟩) hstate
  refine ⟨_, ?_, h.started (h.network hstarted) hcarries (fun _ => hopen)
    (WriteStream.isStarted_of_isOpen hopen), rfl⟩
  rw [onStreamRead, if_pos hstarted]
  simp only [hw, WriteStream.answered, Bool.false_eq_true, if_false, onWriteStreamHandshakeComplete,
    Option.map_some, List.tail_cons, foldlM_writeMutations hstate, List.nil_append]

/-- **An answer to a write** is for the first write of the queue. -/
theorem Inv.exists_result (h : s.Inv) {state : StreamState}
    (hstate : state = .opened ∨ state = .healthy) {idle : Bool} {rest : List (MutationBatch K V)}
    (hpipeline : s.writePipeline = batch :: rest)
    (hw : s.writeStream = ⟨state, true, idle, false, some (s.writePipeline.map .mutations)⟩)
    (hidle : idle = true → s.writePipeline = []) (arraySize : ℕ) (version : SnapshotVersion) :
    ∃ t, s.onStreamRead arraySize (.ok version) = some t ∧ t.Inv ∧
      s.localStore.acknowledgeBatch arraySize version = some t.localStore := by
  have hstarted : s.writeStream.isStarted := by
    rw [hw]
    exact WriteStream.isStarted_of_isOpen (WriteStream.isOpen_of_state hstate)
  obtain ⟨after, hqueue, hlength⟩ := h.exists_rest
  rw [hpipeline] at hqueue hlength
  have hanswered : s.writeStream.answered =
      ⟨state, true, idle, false, some (rest.map .mutations)⟩ := by
    rw [hw, hpipeline]
    rfl
  have hrest : idle = true → rest = [] := by
    intro hi
    rw [hpipeline] at hidle
    cases hidle hi
  obtain ⟨store, hstore, hacknowledge⟩ := exists_handleSuccessfulWrite
    (s := { s with writePipeline := rest, writeStream := s.writeStream.answered }) arraySize version
    hqueue
  have hfirst := answered_acknowledgeBatch hacknowledge
  have hqueue' : store.mutationQueue = rest ++ after := by
    rw [hfirst.queue]
    exact congrArg List.tail hqueue
  obtain ⟨t, ht, hinv, hlocal⟩ := exists_fill_inv
    (s := ⟨store, rest, s.isNetworkEnabled, s.writeStream.answered⟩)
    (hfirst.ordered h.ordered) (h.network hstarted) hqueue' (Nat.le_of_succ_le hlength)
    (by rw [hanswered]; exact .established hstate hrest)
    (by rw [hanswered]; exact fun _ => WriteStream.isOpen_of_state hstate)
  refine ⟨t, ?_, hinv, hlocal ▸ hacknowledge⟩
  have hcomplete : s.writeStream.answered.handshakeComplete = true := by rw [hanswered]
  rw [onStreamRead, if_pos hstarted]
  simp only [hcomplete, if_true, onWriteStreamMutationResult, hpipeline, hstore,
    Option.bind_some, ht]

omit [DecidableEq K] in
theorem Inv.sent_eq (h : s.Inv) : s.writeStream.sent =
    if s.writeStream.handshakeComplete then s.writePipeline else [] := by
  obtain ⟨store, pipeline, network, w⟩ := s
  have hcarries := h.carries
  change Carries pipeline w at hcarries
  cases hcarries with
  | stopped hstate handshake =>
    have hfalse : handshake = false :=
      h.handshake_eq_false (by rcases hstate with rfl | rfl <;> rfl)
    rw [hfalse]
    rfl
  | starting hrequests hne handshake =>
    have hfalse : handshake = false := h.handshake_eq_false rfl
    rw [hfalse]
    rcases hrequests with rfl | rfl <;> rfl
  | backoff hne handshake =>
    have hfalse : handshake = false := h.handshake_eq_false rfl
    rw [hfalse]
    rfl
  | shaking hstate hne => rfl
  | established hstate hidle =>
    simp [WriteStream.sent, List.filterMap_map]

omit [DecidableEq K] in
/-- The write that is rejected if the stream is closed with `code`. -/
def rejected (s : RemoteStore K V) (code : ErrorCode) : List (MutationBatch K V) :=
  if code.isPermanentWriteError then s.writeStream.sent.head?.toList else []

theorem Inv.exists_close_rejected (h : s.Inv) (hstarted : s.writeStream.isStarted)
    (code : ErrorCode) :
    ∃ t, s.close (some code) = some t ∧ t.Inv ∧ ∀ arraySize,
      Drives arraySize [] (s.rejected code) s.localStore t.localStore := by
  have hrejected : s.rejected code =
      if s.writeStream.handshakeComplete && code.isPermanentWriteError then
        s.writePipeline.head?.toList else [] := by
    rw [rejected, h.sent_eq]
    cases s.writeStream.handshakeComplete <;> simp
  rw [hrejected]
  exact h.exists_close_error hstarted code

/-- The writes that an action answers: a message of an established stream is for the
first one that has been sent, and so is an error that will not go away. -/
def answers (s : RemoteStore K V) : Act K V → List (MutationBatch K V)
  | .streamRead (.ok _) => s.writeStream.sent.head?.toList
  | .streamRead (.error code) | .streamFinish (some code) => s.rejected code
  | _ => []

/-- **A message** of an open stream. -/
theorem Inv.exists_read (h : s.Inv) (arraySize : ℕ) (message : Except ErrorCode SnapshotVersion)
    (hpossible : s.Possible (.streamRead message)) :
    ∃ t, s.onStreamRead arraySize message = some t ∧ t.Inv ∧
      Drives arraySize [] (s.answers (.streamRead message)) s.localStore t.localStore := by
  obtain ⟨store, pipeline, network, w⟩ := s
  have hcarries := h.carries
  change Carries pipeline w at hcarries
  cases hcarries with
  | stopped hstate handshake => cases hpossible
  | starting hnone hne handshake => rcases hnone with rfl | rfl <;> cases hpossible
  | backoff hne handshake => cases hpossible
  | @shaking state hstate hne =>
    cases message with
    | error code =>
      have hopen := WriteStream.isOpen_of_state (K := K) (V := V)
        (w := ⟨state, false, false, false, some [.handshake]⟩) hstate
      have hstarted := WriteStream.isStarted_of_isOpen hopen
      obtain ⟨t, ht, hinv, hdrives⟩ := h.exists_close_rejected hstarted code
      exact ⟨t, by rw [onStreamRead, if_pos hstarted]; exact ht, hinv, hdrives arraySize⟩
    | ok version =>
      obtain ⟨t, ht, hinv, hstore⟩ := h.exists_handshake hstate rfl arraySize version
      exact ⟨t, ht, hinv, hstore ▸ drives_refl _ _⟩
  | @established state hstate idle hidle =>
    cases message with
    | error code =>
      have hopen := WriteStream.isOpen_of_state (K := K) (V := V)
        (w := ⟨state, true, idle, false, some (pipeline.map .mutations)⟩) hstate
      have hstarted := WriteStream.isStarted_of_isOpen hopen
      obtain ⟨t, ht, hinv, hdrives⟩ := h.exists_close_rejected hstarted code
      exact ⟨t, by rw [onStreamRead, if_pos hstarted]; exact ht, hinv, hdrives arraySize⟩
    | ok version =>
      cases pipeline with
      | nil => cases hpossible
      | cons batch rest =>
        obtain ⟨t, ht, hinv, hacknowledge⟩ := h.exists_result hstate rfl rfl hidle arraySize version
        obtain ⟨after, hqueue, -⟩ := h.exists_rest
        have hhead : store.mutationQueue.head? = some batch := by
          rw [show store.mutationQueue = batch :: rest ++ after from hqueue]
          rfl
        exact ⟨t, ht, hinv, drives_of_answer (.acknowledge version) rfl hacknowledge hhead⟩

omit [DecidableEq K] in
theorem Inv.healthy (h : s.Inv) (hopen : s.writeStream.isOpen) :
    Inv { s with writeStream := { s.writeStream with state := .healthy } } := by
  have hstarted := WriteStream.isStarted_of_isOpen hopen
  refine h.started (h.network hstarted) ?_ (fun _ => rfl) rfl
  obtain ⟨store, pipeline, network, w⟩ := s
  have hcarries := h.carries
  change Carries pipeline w at hcarries
  cases hcarries with
  | stopped hstate handshake => rcases hstate with rfl | rfl <;> cases hopen
  | starting hrequests hne handshake => cases hopen
  | backoff hne handshake => cases hopen
  | shaking hstate hne => exact .shaking (Or.inr rfl) hne
  | established hstate hidle => exact .established (Or.inr rfl) hidle

omit [DecidableEq K] in
/-- A timer that runs, and a `grpc_stream_`, show how far the stream is. -/
theorem Inv.isStarted (h : s.Inv) (hruns : s.writeStream.grpcStream.isSome ∨
    s.writeStream.idlenessTimer ∨ s.writeStream.backoffTimer) : s.writeStream.isStarted := by
  by_contra hstarted
  obtain ⟨state, -, handshake, hw⟩ := h.carries.exists_stopped (by simpa using hstarted)
  simp [hw] at hruns

omit [DecidableEq K] in
theorem Inv.nil_of_idle (h : s.Inv) (hidle : s.writeStream.idlenessTimer) :
    s.writePipeline = [] := by
  obtain ⟨store, pipeline, network, w⟩ := s
  have hcarries := h.carries
  change Carries pipeline w at hcarries
  cases hcarries with
  | stopped hstate handshake => cases hidle
  | starting hrequests hne handshake => cases hidle
  | backoff hne handshake => cases hidle
  | shaking hstate hne => cases hidle
  | established hstate hnil => exact hnil hidle

omit [DecidableEq K] in
/-- The stream opens. -/
theorem Inv.exists_streamStart (h : s.Inv) (hpossible : s.Possible .streamStart) :
    ∃ t, s.onStreamStart = some t ∧ t.Inv ∧ t.localStore = s.localStore := by
  obtain ⟨store, pipeline, network, w⟩ := s
  have hcarries := h.carries
  change Carries pipeline w at hcarries
  cases hcarries with
  | stopped hstate handshake => cases hpossible.2
  | starting hrequests hne handshake =>
    rcases hrequests with rfl | rfl
    · cases hpossible.2
    · have hfalse : handshake = false := h.handshake_eq_false rfl
      subst hfalse
      exact ⟨_, rfl, h.started (h.network rfl) (.shaking (Or.inl rfl) hne) (by simp) rfl, rfl⟩
  | backoff hne handshake => cases hpossible.2
  | shaking hstate hne => rcases hstate with rfl | rfl <;> cases hpossible.1
  | established hstate hidle => rcases hstate with rfl | rfl <;> cases hpossible.1

/-- The credentials arrive. -/
theorem Inv.exists_credentials (h : s.Inv) (status : Status)
    (hpossible : s.Possible (.credentials status)) :
    ∃ t, s.resumeStartWithCredentials status = some t ∧ t.Inv ∧
      ∀ arraySize, Drives arraySize [] [] s.localStore t.localStore := by
  obtain ⟨hstate, hnone⟩ := hpossible
  have hstarted : s.writeStream.isStarted := by simp [WriteStream.isStarted, hstate]
  unfold resumeStartWithCredentials
  rw [if_pos hstate]
  cases status with
  | some code =>
    have hclosed : s.writeStream.isOpen = false := by simp [WriteStream.isOpen, hstate]
    obtain ⟨t, ht, hinv, hdrives⟩ := h.exists_close_error hstarted code
    rw [h.handshake_eq_false hclosed] at hdrives
    exact ⟨t, ht, hinv, hdrives⟩
  | none =>
    refine ⟨_, rfl, h.started (h.network hstarted) ?_ h.handshake hstarted,
      fun _ => drives_refl _ _⟩
    obtain ⟨store, pipeline, network, w⟩ := s
    have hcarries := h.carries
    change Carries pipeline w at hcarries
    cases hcarries with
    | stopped hstopped handshake => rcases hstopped with rfl | rfl <;> cases hstate
    | starting hrequests hne handshake => exact .starting (Or.inr rfl) hne handshake
    | backoff hne handshake => cases hstate
    | shaking hopen hne => cases hnone
    | established hopen hidle => cases hnone

omit [DecidableEq K] in
/-- The stream is started after the backoff. -/
theorem Inv.exists_backoffElapsed (h : s.Inv) (hpossible : s.writeStream.backoffTimer) :
    ∃ w, s.writeStream.backoffElapsed = some w ∧ Inv { s with writeStream := w } := by
  obtain ⟨store, pipeline, network, w⟩ := s
  have hcarries := h.carries
  change Carries pipeline w at hcarries
  cases hcarries with
  | stopped hstate handshake => cases hpossible
  | starting hrequests hne handshake => cases hpossible
  | backoff hne handshake =>
    have hfalse : handshake = false := h.handshake_eq_false rfl
    subst hfalse
    exact ⟨_, rfl, h.started (h.network rfl) (.starting (Or.inl rfl) hne false) (by simp) rfl⟩
  | shaking hstate hne => cases hpossible
  | established hstate hidle => cases hpossible

/-- What an action does to the store itself. -/
def Act.own : Act K V → List (LocalStore.Act K V)
  | .write key w => [.write key w]
  | .remote key update => [.remote key update]
  | .restart => [.start]
  | _ => []

/-- **A step that is possible and expected** fails no `HARD_ASSERT`, keeps the invariant,
and does to the store what steps of the store do. -/
theorem Inv.exists_step (h : s.Inv) (arraySize : ℕ) {act : Act K V} (hpossible : s.Possible act)
    (hexpected : s.Expected act) :
    ∃ t, step arraySize s act = some t ∧ t.Inv ∧
      Drives arraySize act.own (s.answers act) s.localStore t.localStore := by
  cases act with
  | write key write =>
    obtain ⟨t, ht, hinv, hstore⟩ := h.exists_write key write.toMutation
    exact ⟨t, ht, hinv, drives_of_step (.write key write) rfl (by rw [hstore]; rfl)⟩
  | remote key update =>
    exact ⟨_, rfl, h.remote key update.doc, drives_of_step (.remote key update) rfl rfl⟩
  | enableNetwork =>
    obtain ⟨t, ht, hinv, hstore⟩ := h.exists_enableNetwork
    exact ⟨t, ht, hinv, hstore ▸ drives_refl _ _⟩
  | disableNetwork =>
    obtain ⟨state, hstate, hdisable⟩ := h.exists_disableNetwork
    exact ⟨_, hdisable, inv_disabled h.ordered hstate, drives_refl _ _⟩
  | networkChanged =>
    rw [step]
    split
    next =>
      obtain ⟨t, ht, hinv, hstore⟩ := h.exists_restartNetwork
      exact ⟨t, ht, hinv, hstore ▸ drives_refl _ _⟩
    next => exact ⟨s, rfl, h, drives_refl _ _⟩
  | restart =>
    exact ⟨_, rfl, inv_disabled (ordered_start h.ordered) (Or.inl rfl),
      drives_of_step .start rfl rfl⟩
  | credentials status =>
    obtain ⟨t, ht, hinv, hdrives⟩ := h.exists_credentials status hpossible
    exact ⟨t, ht, hinv, hdrives arraySize⟩
  | streamStart =>
    obtain ⟨t, ht, hinv, hstore⟩ := h.exists_streamStart hpossible
    exact ⟨t, ht, hinv, hstore ▸ drives_refl _ _⟩
  | streamRead message => exact h.exists_read arraySize message hpossible
  | streamFinish status =>
    have hstarted := h.isStarted (Or.inl hpossible)
    cases status with
    | some code =>
      obtain ⟨t, ht, hinv, hdrives⟩ := h.exists_close_rejected hstarted code
      exact ⟨t, ht, hinv, hdrives arraySize⟩
    | none => exact h.exists_stop hstarted (List.isEmpty_iff.mp hexpected) arraySize
  | healthCheck =>
    rw [step]
    split
    next hopen => exact ⟨_, rfl, h.healthy hopen, drives_refl _ _⟩
    next => exact ⟨s, rfl, h, drives_refl _ _⟩
  | backoffElapsed =>
    obtain ⟨w, hw, hinv⟩ := h.exists_backoffElapsed hpossible
    exact ⟨_, by rw [step, hw]; rfl, hinv, drives_refl _ _⟩
  | idleElapsed =>
    have hstarted := h.isStarted (Or.inr (Or.inl hpossible))
    exact h.exists_stop hstarted (h.nil_of_idle hpossible) arraySize

theorem Inv.step_eq_none (h : s.Inv) (arraySize : ℕ) {act : Act K V} (hpossible : s.Possible act)
    (hexpected : ¬ s.Expected act) : step arraySize s act = none := by
  cases act with
  | streamFinish status =>
    cases status with
    | none =>
      have hne : s.writePipeline ≠ [] := fun hnil => hexpected (List.isEmpty_iff.mpr hnil)
      exact close_ok_eq_none (h.isStarted (Or.inl hpossible)) (h.network_of_ne_nil hne) hne
    | some code => exact absurd trivial hexpected
  | _ => exact absurd trivial hexpected

/-! ## Runs -/

omit [DecidableEq K] in
theorem inv_create (cache : K → MutableDocument V) : Inv (create (.idle cache)) :=
  inv_disabled ⟨List.Pairwise.nil, by simp [LocalStore.idle]⟩ (Or.inl rfl)

/-- What is possible, and was not refused, keeps the invariant. -/
theorem inv_step {arraySize : ℕ} {act : Act K V} (h : s.Inv) (hpossible : s.Possible act)
    (hstep : step arraySize s act = some t) :
    t.Inv ∧ Drives arraySize act.own (s.answers act) s.localStore t.localStore := by
  by_cases hexpected : s.Expected act
  · obtain ⟨u, hu, hinv, hdrives⟩ := h.exists_step arraySize hpossible hexpected
    rw [hstep, Option.some.injEq] at hu
    exact hu ▸ ⟨hinv, hdrives⟩
  · rw [h.step_eq_none arraySize hpossible hexpected] at hstep
    cases hstep

theorem inv_run {arraySize : ℕ} {cache : K → MutableDocument V} {acts : List (Act K V)}
    (hpossible : StepsMeet (step arraySize) Possible (create (.idle cache)) acts)
    (hrun : run (step arraySize) (create (.idle cache)) acts = some s) : s.Inv :=
  run_invariant (fun _ _ _ h hp hstep => (inv_step h hp hstep).1) (inv_create cache) hpossible hrun

/-- **The pipeline of writes.**  In every state of a run it is the first ten writes of
the queue, or empty without a network; the writes that the server has been sent and has
not answered are exactly these, once the stream is established; and while there are
writes and a network, the stream is started. -/
theorem pipeline_current {arraySize : ℕ} {cache : K → MutableDocument V} {acts : List (Act K V)}
    (hpossible : StepsMeet (step arraySize) Possible (create (.idle cache)) acts)
    (hrun : run (step arraySize) (create (.idle cache)) acts = some s) :
    s.writePipeline =
        (if s.isNetworkEnabled then s.localStore.mutationQueue.take kMaxPendingWrites else []) ∧
      s.writeStream.sent = (if s.writeStream.handshakeComplete then s.writePipeline else []) ∧
      (s.isNetworkEnabled → s.localStore.mutationQueue ≠ [] → s.writeStream.isStarted) := by
  have h := inv_run hpossible hrun
  refine ⟨h.pipeline, h.sent_eq, ?_⟩
  intro hnetwork hqueue
  have hne : s.writePipeline ≠ [] := by
    rw [h.pipeline, if_pos hnetwork]
    simp [kMaxPendingWrites, hqueue]
  have hneeded := h.needed
  rw [shouldStartWriteStream, hnetwork, List.isEmpty_eq_false_iff.mpr hne] at hneeded
  simpa using hneeded

/-- The app writes a document, and the stream is established. -/
def firstWrite : List (Act String ℤ) :=
  [.enableNetwork, .write "a" (.setMerge [("b", 1)]), .credentials none, .streamStart,
    .streamRead (.ok 0)]

theorem possible_firstWrite :
    StepsMeet (step 0) Possible (create (.idle LocalStore.nothingCached)) firstWrite := by
  decide +kernel

theorem exists_firstWrite : ∃ s : RemoteStore String ℤ,
    run (step 0) (create (.idle LocalStore.nothingCached)) firstWrite = some s ∧
      s.isNetworkEnabled ∧ s.localStore.mutationQueue.length = 1 ∧
        s.writeStream.sent.length = 1 := by
  have hrun : (run (step 0) (create (.idle LocalStore.nothingCached)) firstWrite).any
      (fun s => s.isNetworkEnabled && (s.localStore.mutationQueue.length == 1) &&
        (s.writeStream.sent.length == 1)) = true := by decide +kernel
  obtain ⟨s, hs, hholds⟩ := (Option.any_eq_true _ _).mp hrun
  exact ⟨s, hs, by simpa [and_assoc] using hholds⟩

theorem pipeline_current_firstWrite : ∃ s : RemoteStore String ℤ,
    run (step 0) (create (.idle LocalStore.nothingCached)) firstWrite = some s ∧
      s.writePipeline =
        (if s.isNetworkEnabled then s.localStore.mutationQueue.take kMaxPendingWrites else []) ∧
      s.writeStream.sent = (if s.writeStream.handshakeComplete then s.writePipeline else []) ∧
      s.writeStream.isStarted := by
  obtain ⟨s, hrun, hnetwork, hqueue, -⟩ := exists_firstWrite
  obtain ⟨hpipeline, hsent, hstarted⟩ := pipeline_current possible_firstWrite hrun
  have hne : s.localStore.mutationQueue ≠ [] := List.ne_nil_of_length_pos (by omega)
  exact ⟨s, hrun, hpipeline, hsent, hstarted hnetwork hne⟩

/-- **Which runs end in a `HARD_ASSERT`.**  None does exactly if the server never closes
the stream with `OK` while there are writes to send. -/
theorem proceeds_iff {arraySize : ℕ} {cache : K → MutableDocument V} {acts : List (Act K V)}
    (hpossible : StepsMeet (step arraySize) Possible (create (.idle cache)) acts) :
    (run (step arraySize) (create (.idle cache)) acts).isSome ↔
      StepsMeet (step arraySize) Expected (create (.idle cache)) acts := by
  refine isSome_run_iff_stepsMeet ?_ (fun s act h hp => h.step_eq_none arraySize hp)
    (inv_create cache) hpossible
  intro s act h hp hexpected
  obtain ⟨t, ht, hinv, -⟩ := h.exists_step arraySize hp hexpected
  exact ⟨t, ht, hinv⟩

/-- The server closes the stream while the write is on its way. -/
theorem proceeds_iff_closedByServer :
    ¬ (run (step 0) (create (.idle LocalStore.nothingCached))
      (firstWrite ++ [.streamFinish none])).isSome := by
  have hpossible : StepsMeet (step 0) Possible (create (.idle LocalStore.nothingCached))
      (firstWrite ++ [.streamFinish none]) := by decide +kernel
  rw [proceeds_iff hpossible]
  decide +kernel

/-- The writes that the server has answered in a run, in the order of its answers. -/
def answered (arraySize : ℕ) (s : RemoteStore K V) (acts : List (Act K V)) :
    List (MutationBatch K V) :=
  emitted (step arraySize) answers s acts

theorem drives_run {arraySize : ℕ} {acts : List (Act K V)} (h : s.Inv)
    (hpossible : StepsMeet (step arraySize) Possible s acts)
    (hrun : run (step arraySize) s acts = some t) :
    Drives arraySize (acts.flatMap Act.own) (s.answered arraySize acts) s.localStore
      t.localStore := by
  induction acts generalizing s with
  | nil =>
    rw [run_nil, Option.some.injEq] at hrun
    exact hrun ▸ drives_refl _ _
  | cons act acts ih =>
    obtain ⟨u, hu, hrun⟩ := run_cons_eq_some.mp hrun
    obtain ⟨hinv, hdrives⟩ := inv_step h hpossible.1 hu
    rw [List.flatMap_cons, answered, emitted_cons hu]
    exact hdrives.trans (ih hinv (hpossible.2 u hu) hrun)

/-- **The stream and the store.**  Whatever the server, the network and the timers do,
the store goes through a run of its own: the writes, the remote events and the restarts
in their order, with answers between them of which none is refused. -/
theorem localStore_simulates {arraySize : ℕ} {cache : K → MutableDocument V}
    {acts : List (Act K V)}
    (hpossible : StepsMeet (step arraySize) Possible (create (.idle cache)) acts)
    (hrun : run (step arraySize) (create (.idle cache)) acts = some s) :
    ∃ storeActs, run (LocalStore.step arraySize) (.idle cache) storeActs = some s.localStore ∧
      storeActs.filter (fun act => !isAnswer act) = acts.flatMap Act.own :=
  (drives_run (inv_create cache) hpossible hrun).run

theorem localStore_simulates_firstWrite : ∃ (s : RemoteStore String ℤ)
    (storeActs : List (LocalStore.Act String ℤ)),
    run (step 0) (create (.idle LocalStore.nothingCached)) firstWrite = some s ∧
      run (LocalStore.step 0) (.idle LocalStore.nothingCached) storeActs = some s.localStore ∧
        storeActs.filter (fun act => !isAnswer act) = [.write "a" (.setMerge [("b", 1)])] := by
  obtain ⟨s, hrun, -⟩ := exists_firstWrite
  obtain ⟨storeActs, hstore, hown⟩ := localStore_simulates possible_firstWrite hrun
  exact ⟨s, storeActs, hrun, hstore, hown⟩

/-! ## The writes of a run -/

/-- **No write is lost, answered twice or overtaken.**  In every state of a run the
writes of the run, in their order, are those that the server has answered, in the order
of its answers, and then those of the queue. -/
theorem writes_answered_in_order {arraySize : ℕ} {cache : K → MutableDocument V}
    {acts : List (Act K V)}
    (hpossible : StepsMeet (step arraySize) Possible (create (.idle cache)) acts)
    (hrun : run (step arraySize) (create (.idle cache)) acts = some s) :
    (acts.flatMap Act.own).flatMap written =
      mutations ((create (.idle cache)).answered arraySize acts) ++
        mutations s.localStore.mutationQueue :=
  (drives_run (inv_create cache) hpossible hrun).queue

/-- The server has answered the write, and the next one waits. -/
theorem writes_answered_in_order_firstWrite : ∃ s : RemoteStore String ℤ,
    run (step 0) (create (.idle LocalStore.nothingCached))
        (firstWrite ++ [.streamRead (.ok 1), .write "a" .delete]) = some s ∧
      [("a", (Write.setMerge [("b", 1)]).toMutation), ("a", Write.delete.toMutation)] =
        mutations ((create (.idle LocalStore.nothingCached)).answered 0
          (firstWrite ++ [.streamRead (.ok 1), .write "a" .delete])) ++
            mutations s.localStore.mutationQueue := by
  have hpossible : StepsMeet (step 0) Possible (create (.idle LocalStore.nothingCached))
      (firstWrite ++ [.streamRead (.ok 1), .write "a" .delete]) := by decide +kernel
  obtain ⟨s, hrun⟩ := Option.isSome_iff_exists.mp (show (run (step 0)
    (create (.idle LocalStore.nothingCached))
      (firstWrite ++ [.streamRead (.ok 1), .write "a" .delete])).isSome by decide +kernel)
  exact ⟨s, hrun, writes_answered_in_order hpossible hrun⟩

/-- **What an answer is for.**  In every state of a run, an answer of the server to the
first write that it has been sent acknowledges this write, which is the first of the
queue. -/
theorem answers_first {arraySize : ℕ} {cache : K → MutableDocument V} {acts : List (Act K V)}
    (hpossible : StepsMeet (step arraySize) Possible (create (.idle cache)) acts)
    (hrun : run (step arraySize) (create (.idle cache)) acts = some s)
    {rest : List (MutationBatch K V)} (hsent : s.writeStream.sent = batch :: rest)
    {version : SnapshotVersion}
    (hstep : step arraySize s (.streamRead (.ok version)) = some t) :
    s.localStore.mutationQueue = batch :: t.localStore.mutationQueue ∧
      s.localStore.acknowledgeBatch arraySize version = some t.localStore := by
  have h := inv_run hpossible hrun
  have hpipeline := h.sent_eq
  obtain ⟨after, hqueue, -⟩ := h.exists_rest
  rw [hsent] at hpipeline
  split at hpipeline
  next hhandshake =>
    have hopen := h.handshake hhandshake
    obtain ⟨state, hstate, idle, hidle, hw⟩ := h.carries.exists_established hhandshake hopen
    obtain ⟨u, hu, -, hacknowledge⟩ :=
      h.exists_result hstate hpipeline.symm hw hidle arraySize version
    rw [show s.onStreamRead arraySize (.ok version) = some t from hstep, Option.some.injEq] at hu
    subst hu
    refine ⟨?_, hacknowledge⟩
    rw [(answered_acknowledgeBatch hacknowledge).queue, hqueue, ← hpipeline]
    rfl
  next => cases hpipeline

theorem answers_first_firstWrite : ∃ (s t : RemoteStore String ℤ) (batch : MutationBatch String ℤ),
    run (step 0) (create (.idle LocalStore.nothingCached)) firstWrite = some s ∧
      step 0 s (.streamRead (.ok 1)) = some t ∧
      s.localStore.mutationQueue = batch :: t.localStore.mutationQueue ∧
        s.localStore.acknowledgeBatch 0 1 = some t.localStore := by
  obtain ⟨s, hrun, -, -, hsent⟩ := exists_firstWrite
  obtain ⟨t, ht⟩ := Option.isSome_iff_exists.mp (show (run (step 0)
    (create (.idle LocalStore.nothingCached)) (firstWrite ++ [.streamRead (.ok 1)])).isSome by
      decide +kernel)
  obtain ⟨u, hu, hstep⟩ := run_concat_eq_some.mp ht
  rw [hrun, Option.some.injEq] at hu
  subst hu
  obtain ⟨batch, rest, hcons⟩ := List.exists_cons_of_length_eq_add_one hsent
  exact ⟨s, t, batch, hrun, hstep, answers_first possible_firstWrite hrun hcons hstep⟩

end RemoteStore

end FlutterSugar.Remote
