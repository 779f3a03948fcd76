import FlutterSugar.Remote.Filling

/-!
# Closing the stream

An error of a write that will not go away removes the write, which is the first of the
queue.  After any error the stream is started again if there is something to send.

## Main results

* `Inv` — what is known of every state.
* `Inv.exists_close_error` — an error closes the stream.
* `Inv.exists_disableNetwork` — what is left without a network.
-/

namespace FlutterSugar.Remote
open Lib Local

variable {K V : Type}

namespace RemoteStore
variable {s t : RemoteStore K V} {batch : MutationBatch K V}

/-! ## The invariant -/

/-- What is known of every state. -/
structure Inv (s : RemoteStore K V) : Prop where
  ordered : Ordered s.localStore
  pipeline : s.writePipeline =
    if s.isNetworkEnabled then s.localStore.mutationQueue.take kMaxPendingWrites else []
  carries : Carries s.writePipeline s.writeStream
  handshake : s.writeStream.handshakeComplete → s.writeStream.isOpen
  network : s.writeStream.isStarted → s.isNetworkEnabled
  needed : s.shouldStartWriteStream = false

theorem Inv.exists_rest (h : s.Inv) : ∃ rest,
    s.localStore.mutationQueue = s.writePipeline ++ rest ∧
      s.writePipeline.length ≤ kMaxPendingWrites := by
  rw [h.pipeline]
  split
  · exact ⟨_, (List.take_append_drop _ _).symm, List.length_take_le _ _⟩
  · exact ⟨_, rfl, Nat.zero_le _⟩

theorem Inv.network_of_ne_nil (h : s.Inv) (hne : s.writePipeline ≠ []) : s.isNetworkEnabled := by
  by_contra hnetwork
  exact hne (by rw [h.pipeline, if_neg hnetwork])

theorem Inv.handshake_eq_false (h : s.Inv) (hclosed : s.writeStream.isOpen = false) :
    s.writeStream.handshakeComplete = false := by
  by_contra hhandshake
  rw [h.handshake (by simpa using hhandshake)] at hclosed
  cases hclosed

/-- **What filling leads to**, from a stream that may just have been closed. -/
theorem exists_fill_inv (hs : Ordered s.localStore) (hnetwork : s.isNetworkEnabled)
    {rest : List (MutationBatch K V)}
    (hqueue : s.localStore.mutationQueue = s.writePipeline ++ rest)
    (hlength : s.writePipeline.length ≤ kMaxPendingWrites)
    (h : Carries s.writePipeline s.writeStream)
    (hopen : s.writeStream.handshakeComplete → s.writeStream.isOpen) :
    ∃ t, s.fillWritePipeline = some t ∧ t.Inv ∧ t.localStore = s.localStore := by
  obtain ⟨t, ht, hfilled, hneeded⟩ := exists_fillWritePipeline hs hnetwork hqueue hlength h
  have hnetwork' : t.isNetworkEnabled := hfilled.network.trans hnetwork
  refine ⟨t, ht, ⟨?_, ?_, hfilled.carries, ?_, fun _ => hnetwork', hneeded⟩, hfilled.localStore⟩
  · rw [hfilled.localStore]
    exact hs
  · rw [if_pos hnetwork', hfilled.localStore]
    exact hfilled.pipeline
  · rw [hfilled.phase.isOpen, hfilled.phase.handshake]
    exact hopen

/-! ## Closing the stream -/

/-- The flag of the handshake is reset. -/
def reset (s : RemoteStore K V) : RemoteStore K V :=
  { s with writeStream := { s.writeStream with handshakeComplete := false } }

theorem carries_reset (h : Carries s.writePipeline s.writeStream)
    (hclosed : s.writeStream.isOpen = false) :
    Carries s.reset.writePipeline s.reset.writeStream := by
  obtain ⟨store, pipeline, network, w⟩ := s
  change Carries pipeline w at h
  cases h with
  | stopped hstate _ => exact .stopped hstate false
  | starting hrequests hne _ => exact .starting hrequests hne false
  | backoff hne _ => exact .backoff hne false
  | shaking hstate hne => exact .shaking hstate hne
  | established hstate _ =>
    rw [WriteStream.isOpen_of_state hstate] at hclosed
    cases hclosed

/-- The invariant but for the flag of the handshake, of a stream that is not open while
the network is enabled. -/
structure Ready (s : RemoteStore K V) : Prop where
  ordered : Ordered s.localStore
  network : s.isNetworkEnabled
  pipeline : s.writePipeline = s.localStore.mutationQueue.take kMaxPendingWrites
  carries : Carries s.writePipeline s.writeStream
  closed : s.writeStream.isOpen = false

theorem Ready.inv_reset (h : s.Ready) (hneeded : s.shouldStartWriteStream = false) :
    s.reset.Inv :=
  ⟨h.ordered, h.pipeline.trans (if_pos h.network).symm, carries_reset h.carries h.closed,
    by simp [reset], fun _ => h.network, hneeded⟩

theorem Ready.exists_startIfNeeded (h : s.Ready) :
    ∃ t, s.startIfNeeded = some t ∧ t.reset.Inv ∧ t.localStore = s.localStore := by
  obtain ⟨w, hw, hcarries, hphase, hneeded⟩ := RemoteStore.exists_startIfNeeded h.carries
  have hready : Ready { s with writeStream := w } :=
    ⟨h.ordered, h.network, h.pipeline, hcarries, hphase.isOpen.trans h.closed⟩
  exact ⟨_, hw, hready.inv_reset hneeded, rfl⟩

section
variable [DecidableEq K]

/-- An answer of the server. -/
def isAnswer : LocalStore.Act K V → Bool
  | .acknowledge _ | .reject => true
  | _ => false

/-- The mutations that are written. -/
def written : LocalStore.Act K V → List (K × Mutation V)
  | .write key write => [(key, write.toMutation)]
  | _ => []

/-- The mutations of batches. -/
def mutations (batches : List (MutationBatch K V)) : List (K × Mutation V) :=
  batches.map fun batch => (batch.key, batch.mutation)

/-- What is done to the store is a run of it, with the actions `own` that are no answers,
and the batches `answered` leave the front of the queue while what is written joins its
end. -/
structure Drives (arraySize : ℕ) (own : List (LocalStore.Act K V))
    (answered : List (MutationBatch K V)) (s t : LocalStore K V) : Prop where
  run : ∃ acts, run (LocalStore.step arraySize) s acts = some t ∧
    acts.filter (fun act => !isAnswer act) = own
  queue : mutations s.mutationQueue ++ own.flatMap written =
    mutations answered ++ mutations t.mutationQueue

theorem drives_refl (arraySize : ℕ) (s : LocalStore K V) : Drives arraySize [] [] s s :=
  ⟨⟨[], rfl, rfl⟩, by simp [mutations]⟩

/-- A step of the store that answers nothing. -/
theorem drives_of_step {arraySize : ℕ} {s t : LocalStore K V} (act : LocalStore.Act K V)
    (hown : isAnswer act = false) (h : LocalStore.step arraySize s act = some t) :
    Drives arraySize [act] [] s t := by
  refine ⟨⟨[act], run_cons_eq_some.mpr ⟨t, h, rfl⟩, by simp [hown]⟩, ?_⟩
  cases act with
  | write key write =>
    cases h
    simp [mutations, written]
  | acknowledge version => cases hown
  | reject => cases hown
  | remote key update =>
    cases h
    simp [mutations, written]
  | start =>
    cases h
    rw [LocalStore.start]
    split <;> simp [mutations, written]

/-- An answer takes the first batch off the queue. -/
theorem drives_of_answer {arraySize : ℕ} {s t : LocalStore K V} (act : LocalStore.Act K V)
    (hanswer : isAnswer act = true) (h : LocalStore.step arraySize s act = some t)
    {batch : MutationBatch K V} (hhead : s.mutationQueue.head? = some batch) :
    Drives arraySize [] [batch] s t := by
  have hqueue : s.mutationQueue = batch :: s.mutationQueue.tail :=
    (List.cons_head?_tail hhead).symm
  have htail : t.mutationQueue = s.mutationQueue.tail := by
    cases act with
    | acknowledge version => exact (answered_acknowledgeBatch h).queue
    | reject => exact (answered_rejectBatch h).queue
    | write | remote | start => cases hanswer
  refine ⟨⟨[act], run_cons_eq_some.mpr ⟨t, h, rfl⟩, by simp [hanswer]⟩, ?_⟩
  rw [htail, hqueue]
  simp [mutations]

theorem Drives.trans {arraySize : ℕ} {own own' : List (LocalStore.Act K V)}
    {answered answered' : List (MutationBatch K V)} {s t u : LocalStore K V}
    (h : Drives arraySize own answered s t) (h' : Drives arraySize own' answered' t u) :
    Drives arraySize (own ++ own') (answered ++ answered') s u := by
  obtain ⟨⟨acts, hacts, rfl⟩, hqueue⟩ := h
  obtain ⟨⟨acts', hacts', rfl⟩, hqueue'⟩ := h'
  refine ⟨⟨acts ++ acts', run_append_eq_some hacts hacts', List.filter_append ..⟩, ?_⟩
  have hboth : mutations (answered ++ answered') = mutations answered ++ mutations answered' :=
    List.map_append ..
  rw [List.flatMap_append, ← List.append_assoc, hqueue, List.append_assoc, hqueue', hboth,
    List.append_assoc]

/-- **The first batch of the queue** can be accepted. -/
theorem exists_handleSuccessfulWrite (arraySize : ℕ) (version : SnapshotVersion)
    {rest : List (MutationBatch K V)} (hqueue : s.localStore.mutationQueue = batch :: rest) :
    ∃ store, s.handleSuccessfulWrite arraySize batch version =
        some { s with localStore := store } ∧
      s.localStore.acknowledgeBatch arraySize version = some store := by
  obtain ⟨store, hstore⟩ : ∃ store, s.localStore.acknowledgeBatch arraySize version = some store :=
    Option.isSome_iff_exists.mp (by simp [LocalStore.acknowledgeBatch, hqueue])
  refine ⟨store, ?_, hstore⟩
  rw [handleSuccessfulWrite, if_pos (by rw [hqueue]; rfl), hstore]
  rfl

/-- **The first batch of the queue** can be rejected. -/
theorem exists_handleRejectedWrite {rest : List (MutationBatch K V)}
    (hqueue : s.localStore.mutationQueue = batch :: rest) :
    ∃ store, s.handleRejectedWrite batch = some { s with localStore := store } ∧
      Answered s.localStore store ∧ ∀ arraySize, Drives arraySize [] [batch] s.localStore store := by
  obtain ⟨store, hstore⟩ : ∃ store, s.localStore.rejectBatch = some store :=
    Option.isSome_iff_exists.mp (by simp [LocalStore.rejectBatch, hqueue])
  refine ⟨store, ?_, answered_rejectBatch hstore,
    fun _ => drives_of_answer .reject rfl hstore (by rw [hqueue]; rfl)⟩
  rw [handleRejectedWrite, if_pos (by rw [hqueue]; rfl), hstore]
  rfl

/-- **An error of a write** that will not go away removes the write. -/
theorem Ready.exists_handleWriteError (h : s.Ready) (hstopped : s.writeStream.isStarted = false)
    (hne : s.writePipeline ≠ []) (code : ErrorCode) :
    ∃ t, s.handleWriteError code = some t ∧ t.Ready ∧ ∀ arraySize, Drives arraySize []
      (if code.isPermanentWriteError then s.writePipeline.head?.toList else [])
        s.localStore t.localStore := by
  rw [handleWriteError]
  split
  next =>
    obtain ⟨batch, rest, hpipeline⟩ := List.exists_cons_of_ne_nil hne
    have hfull : s.localStore.mutationQueue = s.writePipeline ++
        s.localStore.mutationQueue.drop kMaxPendingWrites := by
      rw [h.pipeline, List.take_append_drop]
    have hlength : s.writePipeline.length ≤ kMaxPendingWrites := by
      rw [h.pipeline]
      exact List.length_take_le _ _
    rw [hpipeline] at hfull hlength
    have hinhibit :
        s.writeStream.inhibitBackoff = some { s.writeStream with state := .initial } := by
      rw [WriteStream.inhibitBackoff, hstopped]
      rfl
    have hcarries : Carries rest { s.writeStream with state := .initial } := by
      obtain ⟨state, -, handshake, hw⟩ := h.carries.exists_stopped hstopped
      rw [hw]
      exact .stopped (Or.inl rfl) handshake
    obtain ⟨store, hstore, hanswered, hdrives⟩ := exists_handleRejectedWrite
      (s := { s with
        writePipeline := rest
        writeStream := { s.writeStream with state := .initial } }) hfull
    have hqueue : store.mutationQueue =
        rest ++ s.localStore.mutationQueue.drop kMaxPendingWrites := by
      rw [hanswered.queue]
      exact congrArg List.tail hfull
    obtain ⟨t, ht, hfilled, -⟩ := exists_fillWritePipeline
      (s := ⟨store, rest, s.isNetworkEnabled, { s.writeStream with state := .initial }⟩)
      (hanswered.ordered h.ordered) h.network hqueue (Nat.le_of_succ_le hlength) hcarries
    refine ⟨t, ?_, ⟨?_, hfilled.network.trans h.network, ?_, hfilled.carries, ?_⟩, ?_⟩
    · simp only [hpipeline, hinhibit, hstore, Option.bind_some, ht]
    · rw [hfilled.localStore]
      exact hanswered.ordered h.ordered
    · rw [hfilled.localStore]
      exact hfilled.pipeline
    · rw [hfilled.phase.isOpen]
      rfl
    · rw [hfilled.localStore, hpipeline]
      exact hdrives
  next => exact ⟨s, rfl, h, fun _ => drives_refl _ _⟩

/-- **An error closes the stream** and starts it again if there is something to send. -/
theorem Inv.exists_close_error (h : s.Inv) (hstarted : s.writeStream.isStarted) (code : ErrorCode) :
    ∃ t, s.close (some code) = some t ∧ t.Inv ∧ ∀ arraySize, Drives arraySize []
      (if s.writeStream.handshakeComplete && code.isPermanentWriteError then
        s.writePipeline.head?.toList else []) s.localStore t.localStore := by
  have hnetwork := h.network hstarted
  have hready : Ready { s with writeStream := s.writeStream.closed (some code) } :=
    ⟨h.ordered, hnetwork, h.pipeline.trans (if_pos hnetwork), .stopped (Or.inr rfl) _, rfl⟩
  rw [close, if_pos hstarted, onWriteStreamClose]
  split
  next hempty =>
    obtain ⟨t, ht, hinv, hstore⟩ := hready.exists_startIfNeeded
    refine ⟨_, by rw [ht]; rfl, hinv, fun _ => ?_⟩
    rw [List.isEmpty_iff.mp hempty]
    simpa [reset, hstore] using drives_refl _ _
  next hne =>
    split
    next hhandshake =>
      obtain ⟨u, hu, hreadyu, hdrives⟩ :=
        hready.exists_handleWriteError rfl (by simpa using hne) code
      obtain ⟨t, ht, hinv, hstore⟩ := hreadyu.exists_startIfNeeded
      have hcomplete : s.writeStream.handshakeComplete = true := hhandshake
      refine ⟨_, by rw [hu, Option.bind_some, ht]; rfl, hinv, fun arraySize => ?_⟩
      rw [hcomplete, Bool.true_and]
      exact hstore ▸ hdrives arraySize
    next hhandshake =>
      obtain ⟨t, ht, hinv, hstore⟩ := hready.exists_startIfNeeded
      have hincomplete : s.writeStream.handshakeComplete = false :=
        Bool.eq_false_iff.mpr hhandshake
      refine ⟨_, by rw [ht]; rfl, hinv, fun _ => ?_⟩
      rw [hincomplete]
      exact hstore ▸ drives_refl _ _

/-- **The stream is stopped** where it is not needed. -/
theorem close_ok_eq (hstarted : s.writeStream.isStarted)
    (h : s.isNetworkEnabled = false ∨ s.writePipeline = []) :
    s.close none = some { s with writeStream := .create } := by
  have hneeded :
      shouldStartWriteStream { s with writeStream := s.writeStream.closed none } = false := by
    rcases h with h | h <;> simp [shouldStartWriteStream, h]
  rw [close, if_pos hstarted, onWriteStreamClose, hneeded, startIfNeeded, hneeded]
  rfl

theorem Inv.exists_stop (h : s.Inv) (hstarted : s.writeStream.isStarted)
    (hnil : s.writePipeline = []) (arraySize : ℕ) :
    ∃ t, s.close none = some t ∧ t.Inv ∧ Drives arraySize [] [] s.localStore t.localStore := by
  refine ⟨_, close_ok_eq hstarted (Or.inr hnil), ⟨h.ordered, h.pipeline,
    .stopped (Or.inl rfl) false, ?_, ?_, ?_⟩, drives_refl _ _⟩
  · exact fun hfalse => absurd hfalse (by simp [WriteStream.create])
  · exact fun hfalse => absurd hfalse (by simp [WriteStream.create, WriteStream.isStarted,
      WriteStream.isOpen])
  · simp [shouldStartWriteStream, hnil]

/-- **It is an error to stop it** where it is needed. -/
theorem close_ok_eq_none (hstarted : s.writeStream.isStarted) (hnetwork : s.isNetworkEnabled)
    (hne : s.writePipeline ≠ []) : s.close none = none := by
  have hneeded :
      shouldStartWriteStream { s with writeStream := s.writeStream.closed none } = true := by
    simp [shouldStartWriteStream, hnetwork, hne, WriteStream.closed, WriteStream.isStarted,
      WriteStream.isOpen]
  rw [close, if_pos hstarted, onWriteStreamClose, hneeded]
  rfl

/-- **Without a network** the stream is stopped and nothing is in the pipeline. -/
theorem Inv.exists_disableNetwork (h : s.Inv) : ∃ state, (state = .initial ∨ state = .error) ∧
    s.disableNetwork = some ⟨s.localStore, [], false, ⟨state, false, false, false, none⟩⟩ := by
  by_cases hstarted : s.writeStream.isStarted
  · refine ⟨.initial, Or.inl rfl, ?_⟩
    rw [disableNetwork,
      close_ok_eq (s := { s with isNetworkEnabled := false }) hstarted (Or.inl rfl)]
    rfl
  · have hclose : close { s with isNetworkEnabled := false } none =
        some { s with isNetworkEnabled := false } := by
      rw [close, if_neg hstarted, if_pos rfl]
    obtain ⟨state, hstate, handshake, hw⟩ := h.carries.exists_stopped (by simpa using hstarted)
    have hhandshake : handshake = false := by
      have hopen := h.handshake
      rw [hw] at hopen
      rcases hstate with rfl | rfl <;> simpa [WriteStream.isOpen] using hopen
    refine ⟨state, hstate, ?_⟩
    rw [disableNetwork, hclose, hw, hhandshake]
    rfl

end

end RemoteStore

end FlutterSugar.Remote
