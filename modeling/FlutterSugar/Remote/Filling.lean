import FlutterSugar.Remote.RemoteStore
import Mathlib.Data.List.Infix
import Mathlib.Tactic.Common

/-!
# Filling the pipeline

The batches of the queue are numbered in ascending order, so that the batch after the
last one of the pipeline is the next of the queue.  A batch that is added while the
stream is established is sent.

## Main results

* `Carries` — what is known of a stream that carries a pipeline.
* `exists_fillWritePipeline` — the pipeline is filled and the stream is started.
-/

namespace FlutterSugar.Remote
open Lib Local

variable {K V : Type}

/-! ## The queue -/

/-- The batches of the queue are numbered in ascending order. -/
structure Ordered (s : LocalStore K V) : Prop where
  ids : s.mutationQueue.Pairwise fun b b' => b.batchId < b'.batchId
  next : ∀ batch ∈ s.mutationQueue, batch.batchId < s.nextBatchId

section
variable [DecidableEq K] {s t : LocalStore K V}

/-- The queue loses its first batch. -/
structure Answered (s t : LocalStore K V) : Prop where
  queue : t.mutationQueue = s.mutationQueue.tail
  next : t.nextBatchId = s.nextBatchId

omit [DecidableEq K] in
theorem Answered.ordered (h : Answered s t) (hs : Ordered s) : Ordered t := by
  refine ⟨?_, ?_⟩
  · rw [h.queue]
    exact hs.ids.sublist (List.tail_sublist _)
  · intro batch hbatch
    rw [h.queue] at hbatch
    rw [h.next]
    exact hs.next batch (List.mem_of_mem_tail hbatch)

theorem nextBatchId_recalculateAndSaveOverlays (s : LocalStore K V) (key : K)
    (doc : MutableDocument V) :
    (s.recalculateAndSaveOverlays key doc).nextBatchId = s.nextBatchId := by
  simp only [LocalStore.recalculateAndSaveOverlays]
  split <;> rfl

theorem answered_recalculate (s : LocalStore K V) (batch : MutationBatch K V)
    (doc doc' : MutableDocument V) :
    Answered s ((s.answered batch doc).recalculateAndSaveOverlays batch.key doc') :=
  ⟨LocalStore.mutationQueue_recalculateAndSaveOverlays _ _ _,
    nextBatchId_recalculateAndSaveOverlays _ _ _⟩

theorem answered_acknowledgeBatch {arraySize : ℕ} {version : SnapshotVersion}
    (h : s.acknowledgeBatch arraySize version = some t) : Answered s t := by
  obtain ⟨batch, -, rfl⟩ := Option.map_eq_some_iff.mp h
  split
  · exact answered_recalculate s batch _ _
  · exact ⟨rfl, rfl⟩

theorem answered_rejectBatch (h : s.rejectBatch = some t) : Answered s t := by
  obtain ⟨batch, -, rfl⟩ := Option.map_eq_some_iff.mp h
  exact answered_recalculate s batch _ _

theorem ordered_writeLocally (hs : Ordered s) (key : K) (m : Mutation V) :
    Ordered (s.writeLocally key m) := by
  have hnext : (s.writeLocally key m).nextBatchId = s.nextBatchId + 1 := by
    simp only [LocalStore.writeLocally]
    split <;> rfl
  refine ⟨?_, ?_⟩
  · rw [LocalStore.mutationQueue_writeLocally, List.pairwise_append]
    refine ⟨hs.ids, List.pairwise_singleton _ _, ?_⟩
    intro batch hbatch new hnew
    rw [List.mem_singleton.mp hnew]
    exact hs.next batch hbatch
  · intro batch hbatch
    rw [LocalStore.mutationQueue_writeLocally] at hbatch
    rw [hnext]
    rcases List.mem_append.mp hbatch with hold | hnew
    · exact Nat.lt_succ_of_lt (hs.next batch hold)
    · rw [List.mem_singleton.mp hnew]
      exact Nat.lt_succ_self _

theorem ordered_applyRemoteEvent (hs : Ordered s) (key : K) (doc : MutableDocument V) :
    Ordered (s.applyRemoteEvent key doc) := by
  have hnext : (s.applyRemoteEvent key doc).nextBatchId = s.nextBatchId := by
    rw [LocalStore.applyRemoteEvent]
    cases s.populateDocumentChanges key doc with
    | none => rfl
    | some cached =>
      dsimp only
      split
      · exact nextBatchId_recalculateAndSaveOverlays _ _ _
      · rfl
  refine ⟨?_, ?_⟩
  · rw [LocalStore.mutationQueue_applyRemoteEvent]
    exact hs.ids
  · rw [LocalStore.mutationQueue_applyRemoteEvent, hnext]
    exact hs.next

omit [DecidableEq K] in
theorem ordered_start (hs : Ordered s) : Ordered s.start := by
  rw [LocalStore.start]
  split
  next hnil => exact ⟨hs.ids, by simp [hnil]⟩
  next => exact hs

end

/-- **The next batch** after the first ones is the one that follows them. -/
theorem getNextMutationBatch_eq {s : LocalStore K V}
    {pipeline rest : List (MutationBatch K V)} (hqueue : s.mutationQueue = pipeline ++ rest)
    {last : ℤ} (hlast : ∀ batch ∈ pipeline, (batch.batchId : ℤ) ≤ last)
    (hrest : ∀ batch ∈ rest, last < batch.batchId) :
    getNextMutationBatch s last = rest.head? := by
  have hpipeline : pipeline.find? (fun batch => decide (last + 1 ≤ batch.batchId)) = none := by
    rw [List.find?_eq_none]
    intro batch hbatch
    have hle := hlast batch hbatch
    simp only [decide_eq_true_eq]
    omega
  rw [getNextMutationBatch, hqueue, List.find?_append, hpipeline, Option.none_or]
  cases rest with
  | nil => rfl
  | cons batch rest =>
    have hlt := hrest batch (by simp)
    rw [List.find?_cons_of_pos (by simp only [decide_eq_true_eq]; omega)]
    rfl

/-! ## The stream -/

/-- What is known of a stream that carries a pipeline.  The flag of the handshake is
still set while the listener is told that the stream is closed. -/
inductive Carries (pipeline : List (MutationBatch K V)) : WriteStream K V → Prop
  | stopped {state : StreamState} (hstate : state = .initial ∨ state = .error)
      (handshake : Bool) : Carries pipeline ⟨state, handshake, false, false, none⟩
  | starting {requests : Option (List (WriteRequest K V))}
      (hrequests : requests = none ∨ requests = some []) (hne : pipeline ≠ [])
      (handshake : Bool) : Carries pipeline ⟨.starting, handshake, false, false, requests⟩
  | backoff (hne : pipeline ≠ []) (handshake : Bool) :
      Carries pipeline ⟨.backoff, handshake, false, true, none⟩
  | shaking {state : StreamState} (hstate : state = .opened ∨ state = .healthy)
      (hne : pipeline ≠ []) : Carries pipeline ⟨state, false, false, false, some [.handshake]⟩
  | established {state : StreamState} (hstate : state = .opened ∨ state = .healthy)
      {idle : Bool} (hidle : idle = true → pipeline = []) :
      Carries pipeline ⟨state, true, idle, false, some (pipeline.map .mutations)⟩

theorem WriteStream.isOpen_of_state {w : WriteStream K V}
    (hstate : w.state = .opened ∨ w.state = .healthy) : w.isOpen := by
  rcases hstate with hstate | hstate <;> simp [isOpen, hstate]

theorem WriteStream.isStarted_of_isOpen {w : WriteStream K V} (h : w.isOpen) : w.isStarted := by
  rw [isStarted, h, Bool.or_true]

/-- A stream that is not started is stopped. -/
theorem Carries.exists_stopped {pipeline : List (MutationBatch K V)} {w : WriteStream K V}
    (h : Carries pipeline w) (hstarted : w.isStarted = false) :
    ∃ state, (state = .initial ∨ state = .error) ∧
      ∃ handshake, w = ⟨state, handshake, false, false, none⟩ := by
  cases h with
  | stopped hstate handshake => exact ⟨_, hstate, handshake, rfl⟩
  | starting _ _ _ => simp [WriteStream.isStarted] at hstarted
  | backoff _ _ => simp [WriteStream.isStarted] at hstarted
  | shaking hstate _ =>
    rw [WriteStream.isStarted_of_isOpen (WriteStream.isOpen_of_state hstate)] at hstarted
    cases hstarted
  | established hstate _ =>
    rw [WriteStream.isStarted_of_isOpen (WriteStream.isOpen_of_state hstate)] at hstarted
    cases hstarted

/-- A stream that is open after its handshake is established. -/
theorem Carries.exists_established {pipeline : List (MutationBatch K V)} {w : WriteStream K V}
    (h : Carries pipeline w) (hhandshake : w.handshakeComplete) (hopen : w.isOpen) :
    ∃ state, (state = .opened ∨ state = .healthy) ∧ ∃ idle, (idle = true → pipeline = []) ∧
      w = ⟨state, true, idle, false, some (pipeline.map .mutations)⟩ := by
  cases h with
  | stopped hstate handshake => rcases hstate with rfl | rfl <;> cases hopen
  | starting hrequests hne handshake => cases hopen
  | backoff hne handshake => cases hopen
  | shaking hstate hne => cases hhandshake
  | established hstate hidle => exact ⟨_, hstate, _, hidle, rfl⟩

/-- The writes that the server has been sent and has not answered. -/
def WriteStream.sent (w : WriteStream K V) : List (MutationBatch K V) :=
  (w.grpcStream.getD []).filterMap fun
    | .handshake => none
    | .mutations batch => some batch

namespace RemoteStore

/-- The stream is as open, and as far with its handshake, as before. -/
structure SamePhase (w w' : WriteStream K V) : Prop where
  isOpen : w'.isOpen = w.isOpen
  handshake : w'.handshakeComplete = w.handshakeComplete

variable {s t : RemoteStore K V} {batch : MutationBatch K V}

theorem SamePhase.trans {u v w : WriteStream K V} (h : SamePhase u v) (h' : SamePhase v w) :
    SamePhase u w :=
  ⟨h'.isOpen.trans h.isOpen, h'.handshake.trans h.handshake⟩

/-- **A batch that is added** is sent if the stream is established. -/
theorem exists_addToWritePipeline (hadd : s.canAddToWritePipeline)
    (h : Carries s.writePipeline s.writeStream) (batch : MutationBatch K V) :
    ∃ w, s.addToWritePipeline batch =
        some { s with writePipeline := s.writePipeline ++ [batch], writeStream := w } ∧
      Carries (s.writePipeline ++ [batch]) w ∧ SamePhase s.writeStream w := by
  obtain ⟨store, pipeline, network, w⟩ := s
  have hne : pipeline ++ [batch] ≠ [] := by simp
  rw [addToWritePipeline, if_pos hadd]
  change Carries pipeline w at h
  cases h with
  | stopped hstate handshake =>
    refine ⟨_, if_neg ?_, .stopped hstate handshake, rfl, rfl⟩
    rcases hstate with rfl | rfl <;> simp [WriteStream.isOpen]
  | starting hrequests _ handshake =>
    exact ⟨_, if_neg (by simp [WriteStream.isOpen]), .starting hrequests hne handshake, rfl, rfl⟩
  | backoff _ handshake =>
    exact ⟨_, if_neg (by simp [WriteStream.isOpen]), .backoff hne handshake, rfl, rfl⟩
  | shaking hstate _ => exact ⟨_, if_neg (by simp), .shaking hstate hne, rfl, rfl⟩
  | established hstate hidle =>
    refine ⟨⟨_, true, false, false, some ((pipeline ++ [batch]).map .mutations)⟩, ?_,
      .established hstate (by simp), rfl, rfl⟩
    rcases hstate with rfl | rfl <;>
      simp [WriteStream.isOpen, WriteStream.writeMutations, WriteStream.write]

theorem carries_markIdle {w : WriteStream K V} (h : Carries [] w) : Carries [] w.markIdle := by
  cases h with
  | stopped hstate handshake =>
    rcases hstate with rfl | rfl
    · exact .stopped (Or.inl rfl) handshake
    · exact .stopped (Or.inr rfl) handshake
  | starting _ hne _ => exact absurd rfl hne
  | backoff hne _ => exact absurd rfl hne
  | shaking _ hne => exact absurd rfl hne
  | established hstate hidle =>
    rcases hstate with rfl | rfl
    · exact .established (Or.inl rfl) fun _ => rfl
    · exact .established (Or.inr rfl) fun _ => rfl

theorem samePhase_markIdle (w : WriteStream K V) : SamePhase w w.markIdle := by
  rw [WriteStream.markIdle]
  split <;> exact ⟨rfl, rfl⟩

/-- **The stream is started** if there is something to send, after an error with a
backoff. -/
theorem exists_startIfNeeded (h : Carries s.writePipeline s.writeStream) :
    ∃ w, s.startIfNeeded = some { s with writeStream := w } ∧ Carries s.writePipeline w ∧
      SamePhase s.writeStream w ∧ shouldStartWriteStream { s with writeStream := w } = false := by
  rw [startIfNeeded]
  split
  next hneeded =>
    rw [startWriteStream, if_pos hneeded]
    simp only [shouldStartWriteStream, Bool.and_eq_true, Bool.not_eq_true',
      List.isEmpty_eq_false_iff] at hneeded
    obtain ⟨⟨-, hstarted⟩, hne⟩ := hneeded
    obtain ⟨state, hstate, handshake, hw⟩ := h.exists_stopped hstarted
    rw [hw]
    rcases hstate with rfl | rfl
    · exact ⟨_, rfl, .starting (Or.inl rfl) hne handshake, ⟨rfl, rfl⟩,
        by simp [shouldStartWriteStream, WriteStream.isStarted]⟩
    · exact ⟨_, rfl, .backoff hne handshake, ⟨rfl, rfl⟩,
        by simp [shouldStartWriteStream, WriteStream.isStarted]⟩
  next hneeded => exact ⟨s.writeStream, rfl, h, ⟨rfl, rfl⟩, by simpa using hneeded⟩

/-! ## Filling the pipeline -/

/-- The pipeline has as many writes of the queue as it takes. -/
structure Filled (s t : RemoteStore K V) : Prop where
  localStore : t.localStore = s.localStore
  network : t.isNetworkEnabled = s.isNetworkEnabled
  pipeline : t.writePipeline = s.localStore.mutationQueue.take kMaxPendingWrites
  carries : Carries t.writePipeline t.writeStream
  phase : SamePhase s.writeStream t.writeStream

theorem filled_self {rest : List (MutationBatch K V)}
    (hqueue : s.localStore.mutationQueue = s.writePipeline ++ rest)
    (hlength : s.writePipeline.length ≤ kMaxPendingWrites)
    (h : Carries s.writePipeline s.writeStream)
    (hfull : s.writePipeline.length = kMaxPendingWrites ∨ rest = []) : Filled s s := by
  refine ⟨rfl, rfl, ?_, h, rfl, rfl⟩
  rw [hqueue]
  rcases hfull with hfull | rfl
  · rw [← hfull, List.take_left]
  · rw [List.append_nil, List.take_of_length_le hlength]

/-- **The loop fills the pipeline.**  It is the first batches of the queue before each
turn, and the last of them is the one that was retrieved last. -/
theorem exists_fillSlots (n : ℕ) {rest : List (MutationBatch K V)} {last : ℤ}
    (hs : Ordered s.localStore) (hnetwork : s.isNetworkEnabled)
    (hqueue : s.localStore.mutationQueue = s.writePipeline ++ rest)
    (hlength : s.writePipeline.length ≤ kMaxPendingWrites)
    (hn : kMaxPendingWrites ≤ s.writePipeline.length + n)
    (hlast : ∀ batch ∈ s.writePipeline, (batch.batchId : ℤ) ≤ last)
    (hrest : ∀ batch ∈ rest, last < batch.batchId)
    (h : Carries s.writePipeline s.writeStream) :
    ∃ t, s.fillSlots last n = some t ∧ Filled s t := by
  induction n generalizing s last rest with
  | zero => exact ⟨s, rfl, filled_self hqueue hlength h (Or.inl (le_antisymm hlength hn))⟩
  | succ n ih =>
    rw [fillSlots]
    by_cases hadd : s.canAddToWritePipeline
    · rw [if_pos hadd, getNextMutationBatch_eq hqueue hlast hrest]
      cases rest with
      | nil =>
        have hall := filled_self hqueue hlength h (Or.inr rfl)
        simp only [List.head?_nil]
        split
        next hempty =>
          have hnil : s.writePipeline = [] := List.isEmpty_iff.mp hempty
          have hcarries : Carries s.writePipeline s.writeStream.markIdle := by
            rw [hnil] at h ⊢
            exact carries_markIdle h
          exact ⟨_, rfl, rfl, rfl, hall.pipeline, hcarries, samePhase_markIdle _⟩
        next => exact ⟨s, rfl, hall⟩
      | cons batch rest =>
        obtain ⟨w, hw, hcarries, hphase⟩ := exists_addToWritePipeline hadd h batch
        simp only [List.head?_cons, hw, Option.bind_some]
        have hids := hs.ids
        rw [hqueue, List.pairwise_append, List.pairwise_cons] at hids
        have hroom : s.writePipeline.length < kMaxPendingWrites := by
          simpa [canAddToWritePipeline, hnetwork] using hadd
        have hlength' : (s.writePipeline ++ [batch]).length = s.writePipeline.length + 1 := by simp
        have hlast' : ∀ b ∈ s.writePipeline ++ [batch], (b.batchId : ℤ) ≤ batch.batchId := by
          intro b hb
          rcases List.mem_append.mp hb with hold | hnew
          · exact_mod_cast (hids.2.2 b hold batch (by simp)).le
          · rw [List.mem_singleton.mp hnew]
        have hrest' : ∀ b ∈ rest, (batch.batchId : ℤ) < b.batchId := by
          intro b hb
          exact_mod_cast hids.2.1.1 b hb
        obtain ⟨t, ht, hfilled⟩ := @ih
          { s with writePipeline := s.writePipeline ++ [batch], writeStream := w }
          rest batch.batchId hs hnetwork (by simpa using hqueue) (by rw [hlength']; exact hroom)
          (by rw [hlength']; omega) hlast' hrest' hcarries
        exact ⟨t, ht, hfilled.localStore, hfilled.network, hfilled.pipeline, hfilled.carries,
          hphase.trans hfilled.phase⟩
    · rw [if_neg hadd]
      have hle : kMaxPendingWrites ≤ s.writePipeline.length := by
        simpa [canAddToWritePipeline, hnetwork] using hadd
      exact ⟨s, rfl, filled_self hqueue hlength h (Or.inl (le_antisymm hlength hle))⟩

/-- **The pipeline is filled** from the first batches of the queue, and the stream is
started. -/
theorem exists_fillWritePipeline (hs : Ordered s.localStore) (hnetwork : s.isNetworkEnabled)
    {rest : List (MutationBatch K V)}
    (hqueue : s.localStore.mutationQueue = s.writePipeline ++ rest)
    (hlength : s.writePipeline.length ≤ kMaxPendingWrites)
    (h : Carries s.writePipeline s.writeStream) :
    ∃ t, s.fillWritePipeline = some t ∧ Filled s t ∧ t.shouldStartWriteStream = false := by
  have hids := hs.ids
  rw [hqueue, List.pairwise_append] at hids
  have hlast : ∀ b ∈ s.writePipeline, (b.batchId : ℤ) ≤ s.lastBatchId := by
    intro b hb
    rw [lastBatchId]
    obtain ⟨init, last, hinit⟩ := List.eq_nil_or_concat s.writePipeline |>.resolve_left
      (List.ne_nil_of_mem hb)
    have hasc := hids.1
    rw [List.concat_eq_append] at hinit
    rw [hinit, List.pairwise_append] at hasc
    rw [hinit] at hb
    rw [hinit, List.getLast?_concat]
    change (b.batchId : ℤ) ≤ last.batchId
    rcases List.mem_append.mp hb with hold | hnew
    · exact_mod_cast (hasc.2.2 b hold last (by simp)).le
    · rw [List.mem_singleton.mp hnew]
  have hrest : ∀ b ∈ rest, s.lastBatchId < b.batchId := by
    intro b hb
    rw [lastBatchId]
    cases hlast : s.writePipeline.getLast? with
    | none =>
      have hunknown : kBatchIdUnknown < 0 := by decide
      exact hunknown.trans_le (Int.natCast_nonneg _)
    | some last =>
      change (last.batchId : ℤ) < b.batchId
      exact_mod_cast hids.2.2 last (List.mem_of_getLast? hlast) b hb
  obtain ⟨t, ht, hfilled⟩ := exists_fillSlots kMaxPendingWrites hs hnetwork hqueue hlength
    (Nat.le_add_left _ _) hlast hrest h
  obtain ⟨w, hw, hcarries, hphase, hneeded⟩ := exists_startIfNeeded hfilled.carries
  refine ⟨{ t with writeStream := w }, ?_, ⟨hfilled.localStore, hfilled.network,
    hfilled.pipeline, hcarries, hfilled.phase.trans hphase⟩, hneeded⟩
  rw [fillWritePipeline, ht, Option.bind_some, hw]

theorem fillWritePipeline_of_disabled (h : s.isNetworkEnabled = false) :
    s.fillWritePipeline = some s := by
  have hadd : s.canAddToWritePipeline = false := by simp [canAddToWritePipeline, h]
  have hneeded : s.shouldStartWriteStream = false := by simp [shouldStartWriteStream, h]
  simp [fillWritePipeline, kMaxPendingWrites, fillSlots, startIfNeeded, hadd, hneeded]

end RemoteStore

end FlutterSugar.Remote
