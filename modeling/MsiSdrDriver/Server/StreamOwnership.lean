import MsiSdrDriver.Server.ClientStream

/-!
# Who holds the buffers of a session

A buffer has one owner at a time. It is in one of the two queues, or the feeding thread
holds it, or the sending thread does, and every step keeps this (`Owned.preserves`). A thread
writes only to a buffer it holds, so nobody writes to a buffer that waits in the sender's
queue or is partly sent (`waiting_kept`).
-/

set_option autoImplicit false

namespace MsiSdrDriver.Server

/-! ## Owners -/

/-- The buffer that the feeding thread holds. -/
def FeedPc.held : FeedPc → List BufId
  | .getting _ pc => pc.held
  | .filling _ buff => [buff]
  | .queueing _ buff => [buff]
  | _ => []

/-- The chunk that a call of `sdrtcp_feed` has not queued yet. -/
def FeedPc.chunk? : FeedPc → Option Chunk
  | .check chunk | .locking chunk | .lockedCheck chunk | .getting chunk _
  | .filling chunk _ | .queueing chunk _ => some chunk
  | _ => none

/-- The locals of the inner loop, as long as `index` and `bytesleft` are right. -/
def ServePc.sending? : ServePc → Option Sending
  | .sendTest sending | .selectTest sending | .selecting sending | .selectFailed sending
  | .sendEnter sending | .sendCall sending => some sending
  | _ => none

/-- The buffer that the sending thread holds. -/
def ServePc.held : ServePc → List BufId
  | .getting pc => pc.held
  | .sendTest sending | .selectTest sending | .selecting sending | .selectFailed sending
  | .sendEnter sending | .sendCall sending | .sendFailed sending
  | .sendFailedStore sending => [sending.buff]
  | .unlocking buff => [buff]
  | .loop | .enter | .returned => []

/-- The buffer whose block the sending thread has taken and not finished. -/
def ServePc.inHand : ServePc → List BufId
  | .getting pc => pc.held
  | .sendTest sending | .selectTest sending | .selecting sending | .selectFailed sending
  | .sendEnter sending | .sendCall sending => [sending.buff]
  | _ => []

/-- A `send` has failed and the session is about to end. -/
def ServePc.failed : ServePc → Bool
  | .sendFailed _ | .sendFailedStore _ => true
  | _ => false

theorem ServePc.inHand_subset_held (pc : ServePc) : pc.inHand ⊆ pc.held := by
  cases pc <;> simp [inHand, held]

/-- The buffers whose block is in the sender's hand or waits for it. -/
def ServePc.waiting (pc : ServePc) (pool : Workpool) : List BufId :=
  pc.inHand ++ pool.queues 1

namespace ClientStream

/-- The names that wait in a queue. -/
abbrev queue (s : ClientStream) (id : ℕ) : List BufId := s.obj.workpool.queues id

/-- What a buffer holds. -/
abbrev content (s : ClientStream) (buff : BufId) : List UInt8 :=
  (s.obj.workpool.heap buff).content

/-- The buffers whose block is queued for the client or partly sent. -/
abbrev waiting (s : ClientStream) : List BufId := s.sender.waiting s.obj.workpool

/-- The two threads own what they hold. -/
abbrev Owned (s : ClientStream) : Prop :=
  s.obj.workpool.Owned (s.feeder.held ++ s.sender.held)

theorem Owned.waiting_allocated {s : ClientStream} (owned : s.Owned) {buff : BufId}
    (waits : buff ∈ s.waiting) : buff < s.obj.workpool.fresh := by
  rcases List.mem_append.mp waits with hand | queued
  · exact Workpool.Owned.lt_fresh owned (.inl (List.mem_append_right _
      (s.sender.inHand_subset_held hand)))
  · exact Workpool.Owned.lt_fresh owned (.inr queued)

/-- The feeding thread holds no buffer that the sending thread holds. -/
theorem Owned.not_sender_of_feeder {s : ClientStream} (owned : s.Owned) {buff : BufId}
    (held : buff ∈ s.feeder.held) : buff ∉ s.sender.held := by
  intro hand
  have single := owned.single buff
  have feeder := List.count_pos_iff.mpr held
  have sender := List.count_pos_iff.mpr hand
  unfold Workpool.places at single
  rw [List.count_append] at single
  omega

/-- The feeding thread holds no buffer that waits for the client. -/
theorem Owned.not_waiting_of_feeder {s : ClientStream} (owned : s.Owned) {buff : BufId}
    (held : buff ∈ s.feeder.held) : buff ∉ s.waiting := by
  intro waits
  rcases List.mem_append.mp waits with hand | queued
  · exact owned.not_sender_of_feeder held (s.sender.inHand_subset_held hand)
  · exact Workpool.Owned.not_queued owned (List.mem_append_left _ held) (by omega) queued

end ClientStream

/-! ## What the steps do -/

/-- **What one step of `sdrtcp_feed` can do**: touch no buffer, take a step inside
`pool_get_wait_lock`, copy the chunk into the buffer it holds, or queue that buffer. -/
theorem sdrtcpFeedStep_cases {obj obj' : Sdrtcp} {pc pc' : FeedPc}
    {block : Option (List UInt8)} (moves : sdrtcpFeedStep obj pc = some (obj', pc', block)) :
    (obj'.workpool = obj.workpool ∧ obj'.state = obj.state ∧ pc'.held = pc.held ∧
        block = none ∧ (pc'.chunk? = pc.chunk? ∨ pc'.chunk? = none) ∧
        ∀ chunk buff, pc' ≠ .queueing chunk buff) ∨
      (∃ chunk get get' pool, pc = .getting chunk get ∧
        getStep 0 true obj.workpool get = some (pool, get') ∧
        obj' = { obj with workpool := pool } ∧ pc' = .getting chunk get' ∧ block = none) ∨
      (∃ chunk buff, pc = .filling chunk buff ∧
        obj' = { obj with
          workpool := fillBuffer obj.workpool buff (toInt32 chunk.len) chunk.buf } ∧
        pc' = .queueing chunk buff ∧ block = none) ∨
      ∃ chunk buff, pc = .queueing chunk buff ∧
        obj' = { obj with workpool := poolGetUnlock obj.workpool 0 buff } ∧
        pc' = .unlocking 1 ∧
        block = if obj.workpool.valid then some (obj.workpool.heap buff).content else none := by
  cases pc with
  | returned successful => cases moves
  | check chunk =>
      simp only [sdrtcpFeedStep] at moves
      split at moves <;> cases moves <;> exact .inl ⟨rfl, rfl, rfl, rfl, by simp [FeedPc.chunk?],
        by simp⟩
  | notReady =>
      cases moves
      exact .inl ⟨rfl, rfl, rfl, rfl, .inl rfl, by simp⟩
  | locking chunk =>
      simp only [sdrtcpFeedStep] at moves
      split at moves
      · cases moves
      · cases moves
        exact .inl ⟨rfl, rfl, rfl, rfl, .inl rfl, by simp⟩
  | lockedCheck chunk =>
      simp only [sdrtcpFeedStep] at moves
      split at moves <;> cases moves <;> exact .inl ⟨rfl, rfl, rfl, rfl, by simp [FeedPc.chunk?],
        by simp⟩
  | lockedNotReady =>
      cases moves
      exact .inl ⟨rfl, rfl, rfl, rfl, .inl rfl, by simp⟩
  | getting chunk get =>
      cases get with
      | done result =>
          cases result with
          | none =>
              cases moves
              exact .inl ⟨rfl, rfl, rfl, rfl, .inr rfl, by simp⟩
          | some buff =>
              cases moves
              exact .inl ⟨rfl, rfl, rfl, rfl, .inl rfl, by simp⟩
      | first | missed | second | waiting =>
          simp only [sdrtcpFeedStep, Option.map_eq_some_iff, Prod.exists] at moves
          obtain ⟨pool, get', stepped, same⟩ := moves
          cases same
          exact .inr (.inl ⟨chunk, _, get', pool, rfl, stepped, rfl, rfl, rfl⟩)
  | filling chunk buff =>
      cases moves
      exact .inr (.inr (.inl ⟨chunk, buff, rfl, rfl, rfl, rfl⟩))
  | queueing chunk buff =>
      cases moves
      exact .inr (.inr (.inr ⟨chunk, buff, rfl, rfl, rfl, rfl⟩))
  | unlocking successful =>
      cases moves
      exact .inl ⟨rfl, rfl, rfl, rfl, .inl rfl, by simp⟩

/-- **What one step of `serveClient` can do to the pool**: nothing, a step inside
`pool_get_wait_lock`, or `pool_get_unlock`. The state stays or becomes `NEEDS_STOPPING`. -/
theorem serveClientStep_cases {obj obj' : Sdrtcp} {answer : ServeAnswer} {pc pc' : ServePc}
    {bytes : List UInt8} (moves : serveClientStep obj answer pc = some (obj', pc', bytes)) :
    (obj'.workpool = obj.workpool ∧ obj'.stateLocker = obj.stateLocker ∧ pc'.held = pc.held ∧
        (obj'.state = obj.state ∨ obj'.state = .needsStopping)) ∨
      (∃ get get' pool, pc = .getting get ∧ getStep 1 true obj.workpool get = some (pool, get') ∧
        obj' = { obj with workpool := pool } ∧ pc' = .getting get' ∧ bytes = []) ∨
      ∃ buff, pc = .unlocking buff ∧
        obj' = { obj with workpool := poolGetUnlock obj.workpool 1 buff } ∧ pc' = .loop ∧
        bytes = [] := by
  cases pc with
  | getting get =>
      cases get with
      | done result =>
          cases result <;> cases moves <;> exact .inl ⟨rfl, rfl, rfl, .inl rfl⟩
      | first | missed | second | waiting =>
          simp only [serveClientStep, Option.map_eq_some_iff, Prod.exists] at moves
          obtain ⟨pool, get', stepped, same⟩ := moves
          cases same
          exact .inr (.inl ⟨_, get', pool, rfl, stepped, rfl, rfl, rfl⟩)
  | unlocking buff =>
      cases moves
      exact .inr (.inr ⟨buff, rfl, rfl, rfl, rfl⟩)
  | selecting sending =>
      simp only [serveClientStep] at moves
      split at moves <;> cases moves <;> exact .inl ⟨rfl, rfl, rfl, .inl rfl⟩
  | sendCall sending =>
      simp only [serveClientStep] at moves
      split at moves
      · split at moves <;> cases moves
        exact .inl ⟨rfl, rfl, rfl, .inl rfl⟩
      · cases moves
        exact .inl ⟨rfl, rfl, rfl, .inl rfl⟩
  | selectFailed sending | sendFailedStore sending =>
      cases moves
      exact .inl ⟨rfl, rfl, rfl, .inr rfl⟩
  | loop | enter | sendTest sending | selectTest sending | sendEnter sending
  | sendFailed sending =>
      simp only [serveClientStep] at moves
      split at moves <;> cases moves <;> exact .inl ⟨rfl, rfl, rfl, .inl rfl⟩
  | returned => cases moves

/-! ## The ownership is kept -/

namespace ClientStream

/-- A step of the feeding thread, taken apart. -/
theorem feeder_step {s s' : ClientStream} (moves : s.step .feeder = some s') :
    ∃ obj pc block, sdrtcpFeedStep s.obj s.feeder = some (obj, pc, block) ∧
      s' = { s with obj := obj, feeder := pc, queued := s.queued ++ block.toList } := by
  simp only [step, Option.map_eq_some_iff, Prod.exists] at moves
  obtain ⟨obj, pc, block, stepped, rfl⟩ := moves
  exact ⟨obj, pc, block, stepped, rfl⟩

/-- A step of the sending thread, taken apart. -/
theorem sender_step {s s' : ClientStream} {answer : ServeAnswer}
    (moves : s.step (.sender answer) = some s') :
    ∃ obj pc bytes, serveClientStep s.obj answer s.sender = some (obj, pc, bytes) ∧
      s' = { s with obj := obj, sender := pc, wire := s.wire ++ bytes } := by
  simp only [step, Option.map_eq_some_iff, Prod.exists] at moves
  obtain ⟨obj, pc, bytes, stepped, rfl⟩ := moves
  exact ⟨obj, pc, bytes, stepped, rfl⟩

/-- The call of `sdrtcp_feed`, taken apart. -/
theorem feed_step {s s' : ClientStream} {chunk : Chunk}
    (moves : s.step (.feed chunk) = some s') :
    (∃ successful, s.feeder = .returned successful) ∧
      s' = { s with feeder := .check chunk, fed := s.fed ++ [chunk.buf] } := by
  simp only [step] at moves
  split at moves <;> cases moves
  next idle => exact ⟨⟨_, idle⟩, rfl⟩

/-- The clean-up of the session, taken apart. -/
theorem cleanup_step {s s' : ClientStream} (moves : s.step .cleanup = some s') :
    s.sender = .returned ∧ s.obj.stateLocker = false ∧
      s' = { s with obj := sdrtcpCleanup s.obj } := by
  simp only [step] at moves
  split at moves
  · next returned =>
      split at moves <;> cases moves
      next unlocked => exact ⟨returned, by simpa using unlocked, rfl⟩
  · cases moves

/-- A stop request, taken apart. -/
theorem stop_step {s s' : ClientStream} (moves : s.step .stop = some s') :
    s' = { s with obj := { s.obj with state := .needsStopping } } :=
  (Option.some.inj moves).symm

theorem Owned.feeder_preserves {s s' : ClientStream} (owned : s.Owned)
    (moves : s.step .feeder = some s') : s'.Owned := by
  obtain ⟨obj, pc, block, stepped, rfl⟩ := feeder_step moves
  rcases sdrtcpFeedStep_cases stepped with ⟨pool, -, held, -⟩ |
    ⟨chunk, get, get', pool, feeder, popped, rfl, rfl, rfl⟩ |
    ⟨chunk, buff, feeder, rfl, rfl, rfl⟩ | ⟨chunk, buff, feeder, rfl, rfl, rfl⟩
  · unfold ClientStream.Owned
    rw [pool, held]
    exact owned
  · unfold ClientStream.Owned at owned
    rw [feeder] at owned
    exact Workpool.Owned.get (by omega) popped owned
  · unfold ClientStream.Owned at owned
    rw [feeder] at owned
    exact owned.write _
  · unfold ClientStream.Owned at owned
    rw [feeder] at owned
    exact Workpool.Owned.unlock (by omega) owned

theorem Owned.sender_preserves {s s' : ClientStream} {answer : ServeAnswer} (owned : s.Owned)
    (moves : s.step (.sender answer) = some s') : s'.Owned := by
  obtain ⟨obj, pc, bytes, stepped, rfl⟩ := sender_step moves
  have swapped := owned.perm List.perm_append_comm
  rcases serveClientStep_cases stepped with ⟨pool, -, held, -⟩ |
    ⟨get, get', pool, sender, popped, rfl, rfl, rfl⟩ | ⟨buff, sender, rfl, rfl, rfl⟩
  · unfold ClientStream.Owned
    rw [pool, held]
    exact owned
  · rw [sender] at swapped
    exact (Workpool.Owned.get (by omega) popped swapped).perm List.perm_append_comm
  · rw [sender] at swapped
    exact (Workpool.Owned.unlock (by omega) swapped).perm List.perm_append_comm

/-- **Every step keeps the ownership.** -/
theorem Owned.preserves {s s' : ClientStream} {label : StreamLabel} (owned : s.Owned)
    (moves : s.step label = some s') : s'.Owned := by
  cases label with
  | feed chunk =>
      obtain ⟨⟨successful, idle⟩, rfl⟩ := feed_step moves
      unfold ClientStream.Owned at owned
      rw [idle] at owned
      exact owned
  | feeder => exact owned.feeder_preserves moves
  | sender answer => exact owned.sender_preserves moves
  | stop =>
      rw [stop_step moves]
      exact owned
  | cleanup =>
      obtain ⟨-, -, rfl⟩ := cleanup_step moves
      unfold ClientStream.Owned
      rcases sdrtcpCleanup_cases s.obj with ⟨-, same⟩ | ⟨-, freed⟩
      · rw [same]
        exact owned
      · simp only [freed]
        exact owned.free

/-! ## Nobody writes to a buffer that waits -/

/-- `pool_get_unlock` changes the content of no other buffer. -/
theorem heap_poolGetUnlock (pool : Workpool) (id : ℕ) {buff other : BufId}
    (different : other ≠ buff) : (poolGetUnlock pool id buff).heap other = pool.heap other := by
  rcases poolGetUnlock_heap pool id buff with same | emptied
  · rw [same]
  · rw [emptied]
    exact Function.update_of_ne different ..

/-- **No step writes to a buffer that is queued for the client or partly sent.** -/
theorem waiting_kept {s s' : ClientStream} {label : StreamLabel} (owned : s.Owned)
    (moves : s.step label = some s') {buff : BufId} (waits : buff ∈ s.waiting) :
    s'.obj.workpool.heap buff = s.obj.workpool.heap buff := by
  cases label with
  | feed chunk =>
      obtain ⟨-, rfl⟩ := feed_step moves
      rfl
  | feeder =>
      obtain ⟨obj, pc, block, stepped, rfl⟩ := feeder_step moves
      have apart : ∀ {own}, own ∈ s.feeder.held → buff ≠ own := by
        rintro own held rfl
        exact owned.not_waiting_of_feeder held waits
      rcases sdrtcpFeedStep_cases stepped with ⟨pool, -⟩ | ⟨_, _, _, pool, -, popped, rfl, -⟩ |
        ⟨chunk, own, feeder, rfl, -⟩ | ⟨chunk, own, feeder, rfl, -⟩
      · rw [pool]
      · exact heap_getStep popped (owned.waiting_allocated waits)
      · exact Function.update_of_ne (apart (by simp [feeder, FeedPc.held])) ..
      · exact heap_poolGetUnlock _ _ (apart (by simp [feeder, FeedPc.held]))
  | sender answer =>
      obtain ⟨obj, pc, bytes, stepped, rfl⟩ := sender_step moves
      rcases serveClientStep_cases stepped with ⟨pool, -⟩ | ⟨_, _, pool, -, popped, rfl, -⟩ |
        ⟨own, sender, rfl, -⟩
      · rw [pool]
      · exact heap_getStep popped (owned.waiting_allocated waits)
      · refine heap_poolGetUnlock _ _ ?_
        rintro rfl
        have queued : buff ∈ s.queue 1 := by
          simpa [ServePc.waiting, sender, ServePc.inHand] using waits
        exact Workpool.Owned.not_queued owned
          (List.mem_append_right _ (by simp [sender, ServePc.held])) (by omega) queued
  | stop =>
      rw [stop_step moves]
  | cleanup =>
      obtain ⟨-, -, rfl⟩ := cleanup_step moves
      rw [(sdrtcpCleanup_drains s.obj).heap]

/-- The sending thread does not write to the buffer that the feeding thread holds. -/
theorem feeder_kept {s s' : ClientStream} {answer : ServeAnswer} (owned : s.Owned)
    (moves : s.step (.sender answer) = some s') {buff : BufId} (held : buff ∈ s.feeder.held) :
    s'.obj.workpool.heap buff = s.obj.workpool.heap buff := by
  obtain ⟨obj, pc, bytes, stepped, rfl⟩ := sender_step moves
  rcases serveClientStep_cases stepped with ⟨pool, -⟩ | ⟨_, _, pool, -, popped, rfl, -⟩ |
    ⟨own, sender, rfl, -⟩
  · rw [pool]
  · exact heap_getStep popped
      (Workpool.Owned.lt_fresh owned (.inl (List.mem_append_left _ held)))
  · refine heap_poolGetUnlock _ _ ?_
    rintro rfl
    exact owned.not_sender_of_feeder held (by simp [sender, ServePc.held])

end ClientStream

end MsiSdrDriver.Server
