import Mathlib.Data.Fin.VecNotation
import MsiSdrDriver.Foundations.LabelledRuns
import MsiSdrDriver.Server.StreamOwnership

/-!
# Integrity of the client's stream

While the session serves its client, the blocks queued so far are the ones already sent, then
the one in the sender's hand, then the ones in queue `1`. The wire carries the first group
and the first `index` bytes of the block in hand (`Fifo`). A failed `send` leaves `index` and
`bytesleft` wrong, and a stop request can end a block in the middle. From then on the session
is over (`Over`): the state is never `CLIENT_SERVING` again, and no byte follows.

The blocks queued are the dongle header and some of the chunks fed, in their order
(`Fed`). Together these give the client's view: what it receives is at every moment a prefix
of the header followed by whole chunks in feeding order (`wire_prefix`).
-/

set_option autoImplicit false

namespace MsiSdrDriver.Server

open MsiSdrDriver.Foundations

/-! ## The order of the blocks -/

/-- The bytes of the block in hand that the socket has taken. -/
def ServePc.sentPart (pc : ServePc) (pool : Workpool) : List UInt8 :=
  match pc.sending? with
  | some sending => (pool.heap sending.buff).content.take sending.index
  | none => []

theorem ServePc.inHand_of_sending {pc : ServePc} {sending : Sending}
    (hand : pc.sending? = some sending) : pc.inHand = [sending.buff] := by
  cases pc <;> simp_all [sending?, inHand]

/-- The queued blocks are those sent, the one in hand and those that wait. -/
structure Fifo (pool : Workpool) (pc : ServePc) (wire : List UInt8)
    (queued sent : List (List UInt8)) : Prop where
  running : pc ≠ .returned ∧ pc.failed = false
  order : queued = sent ++ (pc.waiting pool).map fun buff => (pool.heap buff).content
  wire : wire = sent.flatten ++ pc.sentPart pool
  counted : ∀ sending, pc.sending? = some sending →
    sending.index + sending.bytesleft = (pool.heap sending.buff).content.length
  sized : ∀ buff ∈ pc.waiting pool, (pool.heap buff).Sized

namespace Fifo

variable {pool pool' : Workpool} {pc pc' : ServePc} {wire : List UInt8}
  {queued sent : List (List UInt8)}

/-- **What the socket was handed is a prefix of the blocks queued for it.** -/
theorem wire_prefix (fifo : Fifo pool pc wire queued sent) : wire <+: queued.flatten := by
  rw [fifo.wire, fifo.order, List.flatten_append, List.prefix_append_right_inj]
  unfold ServePc.sentPart
  split
  · next sending hand =>
      rw [ServePc.waiting, ServePc.inHand_of_sending hand, List.singleton_append, List.map_cons,
        List.flatten_cons]
      exact (List.take_prefix _ _).trans (List.prefix_append _ _)
  · exact List.nil_prefix

/-- The sender moves on within one block. -/
theorem of_hand (fifo : Fifo pool pc wire queued sent)
    (running : pc' ≠ .returned ∧ pc'.failed = false) (hand : pc'.inHand = pc.inHand)
    (sending : pc'.sending? = pc.sending?) : Fifo pool pc' wire queued sent := by
  have waiting : pc'.waiting pool = pc.waiting pool := by
    unfold ServePc.waiting
    rw [hand]
  have part : pc'.sentPart pool = pc.sentPart pool := by
    unfold ServePc.sentPart
    rw [sending]
  constructor
  · exact running
  · rw [waiting]
    exact fifo.order
  · rw [part]
    exact fifo.wire
  · rw [sending]
    exact fifo.counted
  · rw [waiting]
    exact fifo.sized

/-- The pool changes, but not the sender's queue and not the buffers that wait. -/
theorem of_kept (fifo : Fifo pool pc wire queued sent) (queue : pool'.queues 1 = pool.queues 1)
    (kept : ∀ buff ∈ pc.waiting pool, pool'.heap buff = pool.heap buff) :
    Fifo pool' pc wire queued sent := by
  have waiting : pc.waiting pool' = pc.waiting pool := by
    unfold ServePc.waiting
    rw [queue]
  have hand : ∀ sending, pc.sending? = some sending → sending.buff ∈ pc.waiting pool := by
    intro sending own
    simp [ServePc.waiting, ServePc.inHand_of_sending own]
  constructor
  · exact fifo.running
  · rw [fifo.order, waiting]
    refine congrArg _ (List.map_congr_left fun buff waits => ?_)
    rw [kept buff waits]
  · rw [fifo.wire]
    unfold ServePc.sentPart
    split
    · next sending own => rw [kept _ (hand sending own)]
    · rfl
  · intro sending own
    rw [kept _ (hand sending own)]
    exact fifo.counted sending own
  · intro buff waits
    rw [waiting] at waits
    rw [kept buff waits]
    exact fifo.sized buff waits

/-- A block is queued. -/
theorem enqueue (fifo : Fifo pool pc wire queued sent) {buff : BufId}
    (sized : (pool.heap buff).Sized) :
    Fifo { pool with queues := Function.update pool.queues 1 (pool.queues 1 ++ [buff]) } pc wire
      (queued ++ [(pool.heap buff).content]) sent := by
  constructor
  · exact fifo.running
  · rw [fifo.order]
    simp [ServePc.waiting]
  · exact fifo.wire
  · exact fifo.counted
  · intro other waits
    simp only [ServePc.waiting, Function.update_self, ← List.append_assoc] at waits
    rcases List.mem_append.mp waits with before | new
    · exact fifo.sized other before
    · rw [List.mem_singleton.mp new]
      exact sized

/-- A get by the sender moves the head of its queue to its hand. -/
theorem get {get get' : GetPc} (fifo : Fifo pool (.getting get) wire queued sent)
    (moves : getStep 1 true pool get = some (pool', get')) :
    Fifo pool' (.getting get') wire queued sent := by
  have empty : get.held = [] := by
    cases get with
    | done result => cases moves
    | first | missed | second | waiting => rfl
  rcases getStep_cases moves with ⟨rfl, none⟩ | ⟨buff, rest, queue, rfl, rfl⟩ | ⟨first, -⟩
  · refine fifo.of_hand ⟨by simp, rfl⟩ ?_ rfl
    simp [ServePc.inHand, none, empty]
  · have order := fifo.order
    have sized := fifo.sized
    have waiting : (ServePc.getting get).waiting pool = buff :: rest := by
      simp [ServePc.waiting, ServePc.inHand, empty, queue]
    rw [waiting] at order sized
    refine ⟨⟨by simp, rfl⟩, ?_, fifo.wire, ?_, ?_⟩
    · simpa [ServePc.waiting, ServePc.inHand, GetPc.held] using order
    · intro sending own
      cases own
    · simpa [ServePc.waiting, ServePc.inHand, GetPc.held] using sized
  · omega

/-- The sending loop starts a block. -/
theorem takes {buff : BufId} (fifo : Fifo pool (.getting (.done (some buff))) wire queued sent) :
    Fifo pool (.sendTest ⟨buff, 0, 2 * (pool.heap buff).sizeValidElements⟩) wire queued sent := by
  have member : buff ∈ (ServePc.getting (.done (some buff))).waiting pool := by
    simp [ServePc.waiting, ServePc.inHand, GetPc.held]
  refine ⟨⟨by simp, rfl⟩, fifo.order, fifo.wire, ?_, fifo.sized⟩
  intro sending own
  cases own
  rw [(fifo.sized buff member).content_length, Nat.zero_add]

/-- **A partial `send` moves the next bytes of the block in hand to the wire.** -/
theorem sends {sending : Sending} (fifo : Fifo pool (.sendCall sending) wire queued sent)
    {taken : ℕ} (few : taken ≤ sending.bytesleft) :
    Fifo pool (.sendTest (sending.after taken))
      (wire ++ ((pool.heap sending.buff).ushortbuffer.drop sending.index).take taken)
      queued sent := by
  have member : sending.buff ∈ (ServePc.sendCall sending).waiting pool := by
    simp [ServePc.waiting, ServePc.inHand]
  have counted := fifo.counted sending rfl
  have sized := fifo.sized _ member
  have small := sized.small
  have length := sized.content_length
  -- neither `bytesleft -= bytessent` nor `index += bytessent` leaves the range of `size_t`
  have after : sending.after taken =
      ⟨sending.buff, sending.index + taken, sending.bytesleft - taken⟩ := by
    unfold Sending.after sizeT
    simp only [Sending.mk.injEq, true_and]
    omega
  have bytes : ((pool.heap sending.buff).ushortbuffer.drop sending.index).take taken =
      ((pool.heap sending.buff).content.drop sending.index).take taken := by
    rw [Extbuffer.content, List.drop_take, List.take_take, Nat.min_eq_left]
    omega
  rw [after, bytes]
  refine ⟨⟨by simp, rfl⟩, fifo.order, ?_, ?_, fifo.sized⟩
  · have before := fifo.wire
    simp only [ServePc.sentPart, ServePc.sending?] at before ⊢
    rw [before, List.append_assoc, List.take_add]
  · intro next own
    cases own
    simp only
    omega

/-- The sending loop ends when the block is sent whole. -/
theorem finishes {sending : Sending} (fifo : Fifo pool (.sendTest sending) wire queued sent)
    (whole : sending.bytesleft = 0) :
    Fifo pool (.unlocking sending.buff) wire queued
      (sent ++ [(pool.heap sending.buff).content]) := by
  have counted := fifo.counted sending rfl
  have order := fifo.order
  have before := fifo.wire
  refine ⟨⟨by simp, rfl⟩, ?_, ?_, ?_, ?_⟩
  · simpa [ServePc.waiting, ServePc.inHand] using order
  · simp only [ServePc.sentPart, ServePc.sending?] at before ⊢
    rw [before, List.take_of_length_le (by omega)]
    simp
  · intro next own
    cases own
  · intro buff waits
    exact fifo.sized buff (by
      simp only [ServePc.waiting, ServePc.inHand, List.nil_append] at waits
      exact List.mem_append_right _ waits)

/-- The buffer goes back to queue `0`, and nothing that waits is touched. -/
theorem unlocks {buff : BufId} {held : List BufId}
    (fifo : Fifo pool (.unlocking buff) wire queued sent) (owned : pool.Owned (buff :: held)) :
    Fifo (poolGetUnlock pool 1 buff) .loop wire queued sent := by
  have loops : Fifo pool .loop wire queued sent := fifo.of_hand ⟨by simp, rfl⟩ rfl rfl
  cases valid : pool.valid with
  | false =>
      rw [poolGetUnlock_invalid valid]
      exact loops
  | true =>
      rw [poolGetUnlock_last valid (owned.twoIds valid).symm]
      refine loops.of_kept (by simp) fun other waits => ?_
      refine Function.update_of_ne ?_ ..
      rintro rfl
      exact owned.not_queued List.mem_cons_self (by omega) waits

end Fifo

/-! ## The end of a session -/

/-- No further byte will reach the socket. -/
structure Over (state : Stage) (pc : ServePc) (wire : List UInt8)
    (queued : List (List UInt8)) : Prop where
  wire : wire <+: queued.flatten
  stopped : pc.failed = true ∨ (state ≠ .clientServing ∧ ∀ sending, pc ≠ .sendCall sending)

theorem Over.enqueue {state state' : Stage} {pc : ServePc} {wire : List UInt8}
    {queued : List (List UInt8)} (ended : Over state pc wire queued)
    (serves : state' = .clientServing → state = .clientServing) (more : List (List UInt8)) :
    Over state' pc wire (queued ++ more) where
  wire := by
    rw [List.flatten_append]
    exact ended.wire.trans (List.prefix_append _ _)
  stopped := ended.stopped.imp_right fun stays => ⟨fun again => stays.1 (serves again), stays.2⟩

/-- Once the session is over the sender hands no byte to the socket. -/
theorem Over.step {obj obj' : Sdrtcp} {answer : ServeAnswer} {pc pc' : ServePc}
    {wire bytes : List UInt8} {queued : List (List UInt8)}
    (ended : Over obj.state pc wire queued)
    (moves : serveClientStep obj answer pc = some (obj', pc', bytes)) :
    Over obj'.state pc' (wire ++ bytes) queued := by
  suffices ends : bytes = [] ∧ (pc'.failed = true ∨
      (obj'.state ≠ .clientServing ∧ ∀ sending, pc' ≠ .sendCall sending)) by
    rw [ends.1, List.append_nil]
    exact ⟨ended.wire, ends.2⟩
  cases pc with
  | getting get =>
      have idle : obj.state ≠ .clientServing := by simpa [ServePc.failed] using ended.stopped
      cases get with
      | done result => cases result <;> cases moves <;> simp [idle]
      | first | missed | second | waiting =>
          simp only [serveClientStep, Option.map_eq_some_iff, Prod.exists] at moves
          obtain ⟨pool, get', -, same⟩ := moves
          cases same
          simp [idle]
  | sendCall sending => simpa [ServePc.failed] using ended.stopped
  | sendFailed sending =>
      simp only [serveClientStep] at moves
      split at moves <;> cases moves
      · simp [ServePc.failed]
      · next idle => simp [idle]
  | selectFailed sending | sendFailedStore sending =>
      cases moves
      simp
  | selecting sending =>
      have idle : obj.state ≠ .clientServing := by simpa [ServePc.failed] using ended.stopped
      simp only [serveClientStep] at moves
      split at moves <;> cases moves <;> simp [idle]
  | unlocking buff =>
      have idle : obj.state ≠ .clientServing := by simpa [ServePc.failed] using ended.stopped
      cases moves
      simp [idle]
  | loop | enter | sendTest sending | selectTest sending | sendEnter sending =>
      have idle : obj.state ≠ .clientServing := by simpa [ServePc.failed] using ended.stopped
      simp only [serveClientStep, idle, and_false, if_false] at moves
      cases moves
      simp [idle]
  | returned => cases moves

/-- **A step of the sender keeps the order or ends the session.** -/
theorem Fifo.step {obj obj' : Sdrtcp} {answer : ServeAnswer} {pc pc' : ServePc}
    {wire bytes : List UInt8} {queued sent : List (List UInt8)} {held : List BufId}
    (fifo : Fifo obj.workpool pc wire queued sent) (owned : obj.workpool.Owned (pc.held ++ held))
    (moves : serveClientStep obj answer pc = some (obj', pc', bytes)) :
    (∃ sent', Fifo obj'.workpool pc' (wire ++ bytes) queued sent') ∨
      Over obj'.state pc' (wire ++ bytes) queued := by
  have running := fifo.running
  have quiet : ∀ {state pc}, state ≠ Stage.clientServing →
      (∀ sending, pc ≠ ServePc.sendCall sending) → Over state pc (wire ++ []) queued := by
    intro state pc idle elsewhere
    rw [List.append_nil]
    exact ⟨fifo.wire_prefix, .inr ⟨idle, elsewhere⟩⟩
  have keeps : ∀ {pc'' : ServePc}, pc'' ≠ .returned ∧ pc''.failed = false →
      pc''.inHand = pc.inHand → pc''.sending? = pc.sending? →
      ∃ sent', Fifo obj.workpool pc'' (wire ++ []) queued sent' := by
    intro pc'' going hand sending
    rw [List.append_nil]
    exact ⟨sent, fifo.of_hand going hand sending⟩
  cases pc with
  | getting get =>
      cases get with
      | done result =>
          cases result with
          | none =>
              cases moves
              exact .inl (keeps ⟨by simp, rfl⟩ rfl rfl)
          | some buff =>
              cases moves
              rw [List.append_nil]
              exact .inl ⟨sent, fifo.takes⟩
      | first | missed | second | waiting =>
          simp only [serveClientStep, Option.map_eq_some_iff, Prod.exists] at moves
          obtain ⟨pool, get', stepped, same⟩ := moves
          cases same
          rw [List.append_nil]
          exact .inl ⟨sent, fifo.get stepped⟩
  | sendTest sending =>
      simp only [serveClientStep] at moves
      split at moves
      · cases moves
        exact .inl (keeps ⟨by simp, rfl⟩ rfl rfl)
      · next ends =>
          cases moves
          by_cases whole : sending.bytesleft = 0
          · rw [List.append_nil]
            exact .inl ⟨_, fifo.finishes whole⟩
          · exact .inr (quiet (fun serving => ends ⟨by omega, serving⟩) (by simp))
  | sendCall sending =>
      simp only [serveClientStep] at moves
      split at moves
      · split at moves <;> cases moves
        next few => exact .inl ⟨sent, fifo.sends few.2⟩
      · cases moves
        rw [List.append_nil]
        exact .inr ⟨fifo.wire_prefix, .inl rfl⟩
  | unlocking buff =>
      cases moves
      rw [List.append_nil]
      exact .inl ⟨sent, fifo.unlocks owned⟩
  | loop | enter =>
      simp only [serveClientStep] at moves
      split at moves <;> cases moves
      · exact .inl (keeps ⟨by simp, rfl⟩ rfl rfl)
      · next idle => exact .inr (quiet idle (by simp))
  | selecting sending =>
      simp only [serveClientStep] at moves
      split at moves <;> cases moves <;> exact .inl (keeps ⟨by simp, rfl⟩ rfl rfl)
  | selectFailed sending =>
      cases moves
      exact .inl (keeps ⟨by simp, rfl⟩ rfl rfl)
  | selectTest sending | sendEnter sending =>
      simp only [serveClientStep] at moves
      split at moves <;> cases moves <;> exact .inl (keeps ⟨by simp, rfl⟩ rfl rfl)
  | sendFailed sending | sendFailedStore sending => cases running.2
  | returned => exact absurd rfl running.1

/-! ## The whole session -/

namespace ClientStream

/-- What was queued for the client: the header and then some of the chunks fed. -/
structure Fed (s : ClientStream) (header : List UInt8) : Prop where
  filled : ∀ chunk buff, s.feeder = .queueing chunk buff →
    s.content buff = chunk.buf ∧ (s.obj.workpool.heap buff).Sized
  blocks : ∃ before sub, s.fed = before ++ (s.feeder.chunk?.map Chunk.buf).toList ∧
    s.queued = header :: sub ∧ sub.Sublist before

/-- The invariant of a session whose dongle header is `header`. -/
structure Intact (header : List UInt8) (s : ClientStream) : Prop where
  owned : s.Owned
  fed : s.Fed header
  order : (∃ sent, Fifo s.obj.workpool s.sender s.wire s.queued sent) ∨
    Over s.obj.state s.sender s.wire s.queued

variable {header : List UInt8} {s s' : ClientStream}

theorem Intact.wire_prefix (intact : Intact header s) : s.wire <+: s.queued.flatten := by
  rcases intact.order with ⟨sent, fifo⟩ | ended
  · exact fifo.wire_prefix
  · exact ended.wire

theorem Intact.feed {chunk : Chunk} (intact : Intact header s)
    (moves : s.step (.feed chunk) = some s') : Intact header s' := by
  have owned := intact.owned.preserves moves
  obtain ⟨⟨successful, idle⟩, rfl⟩ := feed_step moves
  obtain ⟨before, sub, fed, queued, sublist⟩ := intact.fed.blocks
  refine ⟨owned, ⟨by simp, ?_⟩, intact.order⟩
  refine ⟨before, sub, ?_, queued, sublist⟩
  rw [idle] at fed
  simpa [FeedPc.chunk?] using fed

theorem Intact.sender {answer : ServeAnswer} (intact : Intact header s)
    (moves : s.step (.sender answer) = some s') : Intact header s' := by
  have owned := intact.owned.preserves moves
  have kept := fun buff (held : buff ∈ s.feeder.held) => feeder_kept intact.owned moves held
  obtain ⟨obj, pc, bytes, stepped, rfl⟩ := sender_step moves
  refine ⟨owned, ⟨fun chunk buff queueing => ?_, intact.fed.blocks⟩, ?_⟩
  · have held : buff ∈ s.feeder.held := by
      rw [queueing]
      exact List.mem_singleton_self buff
    have filled := intact.fed.filled chunk buff queueing
    have same : obj.workpool.heap buff = s.obj.workpool.heap buff := kept buff held
    unfold content at filled ⊢
    rw [same]
    exact filled
  · rcases intact.order with ⟨sent, fifo⟩ | ended
    · exact fifo.step (intact.owned.perm List.perm_append_comm) stepped
    · exact .inr (ended.step stepped)

theorem Intact.feeder (intact : Intact header s) (moves : s.step .feeder = some s') :
    Intact header s' := by
  have owned := intact.owned.preserves moves
  have kept := fun buff (waits : buff ∈ s.waiting) => waiting_kept intact.owned moves waits
  obtain ⟨before, sub, fed, queued, sublist⟩ := intact.fed.blocks
  obtain ⟨obj, pc, block, stepped, rfl⟩ := feeder_step moves
  rcases sdrtcpFeedStep_cases stepped with ⟨pool, state, held, rfl, chunk, elsewhere⟩ |
    ⟨chunk, get, get', pool, feeder, popped, rfl, rfl, rfl⟩ |
    ⟨chunk, buff, feeder, rfl, rfl, rfl⟩ | ⟨chunk, buff, feeder, rfl, rfl, rfl⟩
  · refine ⟨owned, ⟨fun chunk buff queueing => absurd queueing (elsewhere chunk buff), ?_⟩, ?_⟩
    · rcases chunk with same | none
      · refine ⟨before, sub, ?_, by simpa using queued, sublist⟩
        rw [fed, same]
      · refine ⟨s.fed, sub, by simp [none], by simpa using queued, ?_⟩
        rw [fed]
        exact sublist.trans (List.sublist_append_left _ _)
    · simpa only [pool, state, Option.toList_none, List.append_nil] using intact.order
  · refine ⟨owned, ⟨by simp, before, sub, ?_, by simpa using queued, sublist⟩, ?_⟩
    · rw [fed, feeder]
      rfl
    · rcases intact.order with ⟨sent, fifo⟩ | ended
      · have same := fifo.of_kept (queues_getStep popped Nat.one_ne_zero) kept
        exact .inl ⟨sent, by simpa using same⟩
      · exact .inr (by simpa using ended)
  · have fits := chunk.fits
    refine ⟨owned, ⟨?_, before, sub, ?_, by simpa using queued, sublist⟩, ?_⟩
    · intro chunk' buff' queueing
      cases queueing
      simp only [content, fillBuffer, Function.update_self, chunk.toInt32_len]
      exact ⟨content_write_preparetohandle _ chunk.whole,
        sized_write_preparetohandle _ (by omega) _⟩
    · rw [fed, feeder]
      rfl
    · rcases intact.order with ⟨sent, fifo⟩ | ended
      · have same : Fifo (fillBuffer s.obj.workpool buff (toInt32 chunk.len) chunk.buf)
            s.sender s.wire s.queued sent := fifo.of_kept rfl kept
        exact .inl ⟨sent, by simpa using same⟩
      · exact .inr (by simpa using ended)
  · obtain ⟨filled, sized⟩ := intact.fed.filled chunk buff feeder
    rw [feeder] at fed
    cases valid : s.obj.workpool.valid with
    | false =>
        rw [poolGetUnlock_invalid valid] at owned ⊢
        refine ⟨owned, ⟨by simp, s.fed, sub, by simp [FeedPc.chunk?], by simpa using queued, ?_⟩,
          by simpa using intact.order⟩
        rw [fed]
        exact sublist.trans (List.sublist_append_left _ _)
    | true =>
        have ids := intact.owned.twoIds valid
        rw [poolGetUnlock_next valid (by omega)] at owned ⊢
        refine ⟨owned, ⟨by simp, s.fed, sub ++ [chunk.buf], by simp [FeedPc.chunk?], ?_, ?_⟩, ?_⟩
        · simpa [queued] using filled
        · rw [fed]
          exact sublist.append (List.Sublist.refl _)
        · rcases intact.order with ⟨sent, fifo⟩ | ended
          · exact .inl ⟨sent, by simpa using fifo.enqueue sized⟩
          · exact .inr (by simpa using ended.enqueue id [(s.obj.workpool.heap buff).content])

theorem Intact.stop (intact : Intact header s) (moves : s.step .stop = some s') :
    Intact header s' := by
  have owned := intact.owned.preserves moves
  rw [stop_step moves] at owned ⊢
  refine ⟨owned, ⟨intact.fed.filled, intact.fed.blocks⟩, ?_⟩
  rcases intact.order with ⟨sent, fifo⟩ | ended
  · exact .inl ⟨sent, fifo⟩
  · refine .inr ⟨ended.wire, ended.stopped.imp_right fun stays => ⟨by simp, stays.2⟩⟩

/-- The pool is freed after the sender has returned, and then the session was over. -/
theorem Intact.cleanup (intact : Intact header s) (moves : s.step .cleanup = some s') :
    Intact header s' := by
  have owned := intact.owned.preserves moves
  obtain ⟨returned, -, rfl⟩ := cleanup_step moves
  have heap := (sdrtcpCleanup_drains s.obj).heap
  refine ⟨owned, ⟨?_, intact.fed.blocks⟩, ?_⟩
  · unfold content
    rw [heap]
    exact intact.fed.filled
  · rcases intact.order with ⟨sent, fifo⟩ | ended
    · exact absurd returned fifo.running.1
    · exact .inr ⟨ended.wire, .inr ⟨by simp, by simp [returned]⟩⟩

/-- **Every step keeps the session intact.** -/
theorem Intact.step {label : StreamLabel} (intact : Intact header s)
    (moves : s.step label = some s') : Intact header s' := by
  cases label with
  | feed chunk => exact intact.feed moves
  | feeder => exact intact.feeder moves
  | sender answer => exact intact.sender moves
  | stop => exact intact.stop moves
  | cleanup => exact intact.cleanup moves

/-- The session starts intact. -/
theorem Intact.starts (pool : Workpool) (listenSocket clientSocket : ℤ)
    (dongleMagic : Fin 4 → UInt8) (dongleType gainsCount : UInt32) :
    Intact (dongleInfo dongleMagic dongleType gainsCount)
      (initial pool listenSocket clientSocket dongleMagic dongleType gainsCount) := by
  have header := dongleInfo_length dongleMagic dongleType gainsCount
  generalize opened : dongleInfo dongleMagic dongleType gainsCount = bytes at header
  have content : ((extbufferPreparetohandle extbufferInit 6).write bytes).content = bytes :=
    content_write_preparetohandle _ header
  have sized := sized_write_preparetohandle extbufferInit (by decide : (6 : ℤ) < 2 ^ 31) bytes
  unfold initial
  rw [opened, sdrtcpOpenPool_eq]
  refine ⟨⟨?_, ?_, fun _ => rfl⟩, ⟨by simp, [], [], rfl, rfl, .refl _⟩, .inl ⟨[], ?_⟩⟩
  · intro buff
    simp [Workpool.places, FeedPc.held, ServePc.held, List.count_singleton]
    split <;> omega
  · intro buff unallocated
    have other : buff ≠ pool.fresh := Nat.ne_of_gt unallocated
    simp [Workpool.places, FeedPc.held, ServePc.held, other.symm]
  · refine ⟨⟨by simp, rfl⟩, ?_, rfl, by simp [ServePc.sending?], ?_⟩
    · simp [ServePc.waiting, ServePc.inHand, content]
    · simpa [ServePc.waiting, ServePc.inHand] using sized

/-- The states in which a session can start. -/
def Starts (dongleMagic : Fin 4 → UInt8) (dongleType gainsCount : UInt32)
    (s : ClientStream) : Prop :=
  ∃ pool listenSocket clientSocket,
    s = initial pool listenSocket clientSocket dongleMagic dongleType gainsCount

/-- **Integrity of the client's stream.** In every state of a session the socket was handed a
prefix of the dongle header followed by whole chunks, each fed once and in feeding order, and
no step that the session can take next writes to a buffer that waits for the client. -/
theorem stream_intact {dongleMagic : Fin 4 → UInt8} {dongleType gainsCount : UInt32}
    {s : ClientStream}
    (reached : Reach ClientStream.step (Starts dongleMagic dongleType gainsCount) Always s) :
    (∃ chunks : List (List UInt8), chunks.Sublist s.fed ∧
      s.wire <+: dongleInfo dongleMagic dongleType gainsCount ++ chunks.flatten) ∧
    ∀ label s', s.step label = some s' →
      ∀ buff ∈ s.waiting, s'.content buff = s.content buff := by
  have intact : Intact (dongleInfo dongleMagic dongleType gainsCount) s := by
    refine reached.invariant ?_ fun s label s' intact _ moves => intact.step moves
    rintro s ⟨pool, listenSocket, clientSocket, rfl⟩
    exact Intact.starts ..
  obtain ⟨before, chunks, fed, queued, sublist⟩ := intact.fed.blocks
  refine ⟨⟨chunks, ?_, ?_⟩, ?_⟩
  · rw [fed]
    exact sublist.trans (List.sublist_append_left _ _)
  · have sent := intact.wire_prefix
    rwa [queued, List.flatten_cons] at sent
  · intro label s' moves buff waits
    unfold content
    rw [waiting_kept intact.owned moves waits]

/-- A session in which a chunk of two elements is fed while the header is being sent, and the
last block leaves in two parts. -/
def shortSession : List StreamLabel :=
  let moves (n : ℕ) := List.replicate n (StreamLabel.sender ⟨.ready, some 12⟩)
  .feed ⟨[1, 2, 3, 4], 2, rfl, by decide⟩ :: moves 6 ++ List.replicate 8 .feeder ++ moves 10 ++
    List.replicate 5 (.sender ⟨.ready, some 3⟩) ++ List.replicate 5 (.sender ⟨.ready, some 1⟩)

theorem stream_intact_shortSession :
    ∃ s : ClientStream, s.wire = [77, 73, 82, 73, 0, 0, 0, 0, 0, 0, 0, 29, 1, 2, 3, 4] ∧
      (∃ chunks : List (List UInt8), chunks.Sublist s.fed ∧
        s.wire <+: dongleInfo ![77, 73, 82, 73] 0 29 ++ chunks.flatten) ∧
      ∀ label s', s.step label = some s' →
        ∀ buff ∈ s.waiting, s'.content buff = s.content buff := by
  have moved : (replay ClientStream.step (initial Workpool.blank 3 4 ![77, 73, 82, 73] 0 29)
      shortSession).map wire = some [77, 73, 82, 73, 0, 0, 0, 0, 0, 0, 0, 29, 1, 2, 3, 4] := by
    decide
  obtain ⟨s, replayed, wire⟩ := Option.map_eq_some_iff.mp moved
  exact ⟨s, wire, stream_intact (Reach.of_replay (.start ⟨_, _, _, rfl⟩) _ replayed)⟩

end ClientStream

end MsiSdrDriver.Server
