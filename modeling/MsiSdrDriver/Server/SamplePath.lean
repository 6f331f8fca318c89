import Mathlib.Data.List.Chain
import MsiSdrDriver.Server.SampleCallback
import MsiSdrDriver.Server.StreamIntegrity

/-!
# From the USB transfers to the wire

The whole way of the samples: `_libusb_callback` converts a transfer and calls `msisdr_callback`,
which feeds the server, while the server sends to the client. The thread that reads the stream runs
the first three one after another, so that the next transfer is handled only after `sdrtcp_feed` has
returned from the last one. The commands of a client change the mode in between, and the format
may change from one transfer to the next.

Transfers are lost as a whole or not at all. A step of the path is a step of the session with the
client or leaves it alone (`Conveys.step`), so that what holds of a session that is fed anything
holds of one that is fed the transfers (`samples_conveyed`).
-/

set_option autoImplicit false

namespace MsiSdrDriver.Server

open MsiSdrDriver.Async
open MsiSdrDriver.Convert
open MsiSdrDriver.Driver
open MsiSdrDriver.Foundations

/-! ## The path -/

/-- A transfer that has been handled, with the format it was in. -/
structure Handled where
  format : Format
  xfer : CompletedXfer

/-- The samples of a transfer. -/
def Handled.samples (handled : Handled) : List ℤ :=
  match layout? handled.format with
  | some layout => transferSamples layout handled.xfer.converted
  | none => []

/-- A call of `sdrtcp_feed`: the transfer it was made for, the device before the samples were
corrected and after it, and the bytes. -/
structure Delivery where
  handled : Handled
  before : MsisdrAndroid
  after : MsisdrAndroid
  bytes : List UInt8

/-- **What is fed of a transfer** stands for all of its samples, without their mean values if the
correction is on. -/
def Delivery.Faithful (delivery : Delivery) : Prop :=
  ∃ corrected, Corrects delivery.before delivery.handled.samples delivery.after corrected ∧
    StandsFor delivery.before.enable16bit corrected delivery.bytes

/-- The mean values of a device are those of an earlier time, or have been cleared since. -/
def MeansGoOn (earlier later : MsisdrAndroid) : Prop :=
  later.dcAvgI = earlier.dcAvgI ∧ later.dcAvgQ = earlier.dcAvgQ ∨
    later.dcAvgI = 0 ∧ later.dcAvgQ = 0

/-- The device, the application and the session with the client. `pending` are the calls of
`msisdr_callback` that `_libusb_callback` has still to make. The last two fields are history. -/
structure SamplePath where
  usb : TransferDev
  dev : SampleDev
  pending : List (Handled × List UInt8)
  session : ClientStream
  handled : List Handled
  deliveries : List Delivery

/-- What can happen on the path. -/
inductive SampleLabel where
  | transfer (xfer : CompletedXfer)
  | callback
  | setHard (format : Format)
  | command (cmd : SdrTcpCommand) (answers : StreamAnswers)
  /-- a step of the session that is no call of `sdrtcp_feed` -/
  | session (label : StreamLabel)

namespace SamplePath

/-- The last call of `sdrtcp_feed` has returned. -/
def idle (s : SamplePath) : Bool :=
  match s.session.feeder with
  | .returned _ => true
  | _ => false

/-- A call of `msisdr_callback`, up to the call of `sdrtcp_feed`. -/
def callback (s : SamplePath) (handled : Handled) (buf : Samples) : Option SamplePath :=
  (msisdrCallback s.dev buf).bind fun (dev, chunk) =>
    match chunk with
    | none => some { s with dev := dev }
    | some chunk =>
        (s.session.step (.feed chunk)).map fun session =>
          { s with
            dev := dev
            session := session
            deliveries := s.deliveries ++
              [⟨handled, s.dev.android, dev.android, chunk.buf⟩] }

/-- One step. -/
def step (s : SamplePath) : SampleLabel → Option SamplePath
  | .transfer xfer =>
      if s.pending.isEmpty ∧ s.idle then
        (libusbCallback s.usb xfer).map fun completed =>
          { s with
            usb := completed.p
            pending := completed.calls.map fun bytes => (⟨s.usb.format, xfer⟩, bytes)
            handled := s.handled ++ [⟨s.usb.format, xfer⟩] }
      else none
  | .callback =>
      match s.pending with
      | [] => none
      | (handled, bytes) :: rest =>
          if word : bytes.length < 2 ^ 32 then
            if s.idle then { s with pending := rest }.callback handled ⟨bytes, word⟩ else none
          else none
  | .setHard format => some { s with usb := s.usb.setHard format }
  | .command cmd answers =>
      some { s with
        dev := { s.dev with android := tcpCommandCallback answers s.dev.android cmd } }
  | .session (.feed _) => none
  | .session label => (s.session.step label).map fun session => { s with session := session }

/-- `openAsync` has called `msisdr_read_async` with a length of zero, and the first client is being
served. -/
structure Starts (dongleMagic : Fin 4 → UInt8) (dongleType gainsCount : UInt32)
    (s : SamplePath) : Prop where
  session : ClientStream.Starts dongleMagic dongleType gainsCount s.session
  serves : Serves s.dev
  cb : s.usb.feed.cb = true
  whole : s.usb.feed.xferOutLen = 0
  automatic : Automatic s.usb.format
  fresh : s.pending = [] ∧ s.handled = [] ∧ s.deliveries = []

/-- Transfers receive no more than was asked for, and formats are chosen automatically. -/
def Fitting (_ : SamplePath) : SampleLabel → Prop
  | .transfer xfer => xfer.Fits
  | .setHard format => Automatic format
  | _ => True

/-! ## The invariant -/

/-- A call of `msisdr_callback` that is still to be made has all samples of its transfer. -/
structure Carries (call : Handled × List UInt8) : Prop where
  bytes : call.2 = call.1.samples.flatMap sampleBytes
  range : ∀ sample ∈ call.1.samples, IsInt16 sample
  pairs : 2 ∣ call.1.samples.length
  few : call.1.samples.length ≤ 32768

/-- What every step keeps. -/
structure Conveys (header : List UInt8) (s : SamplePath) : Prop where
  intact : ClientStream.Intact header s.session
  fed : s.session.fed = s.deliveries.map Delivery.bytes
  serves : Serves s.dev
  ready : FeedReady s.usb.feed
  cb : s.usb.feed.cb = true
  whole : s.usb.feed.xferOutLen = 0
  automatic : Automatic s.usb.format
  carries : ∀ call ∈ s.pending, Carries call
  faithful : ∀ delivery ∈ s.deliveries, delivery.Faithful
  means : s.deliveries.IsChain fun one next => MeansGoOn one.after next.before
  last : ∀ delivery ∈ s.deliveries.getLast?, MeansGoOn delivery.after s.dev.android
  order : s.handled.filter (fun handled => handled.samples ≠ []) =
    s.deliveries.map Delivery.handled ++ s.pending.map Prod.fst

/-! ## A transfer -/

theorem samples_of_layout {handled : Handled} {layout : S16Format}
    (wide : layout? handled.format = some layout) :
    handled.samples = transferSamples layout handled.xfer.converted := by
  rw [Handled.samples, wide]

/-- The calls of the application that are made for a transfer: none if it has no samples, and one
with all of them otherwise. -/
structure Calls (handled : Handled) (calls : List (List UInt8)) : Prop where
  carries : ∀ bytes ∈ calls, Carries (handled, bytes)
  once : calls.map (fun _ => handled) = [handled].filter fun handled => handled.samples ≠ []

theorem calls_of_handles {p : TransferDev} (callback : p.feed.cb = true)
    (whole : p.feed.xferOutLen = 0) (automatic : Automatic p.format) {xfer : CompletedXfer}
    (fits : xfer.Fits) {done : Completed} (handles : Handles p xfer done) :
    Calls ⟨p.format, xfer⟩ done.calls := by
  obtain ⟨layout, wide⟩ := automatic.layout
  have samples : Handled.samples ⟨p.format, xfer⟩ = transferSamples layout xfer.converted :=
    samples_of_layout wide
  have bytes := convertAll_samples wide p.sync xfer.converted
  rw [← samples] at bytes
  have few : (Handled.samples ⟨p.format, xfer⟩).length ≤ 32768 := by
    have stored := (stored_le fits p.format p.sync).trans (samplesSize_le xfer.type p.format)
    rw [bytes, length_flatMap_same sampleBytes_length] at stored
    omega
  have calls := handles.calls callback whole
  rw [bytes] at calls
  by_cases empty : Handled.samples ⟨p.format, xfer⟩ = []
  · have none : done.calls = [] := by
      rw [calls, empty]
      rfl
    constructor
    · intro bytes member
      rw [none] at member
      cases member
    · simp [none, empty]
  · have some : done.calls = [(Handled.samples ⟨p.format, xfer⟩).flatMap sampleBytes] := by
      rw [calls, if_neg]
      intro none
      have length := length_flatMap_same sampleBytes_length (Handled.samples ⟨p.format, xfer⟩)
      rw [none, List.length_nil] at length
      exact empty (List.length_eq_zero_iff.mp (by omega))
    constructor
    · intro bytes member
      rw [some, List.mem_singleton] at member
      refine ⟨member, ?_, ?_, few⟩
      · rw [samples]
        exact transferSamples_isInt16 layout _
      · rw [samples]
        exact transferSamples_pairs layout _
    · simp [some, empty]

variable {header : List UInt8} {s s' : SamplePath}

/-- **A transfer is handled**, and its samples wait for the application. -/
theorem Conveys.transfer (conveys : Conveys header s) {xfer : CompletedXfer} (fits : xfer.Fits)
    (moves : s.step (.transfer xfer) = some s') : Conveys header s' := by
  obtain ⟨done, called, handles⟩ := callback_handles conveys.ready fits
  have calls := calls_of_handles conveys.cb conveys.whole conveys.automatic fits handles
  simp only [step, called, Option.map_some] at moves
  split at moves
  next free =>
    cases moves
    obtain ⟨none, -⟩ := free
    have order := conveys.order
    rw [List.isEmpty_iff.mp none, List.map_nil, List.append_nil] at order
    refine ⟨conveys.intact, conveys.fed, conveys.serves, handles.ready,
      handles.cb.trans conveys.cb, handles.xferOutLen.trans conveys.whole, ?_, ?_,
      conveys.faithful, conveys.means, conveys.last, ?_⟩
    · rw [handles.format]
      exact conveys.automatic
    · intro call member
      obtain ⟨bytes, among, rfl⟩ := List.mem_map.mp member
      exact calls.carries bytes among
    · rw [List.filter_append, order, ← calls.once, List.map_map]
      rfl
  · cases moves

/-! ## A call of the application -/

/-- The session takes what it is fed if the last call has returned. -/
theorem step_feed (free : s.idle = true) (chunk : Chunk) :
    s.session.step (.feed chunk) =
      some { s.session with feeder := .check chunk, fed := s.session.fed ++ [chunk.buf] } := by
  unfold idle at free
  unfold ClientStream.step
  cases returned : s.session.feeder with
  | returned successful => rfl
  | _ => simp [returned] at free

/-- **A call of the application** feeds all samples of a transfer. -/
theorem callback_delivers (serves : Serves s.dev) (free : s.idle = true) {handled : Handled}
    {bytes : List UInt8} (carries : Carries (handled, bytes)) (word : bytes.length < 2 ^ 32) :
    ∃ dev chunk, s.callback handled ⟨bytes, word⟩ = some { s with
        dev := dev
        session :=
          { s.session with feeder := .check chunk, fed := s.session.fed ++ [chunk.buf] }
        deliveries := s.deliveries ++ [⟨handled, s.dev.android, dev.android, chunk.buf⟩] } ∧
      Serves dev ∧ Delivery.Faithful ⟨handled, s.dev.android, dev.android, chunk.buf⟩ := by
  have data : Samples.data ⟨bytes, word⟩ = handled.samples.flatMap sampleBytes := carries.bytes
  obtain ⟨dev, chunk, corrected, called, serves', corrects, stands⟩ :=
    msisdrCallback_passesOn serves carries.range carries.pairs carries.few data
  refine ⟨dev, chunk, ?_, serves', ⟨corrected, corrects, stands⟩⟩
  rw [callback, called, Option.bind_some]
  dsimp only
  rw [step_feed free, Option.map_some]

theorem Carries.word {call : Handled × List UInt8} (carries : Carries call) :
    call.2.length < 2 ^ 32 := by
  have few := carries.few
  rw [carries.bytes, length_flatMap_same sampleBytes_length]
  omega

/-- The next call, if the last one has returned. -/
theorem Conveys.callback_eq (conveys : Conveys header s) (free : s.idle = true)
    {handled : Handled} {bytes : List UInt8} {rest : List (Handled × List UInt8)}
    (waits : s.pending = (handled, bytes) :: rest) :
    ∃ s', s.step .callback = some s' ∧ Conveys header s' ∧ s'.pending = rest ∧
      s'.deliveries.map Delivery.handled = s.deliveries.map Delivery.handled ++ [handled] := by
  have carries := conveys.carries (handled, bytes) (by rw [waits]; exact List.mem_cons_self)
  obtain ⟨dev, chunk, called, serves, faithful⟩ :=
    callback_delivers (s := { s with pending := rest }) conveys.serves free carries carries.word
  have moved : s.step .callback =
      { s with pending := rest }.callback handled ⟨bytes, carries.word⟩ := by
    rw [step, waits]
    dsimp only
    rw [dif_pos carries.word, if_pos free]
  refine ⟨_, moved.trans called, ?_, rfl, List.map_append⟩
  · have intact := conveys.intact.feed (step_feed free chunk)
    refine ⟨intact, ?_, serves, conveys.ready, conveys.cb, conveys.whole, conveys.automatic, ?_, ?_,
      ?_, ?_, ?_⟩
    · rw [List.map_append, ← conveys.fed]
      rfl
    · intro call member
      exact conveys.carries call (by rw [waits]; exact List.mem_cons_of_mem _ member)
    · intro delivery member
      rcases List.mem_append.mp member with before | last
      · exact conveys.faithful delivery before
      · rw [List.mem_singleton.mp last]
        exact faithful
    · refine List.IsChain.append conveys.means (List.isChain_singleton _) ?_
      intro one last next first
      cases first
      exact conveys.last one last
    · intro delivery last
      rw [List.getLast?_concat] at last
      cases last
      exact .inl ⟨rfl, rfl⟩
    · have order := conveys.order
      rw [waits] at order
      rw [List.map_append, List.append_assoc]
      exact order

/-- No call is made before the last one has returned, nor one that is not pending. -/
theorem callback_enabled (moves : s.step .callback = some s') :
    s.idle = true ∧ ∃ handled bytes rest, s.pending = (handled, bytes) :: rest := by
  simp only [step] at moves
  split at moves
  · cases moves
  next handled bytes rest waits =>
    split at moves
    · split at moves
      next free => exact ⟨free, handled, bytes, rest, waits⟩
      · cases moves
    · cases moves

theorem Conveys.callback (conveys : Conveys header s) (moves : s.step .callback = some s') :
    Conveys header s' := by
  obtain ⟨free, handled, bytes, rest, waits⟩ := callback_enabled moves
  obtain ⟨after, called, conveys', -, -⟩ := conveys.callback_eq free waits
  rw [moves] at called
  cases called
  exact conveys'

/-! ## The other steps -/

/-- A command keeps the device open. -/
theorem tcpCommandCallback_open (answers : StreamAnswers) (dev : MsisdrAndroid)
    (cmd : SdrTcpCommand) :
    (tcpCommandCallback answers dev cmd).miriDev.isSome = dev.miriDev.isSome := by
  unfold tcpCommandCallback
  split
  · rfl
  · next device opened =>
      rw [opened]
      dsimp only
      split
      · rfl
      · split <;> rfl
      · rfl

/-- A command leaves the mean values as they are, or clears them. -/
theorem tcpCommandCallback_means (answers : StreamAnswers) (dev : MsisdrAndroid)
    (cmd : SdrTcpCommand) : MeansGoOn dev (tcpCommandCallback answers dev cmd) := by
  unfold tcpCommandCallback
  split
  · exact .inl ⟨rfl, rfl⟩
  · dsimp only
    split
    · exact .inl ⟨rfl, rfl⟩
    · split
      · exact .inl ⟨rfl, rfl⟩
      · exact .inr ⟨rfl, rfl⟩
    · exact .inl ⟨rfl, rfl⟩

theorem MeansGoOn.trans {one two three : MsisdrAndroid} (first : MeansGoOn one two)
    (second : MeansGoOn two three) : MeansGoOn one three := by
  rcases second with ⟨i, q⟩ | cleared
  · rw [MeansGoOn, i, q]
    exact first
  · exact .inr cleared

/-- What is fed changes with a call of `sdrtcp_feed` only. -/
theorem fed_kept {t t' : ClientStream} {label : StreamLabel} (other : ∀ chunk, label ≠ .feed chunk)
    (moves : t.step label = some t') : t'.fed = t.fed := by
  cases label with
  | feed chunk => exact absurd rfl (other chunk)
  | feeder =>
      simp only [ClientStream.step, Option.map_eq_some_iff] at moves
      obtain ⟨result, -, rfl⟩ := moves
      rfl
  | sender answer =>
      simp only [ClientStream.step, Option.map_eq_some_iff] at moves
      obtain ⟨result, -, rfl⟩ := moves
      rfl
  | stop =>
      cases moves
      rfl
  | cleanup =>
      simp only [ClientStream.step] at moves
      split at moves
      · split at moves
        · cases moves
        · cases moves
          rfl
      · cases moves

theorem Conveys.session {label : StreamLabel} (conveys : Conveys header s)
    (moves : s.step (.session label) = some s') : Conveys header s' := by
  have other : ∀ chunk, label ≠ .feed chunk := by
    rintro chunk rfl
    cases moves
  have stepped : (s.session.step label).map (fun session => { s with session := session }) =
      some s' := by
    cases label with
    | feed chunk => exact absurd rfl (other chunk)
    | _ => exact moves
  obtain ⟨session, moved, rfl⟩ := Option.map_eq_some_iff.mp stepped
  exact ⟨conveys.intact.step moved, (fed_kept other moved).trans conveys.fed, conveys.serves,
    conveys.ready, conveys.cb, conveys.whole, conveys.automatic, conveys.carries,
    conveys.faithful, conveys.means, conveys.last, conveys.order⟩

/-- **Every step conveys the samples.** -/
theorem Conveys.step {label : SampleLabel} (conveys : Conveys header s)
    (fitting : s.Fitting label) (moves : s.step label = some s') : Conveys header s' := by
  cases label with
  | transfer xfer => exact conveys.transfer fitting moves
  | callback => exact conveys.callback moves
  | setHard format =>
      cases moves
      exact ⟨conveys.intact, conveys.fed, conveys.serves, conveys.ready, conveys.cb,
        conveys.whole, fitting, conveys.carries, conveys.faithful, conveys.means, conveys.last,
        conveys.order⟩
  | command cmd answers =>
      cases moves
      refine ⟨conveys.intact, conveys.fed, ⟨?_, conveys.serves.convBufSize,
        conveys.serves.convBuf⟩, conveys.ready, conveys.cb, conveys.whole, conveys.automatic,
        conveys.carries, conveys.faithful, conveys.means, ?_, conveys.order⟩
      · exact (tcpCommandCallback_open answers s.dev.android cmd).trans conveys.serves.miriDev
      · intro delivery last
        exact MeansGoOn.trans (conveys.last delivery last) (tcpCommandCallback_means ..)
  | session label => exact conveys.session moves

/-! ## Every run -/

/-- **The samples of the transfers are conveyed to the client.** -/
structure Conveyed (header : List UInt8) (s : SamplePath) : Prop where
  /-- the client has received some of the transfers, each as a whole and in order, and the
  beginning of one more -/
  wire : ∃ received : List Delivery, received.Sublist s.deliveries ∧
    s.session.wire <+: header ++ (received.map Delivery.bytes).flatten
  faithful : ∀ delivery ∈ s.deliveries, delivery.Faithful
  /-- the mean values go on from one delivery to the next, unless a command clears them -/
  means : s.deliveries.IsChain fun one next => MeansGoOn one.after next.before
  /-- every transfer with samples is delivered once, or is about to be -/
  order : s.handled.filter (fun handled => handled.samples ≠ []) =
    s.deliveries.map Delivery.handled ++ s.pending.map Prod.fst
  /-- an I value is followed by its Q value -/
  pairs : ∀ delivery ∈ s.deliveries, 2 ∣ delivery.handled.samples.length
  /-- whenever `sdrtcp_feed` has returned, the thread goes on -/
  goesOn : s.idle = true →
    (s.pending = [] → ∀ xfer : CompletedXfer, xfer.Fits → (s.step (.transfer xfer)).isSome) ∧
      (s.pending ≠ [] → (s.step .callback).isSome)

/-- The samples of every format come in pairs. -/
theorem samples_pairs (handled : Handled) : 2 ∣ handled.samples.length := by
  unfold Handled.samples
  split
  · exact transferSamples_pairs _ _
  · exact Nat.dvd_zero 2

theorem Conveys.conveyed (conveys : Conveys header s) : Conveyed header s where
  wire := by
    obtain ⟨before, chunks, fed, queued, sublist⟩ := conveys.intact.fed.blocks
    have among : chunks.Sublist (s.deliveries.map Delivery.bytes) := by
      rw [← conveys.fed, fed]
      exact sublist.trans (List.sublist_append_left _ _)
    obtain ⟨received, delivered, rfl⟩ := List.sublist_map_iff.mp among
    refine ⟨received, delivered, ?_⟩
    have sent := conveys.intact.wire_prefix
    rwa [queued, List.flatten_cons] at sent
  faithful := conveys.faithful
  means := conveys.means
  order := conveys.order
  pairs := fun delivery _ => samples_pairs delivery.handled
  goesOn := by
    intro free
    refine ⟨fun none xfer fits => ?_, fun some => ?_⟩
    · obtain ⟨done, called, -⟩ := callback_handles conveys.ready fits
      rw [SamplePath.step, if_pos ⟨List.isEmpty_iff.mpr none, free⟩, called]
      rfl
    · obtain ⟨⟨handled, bytes⟩, rest, waits⟩ := List.exists_cons_of_ne_nil some
      obtain ⟨s', moved, -⟩ := conveys.callback_eq free waits
      rw [moved]
      rfl

theorem Starts.conveys {dongleMagic : Fin 4 → UInt8} {dongleType gainsCount : UInt32}
    (starts : Starts dongleMagic dongleType gainsCount s) :
    Conveys (dongleInfo dongleMagic dongleType gainsCount) s := by
  obtain ⟨⟨pool, listenSocket, clientSocket, opened⟩, serves, cb, whole, automatic,
    none, fresh, empty⟩ := starts
  refine ⟨?_, ?_, serves, .inl whole, cb, whole, automatic, ?_, ?_, ?_, ?_, ?_⟩
  · rw [opened]
    exact ClientStream.Intact.starts ..
  · rw [opened, empty]
    rfl
  · simp [none]
  · simp [empty]
  · simp [empty]
  · simp [empty]
  · simp [none, fresh, empty]

/-- **From the USB transfers to the wire.** In every run, whatever the transfers bring, however they
interleave with the server, and however often a client changes the mode. -/
theorem samples_conveyed {dongleMagic : Fin 4 → UInt8} {dongleType gainsCount : UInt32}
    (reached : Reach step (Starts dongleMagic dongleType gainsCount) Fitting s) :
    Conveyed (dongleInfo dongleMagic dongleType gainsCount) s := by
  have conveys : Conveys (dongleInfo dongleMagic dongleType gainsCount) s :=
    reached.invariant (fun s starts => starts.conveys)
      fun s label s' conveys fitting moves => conveys.step fitting moves
  exact conveys.conveyed

/-- The next two steps of the thread that reads the stream deliver a transfer with samples. -/
theorem Conveys.transfer_delivered (conveys : Conveys header s) (free : s.idle = true)
    (none : s.pending = []) {xfer : CompletedXfer} (fits : xfer.Fits)
    (samples : Handled.samples ⟨s.usb.format, xfer⟩ ≠ []) :
    ∃ between s', s.step (.transfer xfer) = some between ∧
      between.step .callback = some s' ∧ s'.pending = [] ∧
      s'.deliveries.map Delivery.handled =
        s.deliveries.map Delivery.handled ++ [⟨s.usb.format, xfer⟩] := by
  obtain ⟨done, called, handles⟩ := callback_handles conveys.ready fits
  have calls := calls_of_handles conveys.cb conveys.whole conveys.automatic fits handles
  have once := calls.once
  simp only [List.filter_cons_of_pos (p := fun h : Handled => decide (h.samples ≠ []))
    (decide_eq_true samples), List.filter_nil] at once
  obtain ⟨bytes, rest, calledWith, -, last⟩ := List.map_eq_cons_iff.mp once
  obtain rfl : rest = [] := List.map_eq_nil_iff.mp last
  have moved : s.step (.transfer xfer) = some
      { s with
        usb := done.p
        pending := [(⟨s.usb.format, xfer⟩, bytes)]
        handled := s.handled ++ [⟨s.usb.format, xfer⟩] } := by
    rw [SamplePath.step, if_pos ⟨List.isEmpty_iff.mpr none, free⟩, called, Option.map_some,
      calledWith]
    rfl
  obtain ⟨s', delivered, -, empty, order⟩ :=
    (conveys.transfer fits moved).callback_eq free rfl
  exact ⟨_, s', moved, delivered, empty, order⟩

/-- A stream that has just been started, and a client that has just connected. -/
def opened : SamplePath where
  usb := startedStream
  dev := ⟨⟨some ⟨clearedDev 0x2500, []⟩, false, true, 0, 0⟩, some (List.replicate 32768 0), 32768⟩
  pending := []
  session := .initial Workpool.blank 3 4 ![77, 73, 82, 73] 0 103
  handled := []
  deliveries := []

/-- One block of a BULK transfer is delivered. -/
theorem samples_conveyed_oneBlock :
    ∃ s : SamplePath, s.deliveries.length = 1 ∧
      Conveyed (dongleInfo ![77, 73, 82, 73] 0 103) s := by
  have starts : Starts ![77, 73, 82, 73] 0 103 opened :=
    ⟨⟨_, _, _, rfl⟩, ⟨rfl, rfl, _, rfl, List.length_replicate⟩, rfl, rfl, ⟨2000000, rfl⟩,
      rfl, rfl, rfl⟩
  have fits : CompletedXfer.Fits (.bulk ⟨fun _ => 0, 1024⟩) := by
    show 1024 ≤ 16384
    decide
  have samples : Handled.samples ⟨.s16x252, .bulk ⟨fun _ => 0, 1024⟩⟩ ≠ [] := by
    rw [samples_of_layout (show layout? .s16x252 = some .s16x252 from rfl)]
    simp [transferSamples, CompletedXfer.converted, S16Format.perBlock]
  obtain ⟨between, s, moved, delivered, -, order⟩ :=
    starts.conveys.transfer_delivered rfl rfl fits samples
  have first : Reach step (Starts ![77, 73, 82, 73] 0 103) Fitting between :=
    .step (.start starts) (a := .transfer (.bulk ⟨fun _ => 0, 1024⟩)) fits moved
  have second : Reach step (Starts ![77, 73, 82, 73] 0 103) Fitting s :=
    .step first (a := .callback) trivial delivered
  refine ⟨s, ?_, samples_conveyed second⟩
  rw [← List.length_map (f := Delivery.handled), order]
  rfl

end SamplePath

end MsiSdrDriver.Server
