import MsiSdrDriver.Foundations.FixedBlocks
import MsiSdrDriver.Foundations.LabelledRuns
import MsiSdrDriver.Foundations.LittleEndianBits
import MsiSdrDriver.Server.SessionThreads

/-!
# The framing of commands

`commandListener` with the buffer it fills: `recv` appends to the part that is already there,
and a full buffer is handed to `commandcb`. The step function is the one of the threads,
`commandListenerStep`, to which the bytes are added; any other thread may store any state in
between.

As long as the state stays `CLIENT_SERVING`, the commands that have been carried out are the
bytes that have been received, cut into blocks of five (`FramedListener.framing_exact`). A full
buffer is carried out before the listener looks at the socket again.
-/

set_option autoImplicit false

namespace MsiSdrDriver.Server

open MsiSdrDriver.Foundations

/-! ## Commands -/

/-- `sdr_tcp_command_t`. -/
structure SdrTcpCommand where
  command : UInt8
  parameter : UInt32
  deriving DecidableEq

/-- How a client sends a command: the command byte and the parameter in network order. -/
def SdrTcpCommand.encode (cmd : SdrTcpCommand) : List UInt8 := cmd.command :: htonl cmd.parameter

/-- `cmd.parameter = ntohl(cmd.parameter)` on the packed structure in memory: the host is
little-endian, so the four bytes of the parameter are reversed. -/
def ntohlParameter (cmd : List UInt8) : List UInt8 := cmd.take 1 ++ (cmd.drop 1).reverse

/-- The command in memory. -/
def loadCommand (cmd : List UInt8) : SdrTcpCommand where
  command := cmd.getD 0 0
  parameter := UInt32.ofNat (littleEndian (fun i => cmd.getD i 0) 1 4)

/-- `cmd.command = 0xff`. -/
def clearCommand (cmd : List UInt8) : List UInt8 := 0xff :: cmd.drop 1

/-- The bytes of a word in network order. -/
theorem htonl_ofNat (b1 b2 b3 b4 : UInt8) :
    htonl (UInt32.ofNat (b4.toNat + 256 * (b3.toNat + 256 * (b2.toNat + 256 * b1.toNat)))) =
      [b1, b2, b3, b4] := by
  have bound1 := b1.toNat_lt
  have bound2 := b2.toNat_lt
  have bound3 := b3.toNat_lt
  have bound4 := b4.toNat_lt
  generalize number : b4.toNat + 256 * (b3.toNat + 256 * (b2.toNat + 256 * b1.toNat)) = n
  have small : n < 2 ^ 32 := by omega
  simp only [htonl, List.cons.injEq, and_true, ← UInt8.toNat_inj, UInt32.toNat_toUInt8,
    UInt32.toNat_shiftRight, UInt32.toNat_ofNat_of_lt' small, UInt32.reduceToNat, Nat.reduceMod,
    Nat.shiftRight_eq_div_pow]
  omega

/-- **What is carried out is what was sent.** -/
theorem encode_loadCommand {cmd : List UInt8} (full : cmd.length = sizeofCommand) :
    (loadCommand (ntohlParameter cmd)).encode = cmd := by
  match cmd, full with
  | [command, b1, b2, b3, b4], _ =>
      have parameter : littleEndian
          (fun i => (ntohlParameter [command, b1, b2, b3, b4]).getD i 0) 1 4 =
            b4.toNat + 256 * (b3.toNat + 256 * (b2.toNat + 256 * b1.toNat)) :=
        littleEndian_four _ 1
      rw [SdrTcpCommand.encode, loadCommand, parameter, htonl_ofNat]
      rfl

/-! ## The listener -/

/-- What the environment answers a listener: what `select` says, and the bytes that `recv`
stores, or that it fails. -/
structure FramingAnswer where
  select : Bool
  recv : Option (List UInt8)

/-- What the thread's step function sees of an answer. -/
def FramingAnswer.toListener (answer : FramingAnswer) : CommandListenerAnswer :=
  ⟨answer.select, answer.recv.map List.length⟩

/-- A listener with its buffer. The last four fields are history: the bytes that have been
received, the commands that have been carried out, and whether the state has been
`CLIENT_SERVING` and has left it. -/
structure FramedListener where
  obj : Sdrtcp
  pc : CommandListenerPc
  cmd : List UInt8
  received : List UInt8
  dispatched : List SdrTcpCommand
  served : Bool
  left : Bool

/-- A step of the listener, or another thread's store of a state. -/
inductive FramingLabel where
  | listener (answer : FramingAnswer)
  | store (stage : Stage)

namespace FramedListener

/-- The history of the state after a step. -/
def observe (s : FramedListener) : FramedListener :=
  { s with
    served := s.served || s.obj.state = .clientServing
    left := s.left || (s.served && s.obj.state ≠ .clientServing) }

/-- `recv` stores the bytes behind those that are there. -/
def receive (s : FramedListener) (left : ℕ) (bytes : List UInt8) : FramedListener :=
  { s with
    cmd := s.cmd.take (sizeofCommand - left) ++ bytes ++
      s.cmd.drop (sizeofCommand - left + bytes.length)
    received := s.received ++ bytes }

/-- The call of `commandcb` and the two assignments round it. -/
def dispatch (s : FramedListener) : FramedListener :=
  let cmd := ntohlParameter s.cmd
  { s with cmd := clearCommand cmd, dispatched := s.dispatched ++ [loadCommand cmd] }

/-- What a step of the thread does to the buffer. -/
def bufferStep (s : FramedListener) (answer : FramingAnswer) : FramedListener :=
  match s.pc, answer.recv with
  | .recv left, some bytes => s.receive left bytes
  | .commandcb, _ => s.dispatch
  | _, _ => s

/-- One step. -/
def step (s : FramedListener) : FramingLabel → Option FramedListener
  | .listener answer =>
      (commandListenerStep s.obj answer.toListener s.pc).map fun (obj, pc') =>
        observe { s.bufferStep answer with obj := obj, pc := pc' }
  | .store stage => some (observe { s with obj := { s.obj with state := stage } })

/-- A thread that has just been created, with `cmd = {0, 0}`. -/
def initial (obj : Sdrtcp) : FramedListener where
  obj := obj
  pc := .outerTest
  cmd := [0, 0, 0, 0, 0]
  received := []
  dispatched := []
  served := obj.state = .clientServing
  left := false

def Starts (s : FramedListener) : Prop := ∃ obj, s = initial obj

/-! ## The framing -/

/-- How many bytes of the next command the buffer holds. -/
def filled : CommandListenerPc → ℕ
  | .innerTest left | .selectTest left | .recvTest left _ | .recv left | .commandTest left =>
      sizeofCommand - left
  | .recvFailed left => sizeofCommand + 1 - left
  | .commandcb => sizeofCommand
  | .unborn | .outerTest | .exited => 0

/-- A full buffer that has not been carried out yet. -/
def pending (s : FramedListener) : List (List UInt8) :=
  if filled s.pc = sizeofCommand then [s.cmd] else []

/-- **The framing is exact**: the commands that have been carried out, and the one that is about
to be, are what has been received, cut into commands; and the listener carries a full buffer
out with its next steps, before it looks for more. -/
structure FramingExact (s : FramedListener) : Prop where
  blocks : ∃ rest, Blocks sizeofCommand s.received
    (s.dispatched.map SdrTcpCommand.encode ++ s.pending) rest
  prompt : s.pending ≠ [] → ∀ answer, ∃ n ≤ 3, ∃ s',
    replay step s (List.replicate n (.listener answer)) = some s' ∧ s'.pending = [] ∧
      s'.dispatched.map SdrTcpCommand.encode = s.dispatched.map SdrTcpCommand.encode ++ s.pending

/-- What `left` can be. -/
def leftRange : CommandListenerPc → Prop
  | .innerTest left => left ≤ sizeofCommand
  | .selectTest left | .recvTest left _ | .recv left => 0 < left ∧ left ≤ sizeofCommand
  | .recvFailed left => 1 < left
  | .commandTest left => left = 0
  | .unborn | .outerTest | .commandcb | .exited => True

/-- The thread is in its loop. -/
def inLoop : CommandListenerPc → Bool
  | .unborn | .outerTest | .exited => false
  | _ => true

/-- What holds as long as the state stays `CLIENT_SERVING`: what has been received is what has
been carried out, and the filled part of the buffer. -/
structure Filling (s : FramedListener) : Prop where
  size : s.cmd.length = sizeofCommand
  range : leftRange s.pc
  bytes : s.received =
    (s.dispatched.map SdrTcpCommand.encode).flatten ++ s.cmd.take (filled s.pc)
  inLoop : inLoop s.pc = true → s.served = true
  serving : s.served = true → s.obj.state = .clientServing
  seen : s.obj.state = .clientServing → s.served = true

theorem encode_length (cmd : SdrTcpCommand) : cmd.encode.length = sizeofCommand := rfl

theorem filled_le {pc : CommandListenerPc} (range : leftRange pc) : filled pc ≤ sizeofCommand := by
  cases pc <;> simp_all [filled, leftRange, sizeofCommand]
  omega

theorem Filling.blocks {s : FramedListener} (filling : s.Filling) : ∃ rest,
    Blocks sizeofCommand s.received (s.dispatched.map SdrTcpCommand.encode ++ s.pending) rest := by
  have carried : ∀ block ∈ s.dispatched.map SdrTcpCommand.encode,
      block.length = sizeofCommand := by
    intro block member
    obtain ⟨cmd, -, rfl⟩ := List.mem_map.mp member
    exact encode_length cmd
  have most := filled_le filling.range
  have size := filling.size
  unfold pending
  split
  · next full =>
      refine ⟨[], ?_, by decide, ?_⟩
      · intro block member
        rcases List.mem_append.mp member with before | last
        · exact carried block before
        · rw [List.mem_singleton.mp last]
          exact size
      · rw [filling.bytes, full, List.take_of_length_le (by omega)]
        simp
  · next partly =>
      refine ⟨s.cmd.take (filled s.pc), ?_, ?_, ?_⟩
      · rw [List.append_nil]
        exact carried
      · rw [List.length_take]
        omega
      · rw [List.append_nil]
        exact filling.bytes.symm

/-- The places of a full buffer. -/
theorem full_cases {pc : CommandListenerPc} (range : leftRange pc)
    (full : filled pc = sizeofCommand) :
    pc = .innerTest 0 ∨ pc = .commandTest 0 ∨ pc = .commandcb := by
  cases pc <;> simp_all [filled, leftRange, sizeofCommand] <;> omega

theorem dispatch_encode {s : FramedListener} (size : s.cmd.length = sizeofCommand) :
    s.dispatch.dispatched.map SdrTcpCommand.encode =
      s.dispatched.map SdrTcpCommand.encode ++ [s.cmd] := by
  simp [dispatch, encode_loadCommand size]

/-- The listener has moved on and nothing else has happened. -/
def advance (s : FramedListener) (pc : CommandListenerPc) : FramedListener :=
  observe { s with pc := pc }

/-- The listener has carried the command out. -/
def carry (s : FramedListener) : FramedListener := observe { s.dispatch with pc := .outerTest }

theorem step_innerTest {s : FramedListener} (place : s.pc = .innerTest 0) (answer : FramingAnswer) :
    s.step (.listener answer) = some (s.advance (.commandTest 0)) := by
  simp [step, commandListenerStep, bufferStep, place, advance]

theorem step_commandTest {s : FramedListener} (place : s.pc = .commandTest 0)
    (serving : s.obj.state = .clientServing) (answer : FramingAnswer) :
    s.step (.listener answer) = some (s.advance .commandcb) := by
  simp [step, commandListenerStep, bufferStep, place, serving, advance]

theorem step_commandcb {s : FramedListener} (place : s.pc = .commandcb) (answer : FramingAnswer) :
    s.step (.listener answer) = some s.carry := by
  simp [step, commandListenerStep, bufferStep, place, carry, dispatch]

/-- A full buffer is carried out by the next steps of the listener, at most three. -/
theorem Filling.prompt {s : FramedListener} (filling : s.Filling) (waits : s.pending ≠ [])
    (answer : FramingAnswer) : ∃ n ≤ 3, ∃ s',
    replay step s (List.replicate n (.listener answer)) = some s' ∧ s'.pending = [] ∧
      s'.dispatched.map SdrTcpCommand.encode =
        s.dispatched.map SdrTcpCommand.encode ++ s.pending := by
  have full : filled s.pc = sizeofCommand := by
    by_contra partly
    exact waits (if_neg partly)
  have pending : s.pending = [s.cmd] := if_pos full
  have carried := dispatch_encode filling.size
  rw [pending, ← carried]
  rcases full_cases filling.range full with place | place | place
  · have serving := filling.serving (filling.inLoop (by rw [place]; rfl))
    refine ⟨3, by decide, ((s.advance (.commandTest 0)).advance .commandcb).carry, ?_, rfl, rfl⟩
    simp only [List.replicate_succ, List.replicate_zero, replay, step_innerTest place,
      Option.bind_some, step_commandTest (s := s.advance (.commandTest 0)) rfl serving,
      step_commandcb (s := (s.advance (.commandTest 0)).advance .commandcb) rfl]
  · have serving := filling.serving (filling.inLoop (by rw [place]; rfl))
    refine ⟨2, by decide, (s.advance .commandcb).carry, ?_, rfl, rfl⟩
    simp only [List.replicate_succ, List.replicate_zero, replay, step_commandTest place serving,
      Option.bind_some, step_commandcb (s := s.advance .commandcb) rfl]
  · refine ⟨1, by decide, s.carry, ?_, rfl, rfl⟩
    simp only [List.replicate_succ, List.replicate_zero, replay, step_commandcb place,
      Option.bind_some]

/-! ## One step -/

/-- A step after which the state has not left `CLIENT_SERVING`. -/
theorem Filling.of_observe {s : FramedListener} (stays : s.observe.left = false)
    (size : s.cmd.length = sizeofCommand) (range : leftRange s.pc)
    (bytes : s.received =
      (s.dispatched.map SdrTcpCommand.encode).flatten ++ s.cmd.take (filled s.pc))
    (loops : FramedListener.inLoop s.pc = true →
      s.served = true ∨ s.obj.state = .clientServing) : s.observe.Filling where
  size := size
  range := range
  bytes := bytes
  inLoop := by
    intro inside
    rcases loops inside with before | now
    · simp [FramedListener.observe, before]
    · simp [FramedListener.observe, now]
  serving := by
    intro served
    by_contra gone
    have gone : s.obj.state ≠ .clientServing := gone
    have before : s.served = true := by simpa [FramedListener.observe, gone] using served
    simp [FramedListener.observe, gone, before] at stays
  seen := by
    intro now
    have now : s.obj.state = .clientServing := now
    simp [FramedListener.observe, now]

/-- A step inside the loop that leaves the buffer, and what is filled of it, as they are. -/
theorem Filling.of_idle {s : FramedListener} {answer : FramingAnswer} {obj : Sdrtcp}
    {pc pc' : CommandListenerPc} (filling : s.Filling) (place : s.pc = pc)
    (idle : s.bufferStep answer = s) (loops : FramedListener.inLoop pc = true)
    (same : filled pc' = filled pc) (range : leftRange pc')
    (stays : (observe { s.bufferStep answer with obj := obj, pc := pc' }).left = false) :
    (observe { s.bufferStep answer with obj := obj, pc := pc' }).Filling := by
  have served := filling.inLoop (by rw [place]; exact loops)
  have bytes := filling.bytes
  rw [place, ← same] at bytes
  rw [idle] at stays ⊢
  exact .of_observe stays filling.size range bytes fun _ => .inl served

/-- `recv` fills the buffer where it is free. -/
theorem take_receive {cmd bytes : List UInt8} {left : ℕ} (size : cmd.length = sizeofCommand)
    (room : left ≤ sizeofCommand) (fits : bytes.length ≤ left) :
    (cmd.take (sizeofCommand - left) ++ bytes ++
        cmd.drop (sizeofCommand - left + bytes.length)).take
          (sizeofCommand - (left - bytes.length)) =
      cmd.take (sizeofCommand - left) ++ bytes := by
  apply List.take_left'
  rw [List.length_append, List.length_take]
  omega

theorem ntohlParameter_length {cmd : List UInt8} (size : cmd.length = sizeofCommand) :
    (ntohlParameter cmd).length = sizeofCommand := by
  simp [ntohlParameter, size, sizeofCommand]

theorem clearCommand_length {cmd : List UInt8} (size : cmd.length = sizeofCommand) :
    (clearCommand cmd).length = sizeofCommand := by
  simp [clearCommand, size, sizeofCommand]

/-- `recv` fails, or the buffer fills up. -/
theorem Filling.recv {s : FramedListener} {answer : FramingAnswer} {left : ℕ} {obj : Sdrtcp}
    {pc' : CommandListenerPc} (filling : s.Filling) (place : s.pc = .recv left)
    (stepped : commandListenerStep s.obj answer.toListener s.pc = some (obj, pc'))
    (stays : (observe { s.bufferStep answer with obj := obj, pc := pc' }).left = false) :
    (observe { s.bufferStep answer with obj := obj, pc := pc' }).Filling := by
  have size := filling.size
  have range := filling.range
  have bytes := filling.bytes
  have served := filling.inLoop (by rw [place]; rfl)
  simp only [place, filled] at bytes
  rw [place] at range
  obtain ⟨some, most⟩ := range
  cases got : answer.recv with
  | none =>
      have idle : s.bufferStep answer = s := by simp [bufferStep, place, got]
      simp only [commandListenerStep, place, FramingAnswer.toListener, got, Option.map_none]
        at stepped
      cases stepped
      exact filling.of_idle place idle rfl (by simp [filled]) (Nat.lt_add_of_pos_left some) stays
  | some more =>
      have fills : s.bufferStep answer = s.receive left more := by
        simp [bufferStep, place, got]
      rw [fills] at stays ⊢
      simp only [commandListenerStep, place, FramingAnswer.toListener, got, Option.map_some]
        at stepped
      split at stepped <;> cases stepped
      next fits =>
        refine .of_observe stays ?_ (show left - more.length ≤ sizeofCommand by omega) ?_
          fun _ => .inl served
        · simp only [receive, List.length_append, List.length_take, List.length_drop]
          omega
        · simp only [receive, filled]
          rw [take_receive size most fits, bytes, List.append_assoc]

/-- A full buffer is carried out. -/
theorem Filling.commandcb {s : FramedListener} {answer : FramingAnswer} {obj : Sdrtcp}
    {pc' : CommandListenerPc} (filling : s.Filling) (place : s.pc = .commandcb)
    (stepped : commandListenerStep s.obj answer.toListener s.pc = some (obj, pc'))
    (stays : (observe { s.bufferStep answer with obj := obj, pc := pc' }).left = false) :
    (observe { s.bufferStep answer with obj := obj, pc := pc' }).Filling := by
  have size := filling.size
  have bytes := filling.bytes
  have carries : s.bufferStep answer = s.dispatch := by simp [bufferStep, place]
  rw [carries] at stays ⊢
  simp only [place, filled] at bytes
  simp only [commandListenerStep, place] at stepped
  cases stepped
  refine .of_observe stays (clearCommand_length (ntohlParameter_length size)) trivial ?_
    (by simp [FramedListener.inLoop])
  show s.received = (s.dispatch.dispatched.map SdrTcpCommand.encode).flatten ++ []
  rw [dispatch_encode size, bytes, List.take_of_length_le (Nat.le_of_eq size)]
  simp

theorem Filling.listener {s s' : FramedListener} {answer : FramingAnswer} (filling : s.Filling)
    (moves : s.step (.listener answer) = some s') (stays : s'.left = false) : s'.Filling := by
  simp only [step, Option.map_eq_some_iff, Prod.exists] at moves
  obtain ⟨obj, pc', stepped, rfl⟩ := moves
  have range := filling.range
  have inside := filling.inLoop
  cases place : s.pc with
  | unborn | exited => simp [commandListenerStep, place] at stepped
  | outerTest =>
      have idle : s.bufferStep answer = s := by simp [bufferStep, place]
      have size := filling.size
      have bytes := filling.bytes
      rw [idle] at stays ⊢
      simp only [place, filled] at bytes
      simp only [commandListenerStep, place] at stepped
      split at stepped <;> cases stepped
      · next now => exact .of_observe stays size (Nat.le_refl _) bytes fun _ => .inr now
      · exact .of_observe stays size trivial bytes (by simp [FramedListener.inLoop])
  | innerTest left =>
      have idle : s.bufferStep answer = s := by simp [bufferStep, place]
      have served := inside (by rw [place]; rfl)
      rw [place] at range
      have most : left ≤ sizeofCommand := range
      simp only [commandListenerStep, place, filling.serving served, and_true] at stepped
      split at stepped <;> cases stepped
      · next some => exact filling.of_idle place idle rfl rfl ⟨some, most⟩ stays
      · next none =>
          have none : left = 0 := by omega
          exact filling.of_idle place idle rfl rfl none stays
  | selectTest left =>
      have idle : s.bufferStep answer = s := by simp [bufferStep, place]
      rw [place] at range
      simp only [commandListenerStep, place] at stepped
      split at stepped <;> cases stepped <;>
        exact filling.of_idle place idle rfl rfl range stays
  | recvTest left ready =>
      have idle : s.bufferStep answer = s := by simp [bufferStep, place]
      rw [place] at range
      simp only [commandListenerStep, place] at stepped
      split at stepped <;> cases stepped
      · exact filling.of_idle place idle rfl rfl range stays
      · exact filling.of_idle place idle rfl rfl range.2 stays
  | recv left => exact filling.recv place stepped stays
  | recvFailed left =>
      have idle : s.bufferStep answer = s := by simp [bufferStep, place]
      have served := inside (by rw [place]; rfl)
      simp only [commandListenerStep, place] at stepped
      cases stepped
      -- the store takes the state out of `CLIENT_SERVING`
      simp [FramedListener.observe, idle, served] at stays
  | commandTest left =>
      have idle : s.bufferStep answer = s := by simp [bufferStep, place]
      have served := inside (by rw [place]; rfl)
      rw [place] at range
      obtain rfl : left = 0 := range
      simp only [commandListenerStep, place, filling.serving served, and_self, if_true] at stepped
      cases stepped
      exact filling.of_idle place idle rfl rfl trivial stays
  | commandcb => exact filling.commandcb place stepped stays

theorem Filling.step {s s' : FramedListener} {label : FramingLabel} (filling : s.Filling)
    (moves : s.step label = some s') (stays : s'.left = false) : s'.Filling := by
  cases label with
  | listener answer => exact filling.listener moves stays
  | store stage =>
      cases moves
      exact .of_observe stays filling.size filling.range filling.bytes fun inside =>
        .inl (filling.inLoop inside)

theorem Filling.starts (obj : Sdrtcp) : (initial obj).Filling where
  size := rfl
  range := trivial
  bytes := rfl
  inLoop := by simp [initial, FramedListener.inLoop]
  serving := by simp [initial]
  seen := by simp [initial]

/-- Once the state has left `CLIENT_SERVING`, the history keeps it. -/
theorem left_step {s s' : FramedListener} {label : FramingLabel} (moves : s.step label = some s')
    (stays : s'.left = false) : s.left = false := by
  cases label with
  | listener answer =>
      simp only [step, Option.map_eq_some_iff, Prod.exists] at moves
      obtain ⟨obj, pc', -, rfl⟩ := moves
      have same : (s.bufferStep answer).left = s.left := by
        unfold bufferStep
        split <;> rfl
      simp only [observe, same, Bool.or_eq_false_iff] at stays
      exact stays.1
  | store stage =>
      cases moves
      simp only [observe, Bool.or_eq_false_iff] at stays
      exact stays.1

/-! ## Every run -/

/-- **Command framing is independent of segmentation.** In every run, as long as the state has
stayed `CLIENT_SERVING`, the framing is exact. -/
theorem framing_exact {s : FramedListener} (reached : Reach step Starts Always s)
    (stays : s.left = false) : s.FramingExact := by
  have filling : s.left = false → s.Filling := by
    refine reached.invariant (I := fun s => s.left = false → s.Filling) ?_ ?_
    · rintro s ⟨obj, rfl⟩ -
      exact .starts obj
    · intro s label s' before _ moves stays
      exact (before (left_step moves stays)).step moves stays
  exact ⟨(filling stays).blocks, (filling stays).prompt⟩

/-- What `recv` gives a listener that is served by `select`. -/
def gives (bytes : List UInt8) : FramingLabel := .listener ⟨true, some bytes⟩

/-- `TCP_SET_FREQ` arrives in two pieces with a time-out in between, and behind it the first
byte of the next command. -/
def cutCommand : List FramingLabel :=
  List.replicate 4 (gives []) ++ [gives [1, 0x05]] ++
    [gives [], .listener ⟨false, none⟩] ++ List.replicate 4 (gives []) ++
    [gives [0xf5, 0xe1, 0x00]] ++ List.replicate 7 (gives []) ++ [gives [2]]

theorem framing_exact_cutCommand :
    ∃ s : FramedListener, s.received = [1, 0x05, 0xf5, 0xe1, 0x00, 2] ∧
      s.dispatched = [⟨1, 100000000⟩] ∧ s.FramingExact := by
  have moved : (replay step (initial { sdrtcpInit with state := .clientServing }) cutCommand).map
      (fun s => (s.received, s.dispatched, s.left)) =
        some ([1, 0x05, 0xf5, 0xe1, 0x00, 2], [⟨1, 100000000⟩], false) := by decide
  obtain ⟨s, replayed, shown⟩ := Option.map_eq_some_iff.mp moved
  simp only [Prod.mk.injEq] at shown
  obtain ⟨received, dispatched, stays⟩ := shown
  exact ⟨s, received, dispatched,
    framing_exact (Reach.of_replay (.start ⟨_, rfl⟩) _ replayed) stays⟩

end FramedListener

end MsiSdrDriver.Server
