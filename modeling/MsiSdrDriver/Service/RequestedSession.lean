import MsiSdrDriver.Driver.AutoFormat
import MsiSdrDriver.Server.CommandedRegisters
import MsiSdrDriver.Service.TcpArguments

/-!
# The device that a request opens

`MsiSdrDevice.openAsync` hands four of the numbers of a request to the native code, which sets the
device up with them and then serves commands. The registers follow the request, and later the
commands (`requested_registers`).

The bias tee is not among the four. A request with `-T 1` is accepted and has no effect, and no
command switches the tee on either: whether there is power on the antenna follows from the frequency
alone, and from the kind of the device (`antenna_power_iff`).

The samples always come in the finest format that the bus carries at the accepted rate, and the host
converts them with the layout that the device was told (`samples_bestFit`).
-/

set_option autoImplicit false

namespace MsiSdrDriver.Service

open MsiSdrDriver.Driver
open MsiSdrDriver.Server
open ArgumentParser

/-! ## The call of the native code -/

/-- The numbers of a request that `openAsync` configures the device with. -/
def nativeArguments (args : SdrTcpArguments) : OpenArgs where
  gain := args.gain
  samplingrate := args.samplerateHz
  frequency := args.frequencyHz
  ppm := args.ppm

/-- The device that a request opens: the request is accepted, and so are its numbers. -/
def Opens (answers : StreamAnswers) (pid : UInt16) (transfer : Transfer) (data : JavaString)
    (args : SdrTcpArguments) (device : OpenDevice) : Prop :=
  fromData data = .ok args ∧
    openAsync answers (setUp answers pid transfer) (nativeArguments args) = .ok device

variable {answers : StreamAnswers} {pid : UInt16} {transfer : Transfer} {data : JavaString}
  {args : SdrTcpArguments} {device : OpenDevice}

theorem setUp_inactive (answers : StreamAnswers) (pid : UInt16) (transfer : Transfer) :
    (setUp answers pid transfer).dev.asyncStatus = .inactive :=
  (msisdrSetup_programmed answers.calls pid transfer).idle

theorem Opens.commanded (opens : Opens answers pid transfer data args device) :
    Commanded device (asUInt32 args.samplerateHz) :=
  openAsync_commanded (setUp_commanded answers pid transfer) (setUp_rate answers pid transfer)
    (setUp_inactive answers pid transfer) opens.2

/-- The tuning over a session. -/
theorem Opens.tuning (opens : Opens answers pid transfer data args device)
    (events : List DeviceEvent) :
    (afterEvents device events).dev.tuning =
      { Tuning.setup pid with freq := lastFrequency (asUInt32 args.frequencyHz) events } := by
  have opened := openAsync_tuning (setUp_inactive answers pid transfer) opens.2
  have default : (setUp answers pid transfer).dev.tuning = Tuning.setup pid :=
    msisdrSetup_tuning answers.calls pid transfer
  have freq : device.dev.freq = asUInt32 args.frequencyHz := congrArg Tuning.freq opened
  rw [afterEvents_tuning, opened, default, freq]

/-! ## Every session -/

/-- **The registers follow the request and the commands**, whatever the stream does meanwhile: the
converters run at the last sample rate that was accepted, and the tuner is within 6 Hz of the last
frequency exactly where this is below 3072 MHz. -/
theorem requested_registers (opens : Opens answers pid transfer data args device)
    (events : List DeviceEvent) :
    FollowsCommands (acceptedRate device (asUInt32 args.samplerateHz) events)
        (afterEvents device events) ∧
      (TunedTo (afterEvents device events)
          (lastFrequency (asUInt32 args.frequencyHz) events).toNat ↔
        (lastFrequency (asUInt32 args.frequencyHz) events).toNat < 3072000000) := by
  have commanded := opens.commanded.events events
  have freq : (afterEvents device events).dev.freq =
      lastFrequency (asUInt32 args.frequencyHz) events :=
    congrArg Tuning.freq (opens.tuning events)
  refine ⟨commanded.follows, ?_⟩
  generalize lastFrequency (asUInt32 args.frequencyHz) events = asked at freq ⊢
  have near := tunedTo_tuned_iff (afterEvents device events)
    (Nat.mod_eq_of_lt asked.toNat_lt).symm
  rw [← near, TunedTo, TunedTo, commanded.toTuned.decodedLo, freq]

/-- **Whether there is power on the antenna** does not depend on the request but for its frequency,
and not on the commands but for theirs. -/
theorem antenna_power_iff (opens : Opens answers pid transfer data args device)
    (events : List DeviceEvent) :
    (afterEvents device events).BiasLine ↔
      ¬ (pid = 0x3000 ∨ pid = 0x3010) ∧
        DrivesBias (lastFrequency (asUInt32 args.frequencyHz) events) := by
  have commanded := opens.commanded.events events
  have tuning := opens.tuning events
  have bias : (afterEvents device events).dev.bias = 0 := congrArg Tuning.bias tuning
  have freq : (afterEvents device events).dev.freq =
      lastFrequency (asUInt32 args.frequencyHz) events := congrArg Tuning.freq tuning
  have flavour : (afterEvents device events).dev.hwFlavour =
      if pid = 0x3000 ∨ pid = 0x3010 then .sdrplay else .hwDefault :=
    congrArg Tuning.flavour tuning
  rw [commanded.toTuned.biasLine_iff, bias, freq, flavour]
  split
  · next sdrplay => simp [sdrplay]
  · next other => simp [other]

/-- **The format of the samples** is the finest one that the bus carries at the last accepted sample
rate, and the word in the device's register selects the one that the host converts with. -/
theorem samples_bestFit (opens : Opens answers pid transfer data args device)
    (events : List DeviceEvent) :
    let rate := limitRate (acceptedRate device (asUInt32 args.samplerateHz) events)
    let format := (afterEvents device events).dev.format
    BestFit rate format ∧ (Carried rate format ↔ rate.toNat ≤ 12096000) ∧
      (afterEvents device events).chip 7 = some ((formatWord format).setWidth 24) := by
  intro rate format
  have commanded := opens.commanded.events events
  have chosen : format = autoFormat rate := commanded.format
  rw [chosen]
  have best := autoFormat_bestFit rate
  exact ⟨best, best.carried_iff, commanded.clock.chip7⟩

/-- A request without the bias tee, at 150 MHz. -/
def quietRequest : JavaString := text "iqsrc://-a 127.0.0.1 -p 1234 -f 150000000 -T 0"

/-- It is opened, on hardware of the default kind. -/
theorem quietRequest_opens : ∃ args device,
    Opens ⟨[], true, .running⟩ 0x2500 .bulk quietRequest args device ∧
      asUInt32 args.frequencyHz = 150000000 := by
  have read : fromData quietRequest =
      .ok ⟨78, 2048000, 150000000, text "127.0.0.1", 1234, 0, 0, by decide⟩ := by rfl
  rcases openAsync_cases ⟨[], true, .running⟩
      (nativeArguments ⟨78, 2048000, 150000000, text "127.0.0.1", 1234, 0, 0, by decide⟩)
      (setUp_inactive ⟨[], true, .running⟩ 0x2500 .bulk) with
    ⟨negative, -⟩ | ⟨-, -, before, opened⟩
  · rcases negative with rate | frequency
    · exact absurd rate (by decide)
    · exact absurd frequency (by decide)
  · exact ⟨_, _, ⟨read, opened⟩, rfl⟩

/-- The tuner of that session. -/
theorem requested_registers_quietRequest : ∃ args device,
    Opens ⟨[], true, .running⟩ 0x2500 .bulk quietRequest args device ∧
      TunedTo (afterEvents device []) 150000000 := by
  obtain ⟨args, device, opens, freq⟩ := quietRequest_opens
  refine ⟨args, device, opens, ?_⟩
  have near := (requested_registers opens []).2
  rw [lastFrequency, List.foldl_nil, freq] at near
  exact near.mpr (by decide)

/-- The format of that session. -/
theorem samples_bestFit_quietRequest : ∃ args device,
    Opens ⟨[], true, .running⟩ 0x2500 .bulk quietRequest args device ∧
      Convert.layout? (afterEvents device []).dev.format ≠ none := by
  obtain ⟨args, device, opens, -⟩ := quietRequest_opens
  exact ⟨args, device, opens, (samples_bestFit opens []).1.wide⟩

/-- There is power on the antenna all the same. -/
theorem antenna_power_iff_quietRequest : ∃ args device,
    Opens ⟨[], true, .running⟩ 0x2500 .bulk quietRequest args device ∧
      (afterEvents device []).BiasLine := by
  obtain ⟨args, device, opens, freq⟩ := quietRequest_opens
  refine ⟨args, device, opens, (antenna_power_iff opens []).mpr ⟨by decide, ?_⟩⟩
  rw [lastFrequency, List.foldl_nil, freq]
  exact .inr (.inl (by decide))

end MsiSdrDriver.Service
