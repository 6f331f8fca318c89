import MsiSdrDriver.Driver.GainWord
import MsiSdrDriver.Server.DeviceCommands

/-!
# The total of the gain stages

`p->gain` is the gain that was asked for, and `msisdr_get_tuner_gain` adds up the stages. A client
asks for a gain with three commands; every other command leaves the stages alone. A request of 0 to
102 is split so that the stages add up to it, both where the amplifier counts and on the AM input
where the mixbuffer stands in for it (`Stages.ofGain_booked`), so that retuning does not change the
total.

`msisdr_setup` does not ask for its default gain. It stores 43 together with a baseband reduction of
43, where 43 dB take one of 59, and the stages add up to 59 (`default_gain_misbooked`). The books
are in order from the first request on, and not before (`gain_booked_iff`).
-/

set_option autoImplicit false

namespace MsiSdrDriver.Server

open MsiSdrDriver.Driver

/-! ## Commands and other events -/

/-- The gain that a command asks for. -/
def SdrTcpCommand.requestedGain (cmd : SdrTcpCommand) : Option ℤ :=
  match cmd.tcpCommand with
  | .setGain => some (asInt cmd.parameter)
  | .setTunerGainById =>
      if cmd.parameter.toNat < msisdrGetTunerGains.length then
        some (msisdrGetTunerGains.getD cmd.parameter.toNat 0)
      else none
  | .androidGainByPercentage => some (msisdrGetTunerGains.getD (percIndex cmd.parameter).toNat 0)
  | _ => none

/-- What can happen to the device while clients are served: a command, with what libusb answers it,
or a store of the thread that runs the stream. -/
inductive DeviceEvent where
  | command (cmd : SdrTcpCommand) (answers : StreamAnswers)
  | stream (asyncStatus : AsyncStatus) (addr : UInt32) (transfer : Transfer)

/-- The device after an event. -/
def afterEvent (p : OpenDevice) : DeviceEvent → OpenDevice
  | .command cmd answers => commandDevice answers p cmd
  | .stream asyncStatus addr transfer =>
      { p with
        dev := { p.dev with asyncStatus := asyncStatus, addr := addr, transfer := transfer } }

/-- The device after a sequence of events. -/
def afterEvents (p : OpenDevice) (events : List DeviceEvent) : OpenDevice :=
  events.foldl afterEvent p

/-- The gain that an event asks for. -/
def DeviceEvent.requestedGain : DeviceEvent → Option ℤ
  | .command cmd _ => cmd.requestedGain
  | .stream _ _ _ => none

/-- The gains that were asked for, the oldest first. -/
def requestedGains (events : List DeviceEvent) : List ℤ :=
  events.filterMap DeviceEvent.requestedGain

/-- The last request that was not negative, clamped to 102. -/
def lastRequested (gains : List ℤ) : Option ℤ :=
  gains.foldl (fun last gain => if gain < 0 then last else some (min gain 102)) none

/-! ## The effect of an event -/

/-- The effect of a request on the stages, if there is one. -/
def requestStages (s : Stages) : Option ℤ → Stages
  | some gain => s.request gain
  | none => s

theorem setGainByIndex_stages (p : OpenDevice) (index : UInt32) :
    (setGainByIndex p index).1.dev.stages = requestStages p.dev.stages
      (if index.toNat < msisdrGetTunerGains.length then
        some (msisdrGetTunerGains.getD index.toNat 0) else none) := by
  simp only [setGainByIndex]
  by_cases inside : index.toNat < msisdrGetTunerGains.length
  · rw [if_pos ⟨Nat.zero_lt_of_lt inside, inside⟩, if_pos inside]
    exact msisdrSetTunerGain_stages p _
  · rw [if_neg fun both => inside both.2, if_neg inside]
    rfl

/-- **A command makes the request that it stands for, and does nothing else to the stages.** -/
theorem commandDevice_stages (answers : StreamAnswers) (p : OpenDevice) (cmd : SdrTcpCommand) :
    (commandDevice answers p cmd).dev.stages = requestStages p.dev.stages cmd.requestedGain := by
  unfold commandDevice SdrTcpCommand.requestedGain
  cases cmd.tcpCommand with
  | setGain => exact msisdrSetTunerGain_stages p _
  | setTunerGainById => exact setGainByIndex_stages p _
  | androidGainByPercentage => exact msisdrSetTunerGain_stages p _
  | setSampleRate => exact (msisdrSetHard_stages answers _).1
  | setFreq => rfl
  | setGainMode => rfl
  | setFreqCorrection => rfl
  | setOffsetTuning => rfl
  | androidExit => rfl
  | androidEnable16BitSigned => rfl
  | androidEnableDcCorrection => rfl
  | default => rfl

theorem afterEvent_stages (p : OpenDevice) (event : DeviceEvent) :
    (afterEvent p event).dev.stages = requestStages p.dev.stages event.requestedGain := by
  cases event with
  | command cmd answers => exact commandDevice_stages answers p cmd
  | stream asyncStatus addr transfer => rfl

/-- The stages depend on the requests only. -/
theorem afterEvents_stages (p : OpenDevice) (events : List DeviceEvent) :
    (afterEvents p events).dev.stages =
      (requestedGains events).foldl Stages.request p.dev.stages := by
  induction events generalizing p with
  | nil => rfl
  | cons event rest ih =>
      rw [afterEvents, List.foldl_cons]
      refine (ih (afterEvent p event)).trans ?_
      rw [afterEvent_stages, requestedGains, requestedGains, List.filterMap_cons]
      cases event.requestedGain with
      | none => rfl
      | some gain => rfl

/-- No command moves the device to the first AM input. -/
theorem commandDevice_band (answers : StreamAnswers) {p : OpenDevice} (other : p.dev.band ≠ .am1)
    (cmd : SdrTcpCommand) : (commandDevice answers p cmd).dev.band ≠ .am1 := by
  have request : ∀ gain, (msisdrSetTunerGain p gain).1.dev.band ≠ .am1 := by
    intro gain
    rw [msisdrSetTunerGain_band]
    exact other
  unfold commandDevice
  cases cmd.tcpCommand with
  | setFreq => exact bandAfter_ne_am1 _ _ other
  | setOffsetTuning => exact bandAfter_ne_am1 _ _ other
  | setSampleRate =>
      show (msisdrSetHard _ _).1.dev.band ≠ .am1
      rw [(msisdrSetHard_stages answers _).2]
      exact other
  | setGain => exact request _
  | androidGainByPercentage => exact request _
  | setTunerGainById =>
      simp only [setGainByIndex]
      split
      · exact request _
      · exact other
  | setGainMode => exact other
  | setFreqCorrection => exact other
  | androidExit => exact other
  | androidEnable16BitSigned => exact other
  | androidEnableDcCorrection => exact other
  | default => exact other

theorem afterEvent_band {p : OpenDevice} (other : p.dev.band ≠ .am1) (event : DeviceEvent) :
    (afterEvent p event).dev.band ≠ .am1 := by
  cases event with
  | command cmd answers => exact commandDevice_band answers other cmd
  | stream asyncStatus addr transfer => exact other

theorem afterEvents_band {p : OpenDevice} (other : p.dev.band ≠ .am1) (events : List DeviceEvent) :
    (afterEvents p events).dev.band ≠ .am1 := by
  induction events generalizing p with
  | nil => exact other
  | cons event rest ih => exact ih (afterEvent_band other event)

/-! ## The total -/

/-- The total of the stages where the amplifier is in the path. -/
def stagesTotal (s : Stages) : ℤ :=
  59 - s.baseband + (if s.lna = 0 then 24 else 0) + if s.mixer = 0 then 19 else 0

/-- The mixbuffer is reduced when the amplifier is, so that it can stand in for it. -/
def StandsIn (s : Stages) : Prop := s.mixbuffer = 0 ↔ s.lna = 0

/-- **The total does not depend on the band**, away from the first AM input. -/
theorem msisdrGetTunerGain_eq {p : MsisdrDev} (other : p.band ≠ .am1)
    (standsIn : StandsIn p.stages) :
    msisdrGetTunerGain p = if p.gain < 0 then -1 else stagesTotal p.stages := by
  have same : p.gainReductionMixbuffer = 0 ↔ p.gainReductionLna = 0 := standsIn
  have stages : stageGain p = stagesTotal p.stages := by
    unfold stageGain
    cases band : p.band with
    | am1 => exact absurd band other
    | am2 =>
        dsimp only
        rw [if_congr same rfl rfl]
        rfl
    | vhf | band3 | band45 | l => rfl
  rw [msisdrGetTunerGain, stages]

/-- **A request is split so that the stages add up to it.** -/
theorem ofGain_booked (gain : ℤ) : stagesTotal (.ofGain gain) = gain ∧
    (Stages.ofGain gain).gain = gain ∧ StandsIn (.ofGain gain) := by
  unfold Stages.ofGain
  split
  · refine ⟨?_, rfl, iff_of_true rfl rfl⟩
    show 59 - (59 - (gain - 43)) + 24 + 19 = gain
    omega
  · split
    · refine ⟨?_, rfl, iff_of_false (show ¬ (3 : ℤ) = 0 by decide) (show ¬ (1 : ℤ) = 0 by decide)⟩
      show 59 - (59 - (gain - 19)) + 0 + 19 = gain
      omega
    · refine ⟨?_, rfl, iff_of_false (show ¬ (3 : ℤ) = 0 by decide) (show ¬ (1 : ℤ) = 0 by decide)⟩
      show 59 - (59 - gain) + 0 + 0 = gain
      omega

theorem request_standsIn {s : Stages} (standsIn : StandsIn s) (gain : ℤ) :
    StandsIn (s.request gain) := by
  unfold Stages.request
  split
  · exact standsIn
  · exact (ofGain_booked _).2.2

theorem requests_standIn {s : Stages} (standsIn : StandsIn s) (gains : List ℤ) :
    StandsIn (gains.foldl Stages.request s) := by
  induction gains generalizing s with
  | nil => exact standsIn
  | cons gain rest ih => exact ih (request_standsIn standsIn gain)

/-- **After a request the stages add up to the last one** that was not negative. -/
theorem requests_booked (s : Stages) (gains : List ℤ) (last : ℤ) :
    (0 ≤ ((gains ++ [last]).foldl Stages.request s).gain →
      stagesTotal ((gains ++ [last]).foldl Stages.request s) =
          ((gains ++ [last]).foldl Stages.request s).gain ∧
        lastRequested (gains ++ [last]) =
          some ((gains ++ [last]).foldl Stages.request s).gain) ∧
      ((gains ++ [last]).foldl Stages.request s).gain ≤ 102 := by
  rw [lastRequested, List.foldl_append, List.foldl_append]
  simp only [List.foldl_cons, List.foldl_nil, Stages.request]
  by_cases negative : last < 0
  · rw [if_pos negative, if_pos negative]
    dsimp only
    exact ⟨fun positive => absurd negative (by omega), by omega⟩
  · rw [if_neg negative, if_neg negative]
    obtain ⟨total, same, -⟩ := ofGain_booked (min last 102)
    rw [same]
    exact ⟨fun _ => ⟨total, rfl⟩, by omega⟩

/-! ## Every sequence of events -/

/-- **The gain is booked**: the stages add up to it, it is the last one that was asked for, and no
tuning changes the total. -/
structure GainBooked (p : OpenDevice) (gains : List ℤ) : Prop where
  total : 0 ≤ p.dev.gain → msisdrGetTunerGain p.dev = p.dev.gain
  range : p.dev.gain ≤ 102
  last : 0 ≤ p.dev.gain → lastRequested gains = some p.dev.gain
  retuned : ∀ freq, msisdrGetTunerGain (tuned p freq).dev = msisdrGetTunerGain p.dev

/-- The device when the first client is served. -/
def setUp (answers : StreamAnswers) (pid : UInt16) (transfer : Transfer) : OpenDevice :=
  msisdrSetup answers.calls pid transfer

theorem setUp_band (answers : StreamAnswers) (pid : UInt16) (transfer : Transfer) :
    (setUp answers pid transfer).dev.band ≠ .am1 := by
  rw [setUp, msisdrSetup, msisdrSetHard_of_idle _ rfl]
  exact bandAfter_ne_am1 _ _ (show Band.vhf ≠ .am1 by decide)

/-- **The default gain is not booked.** A device that has just been set up says that its gain is 43,
and the stages add up to 59. -/
theorem default_gain_misbooked :
    ¬ ∀ (answers : StreamAnswers) (pid : UInt16) (transfer : Transfer) (events : List DeviceEvent),
      0 ≤ (afterEvents (setUp answers pid transfer) events).dev.gain →
      msisdrGetTunerGain (afterEvents (setUp answers pid transfer) events).dev =
        (afterEvents (setUp answers pid transfer) events).dev.gain := by
  intro booked
  have total := booked ⟨[], true, .paused⟩ 0x2500 .bulk [] (by decide)
  have differ : (59 : ℤ) = 43 := total
  exact absurd differ (by decide)

/-- **The gain is booked from the first request on, and not before.** -/
theorem gain_booked_iff (answers : StreamAnswers) (pid : UInt16) (transfer : Transfer)
    (events : List DeviceEvent) :
    GainBooked (afterEvents (setUp answers pid transfer) events) (requestedGains events) ↔
      requestedGains events ≠ [] := by
  have stages := afterEvents_stages (setUp answers pid transfer) events
  have other := afterEvents_band (setUp_band answers pid transfer) events
  have start : (setUp answers pid transfer).dev.stages = setupStages :=
    msisdrSetup_stages answers.calls pid transfer
  rw [start] at stages
  generalize afterEvents (setUp answers pid transfer) events = p at stages other ⊢
  generalize requestedGains events = gains at stages ⊢
  have standsIn : StandsIn p.dev.stages := by
    rw [stages]
    exact requests_standIn (iff_of_true rfl rfl) gains
  have reads := msisdrGetTunerGain_eq other standsIn
  have retuned : ∀ freq, msisdrGetTunerGain (tuned p freq).dev = msisdrGetTunerGain p.dev := by
    intro freq
    have same : (tuned p freq).dev.stages = p.dev.stages := rfl
    have read := msisdrGetTunerGain_eq (p := (tuned p freq).dev) (bandAfter_ne_am1 _ _ other)
      standsIn
    rw [read, same, reads]
    rfl
  constructor
  · rintro booked rfl
    have first : p.dev.stages = setupStages := stages
    have gain : p.dev.gain = 43 := congrArg Stages.gain first
    have last := booked.last (by omega)
    cases last
  · intro some
    obtain ⟨before, last, rfl⟩ := List.eq_nil_or_concat gains |>.resolve_left some
    rw [List.concat_eq_append] at stages ⊢
    have booked := requests_booked setupStages before last
    rw [← stages] at booked
    refine ⟨?_, booked.2, fun positive => (booked.1 positive).2, retuned⟩
    intro positive
    rw [reads, if_neg (Int.not_lt.mpr positive)]
    exact (booked.1 positive).1

end MsiSdrDriver.Server
