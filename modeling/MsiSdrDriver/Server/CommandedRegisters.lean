import MsiSdrDriver.Driver.BiasLine
import MsiSdrDriver.Driver.FailedSetters
import MsiSdrDriver.Driver.SampleClock
import MsiSdrDriver.Server.GainTotal
import MsiSdrDriver.Server.TunedAsAsked

/-!
# The registers while the stream runs

The commands of a client arrive while the stream runs, and the threads of the stream change its
status in between. Tuning and gain do not look at the stream. The sample rate does: the stream is
paused round the change, and where it cannot be paused the rate is recorded and nothing is written.

So the tuner always does what is recorded, and the converters run at the last rate that was
accepted, which is not the recorded one after a refusal (`commanded_registers`).
-/

set_option autoImplicit false

namespace MsiSdrDriver.Server

open MsiSdrDriver.Driver
open MsiSdrDriver.Foundations

/-! ## Calls on the stream write no register -/

/-- Every register holds what it held. -/
structure SameWords (p q : OpenDevice) : Prop where
  chip : q.chip = p.chip
  tuner : q.tuner = p.tuner

theorem SameWords.of_sent {p q : OpenDevice} (sent : q.sent = p.sent) : SameWords p q where
  chip := OpenDevice.chip_of_sent sent
  tuner := OpenDevice.tuner_of_sent sent

/-- A transfer that is no write of a register. -/
theorem SameWords.of_request {p q : OpenDevice} {transfer : CtrlTransfer}
    (sent : q.sent = p.sent ++ [transfer]) (other : transfer.request ≠ cmdWreg) :
    SameWords p q where
  chip := by
    have none : transfer.chipTarget = none := if_neg other
    funext k
    rw [OpenDevice.chip, sent, lastWrite_concat, none]
    rfl
  tuner := by
    have none : transfer.tunerTarget = none := if_neg fun both => other both.1
    funext k
    rw [OpenDevice.tuner, sent, lastWrite_concat, none]
    rfl

theorem stopAsync_words (rounds : List StopRound) (p : OpenDevice) :
    SameWords p (msisdrStopAsync rounds p).1 := by
  have looped := stopLoop_sent p rounds
  rw [msisdrStopAsync]
  split
  · exact .of_sent rfl
  · generalize stopLoop p rounds = result at looped ⊢
    obtain ⟨q, finished⟩ := result
    have looped : q.sent = p.sent := looped
    cases finished with
    | false => exact .of_sent looped
    | true =>
        dsimp only
        split
        · exact .of_sent looped
        · refine .of_request (congrArg (· ++ _) looped) ?_
          show cmdStopStreaming ≠ cmdWreg
          decide

theorem startAsync_words (submitted : Bool) (startStatus : AsyncStatus) (p : OpenDevice) :
    SameWords p (msisdrStartAsync submitted startStatus p).1 := by
  rw [msisdrStartAsync]
  split
  · exact .of_sent rfl
  · dsimp only
    split
    · exact .of_sent rfl
    · split
      · exact .of_sent rfl
      · refine .of_request rfl ?_
        show cmdStartStreaming ≠ cmdWreg
        decide

/-! ## What stays with the words -/

theorem SameWords.soft {p q : OpenDevice} (words : SameWords p q) (coherent : SoftCoherent p)
    (fields : softFields q.dev = softFields p.dev) : SoftCoherent q := by
  obtain ⟨reg0, reg2, reg3, reg5, regd, reg8⟩ := softWords_of_fields fields
  constructor
  · rw [words.tuner, coherent.tuner0, reg0]
  · rw [words.tuner, coherent.tuner2, reg2]
  · rw [words.tuner, coherent.tuner3, reg3]
  · rw [words.tuner, coherent.tuner5, reg5]
  · rw [words.tuner, coherent.tunerd, regd]
  · rw [words.chip, coherent.chip8, reg8]

theorem SameWords.gain {p q : OpenDevice} (words : SameWords p q) (coherent : GainCoherent p)
    (fields : gainFields q.dev = gainFields p.dev) : GainCoherent q := by
  constructor
  rw [words.tuner, coherent.tuner1, gainReg1_of_fields fields]

/-- The tuner does what is recorded. -/
structure Tuned (p : OpenDevice) : Prop extends SoftCoherent p, GainCoherent p where
  plan : PlanStored p.dev

theorem Tuned.of_words {p q : OpenDevice} (tuned : Tuned p) (words : SameWords p q)
    (same : SameConfig p.dev q.dev) : Tuned q where
  toSoftCoherent := words.soft tuned.toSoftCoherent (by rw [same]; rfl)
  toGainCoherent := words.gain tuned.toGainCoherent (by rw [same]; rfl)
  plan := tuned.plan.of_fields (by rw [same]; rfl) same.band

/-- The words of the converters may change. -/
theorem Tuned.programHard {p : OpenDevice} (tuned : Tuned p) : Tuned (programHard p) where
  toSoftCoherent := programHard_soft tuned.toSoftCoherent
  toGainCoherent := programHard_gain tuned.toGainCoherent
  plan := tuned.plan.of_fields rfl rfl

theorem Tuned.adcStop {p : OpenDevice} (tuned : Tuned p) : Tuned (msisdrAdcStop p) := by
  have tuner : (msisdrAdcStop p).tuner = p.tuner := by
    funext k
    simp [msisdrAdcStop]
  have chip8 : (msisdrAdcStop p).chip 8 = p.chip 8 := by simp [msisdrAdcStop]
  refine ⟨⟨?_, ?_, ?_, ?_, ?_, ?_⟩, ⟨?_⟩, tuned.plan⟩
  · exact (congrFun tuner _).trans tuned.tuner0
  · exact (congrFun tuner _).trans tuned.tuner2
  · exact (congrFun tuner _).trans tuned.tuner3
  · exact (congrFun tuner _).trans tuned.tuner5
  · exact (congrFun tuner _).trans tuned.tunerd
  · exact chip8.trans tuned.chip8
  · exact (congrFun tuner _).trans tuned.tuner1

/-! ## `msisdr_set_hard` on a running stream -/

/-- **`msisdr_set_hard` leaves the tuner alone**, whatever becomes of the stream. -/
theorem msisdrSetHard_tuned (answers : StreamAnswers) {p : OpenDevice} (tuned : Tuned p) :
    Tuned (msisdrSetHard answers.calls p).1 := by
  have stopped := tuned.of_words (stopAsync_words answers.rounds p)
    (msisdrStopAsync_config answers.rounds p)
  have started := fun q (tuned : Tuned q) =>
    tuned.of_words (startAsync_words answers.submitted answers.startStatus q)
      (msisdrStartAsync_config answers.submitted answers.startStatus q)
  unfold msisdrSetHard
  split
  · dsimp only [StreamAnswers.calls]
    split
    · exact stopped
    · have restarted := started _ stopped.adcStop.programHard
      split
      · exact restarted
      · exact restarted
  · exact tuned.programHard

/-- What it stores where the stream can be paused. -/
theorem msisdrSetHard_stores (answers : StreamAnswers) {p : OpenDevice}
    (pauses : ¬ StopFails answers p) :
    SameConfig (limitHard p.dev) (msisdrSetHard answers.calls p).1.dev ∧
      HardCoherent (msisdrSetHard answers.calls p).1 := by
  have accepted : p.dev.asyncStatus = .running → 0 ≤ (msisdrStopAsync answers.rounds p).2 := by
    intro running
    by_contra fails
    exact pauses ⟨running, Int.not_le.mp fails⟩
  refine ⟨?_, (msisdrSetHard_reprograms answers p accepted).2⟩
  have stop := msisdrStopAsync_config answers.rounds p
  have start := fun q => msisdrStartAsync_config answers.submitted answers.startStatus q
  unfold msisdrSetHard
  split
  · next running =>
      dsimp only [StreamAnswers.calls]
      rw [if_neg (Int.not_lt.mpr (accepted running))]
      have limits : SameConfig (limitHard p.dev)
          (Driver.programHard (msisdrAdcStop (msisdrStopAsync answers.rounds p).1)).dev := by
        show SameConfig (limitHard p.dev) (limitHard (msisdrStopAsync answers.rounds p).1.dev)
        rw [stop]
        rfl
      have restarted := limits.trans (start _)
      split
      · exact restarted
      · exact restarted
  · exact .refl _

/-! ## What the converters hold -/

/-- The configuration of the converters for a rate that was asked for, where the format is chosen
automatically. -/
def clocked (p : MsisdrDev) (asked : UInt32) : MsisdrDev :=
  { p with rate := limitRate asked, format := autoFormat (limitRate asked) }

/-- The registers of the converters hold the encoding of a rate that was asked for. -/
def HoldsClock (p : OpenDevice) (asked : UInt32) : Prop :=
  HardCoherent ⟨clocked p.dev asked, p.sent⟩

theorem HoldsClock.congr {p q : OpenDevice} {asked : UInt32} (holds : HoldsClock p asked)
    (chip3 : q.chip 3 = p.chip 3) (chip4 : q.chip 4 = p.chip 4) (chip7 : q.chip 7 = p.chip 7) :
    HoldsClock q asked where
  chip3 := chip3.trans holds.chip3
  chip4 := chip4.trans holds.chip4
  chip7 := chip7.trans holds.chip7

theorem HoldsClock.of_words {p q : OpenDevice} {asked : UInt32} (holds : HoldsClock p asked)
    (words : SameWords p q) : HoldsClock q asked :=
  holds.congr (congrFun words.chip _) (congrFun words.chip _) (congrFun words.chip _)

/-- `msisdr_set_soft` and `msisdr_set_gain` write other registers. -/
theorem HoldsClock.softAndGain {p : OpenDevice} {asked : UInt32} (holds : HoldsClock p asked)
    (dev : MsisdrDev) : HoldsClock (softAndGain { p with dev := dev }).1 asked := by
  refine holds.congr ?_ ?_ ?_
  · simp [Driver.softAndGain, msisdrSetGain, msisdrSetSoft, updateReg8]
  · simp [Driver.softAndGain, msisdrSetGain, msisdrSetSoft, updateReg8]
  · simp [Driver.softAndGain, msisdrSetGain, msisdrSetSoft, updateReg8]

/-! ## One command -/

/-- The device while clients are served; `asked` is the last sample rate that was accepted. -/
structure Commanded (p : OpenDevice) (asked : UInt32) : Prop extends Tuned p where
  clock : HoldsClock p asked
  auto : p.dev.formatAuto = .on
  format : p.dev.format = autoFormat (limitRate asked)

instance (answers : StreamAnswers) (p : OpenDevice) : Decidable (StopFails answers p) :=
  inferInstanceAs (Decidable (_ ∧ _))

/-- The last sample rate that was accepted, after an event. -/
def acceptedAfter (p : OpenDevice) (asked : UInt32) : DeviceEvent → UInt32
  | .command cmd answers =>
      if cmd.tcpCommand = .setSampleRate ∧ ¬ StopFails answers p then cmd.parameter else asked
  | .stream _ _ _ => asked

/-- The last sample rate that was accepted, after a sequence of events. -/
def acceptedRate (p : OpenDevice) (asked : UInt32) : List DeviceEvent → UInt32
  | [] => asked
  | event :: rest => acceptedRate (afterEvent p event) (acceptedAfter p asked event) rest

/-- Retuning does not look at the stream. -/
theorem Commanded.retune {p : OpenDevice} {asked : UInt32} (commanded : Commanded p asked)
    (dev : MsisdrDev) (auto : dev.formatAuto = p.dev.formatAuto)
    (format : dev.format = p.dev.format) :
    Commanded (softAndGain { p with dev := dev }).1 asked where
  toSoftCoherent := msisdrSetGain_soft (msisdrSetSoft_soft _)
  toGainCoherent := msisdrSetGain_gain _
  plan := msisdrSetSoft_plan _
  clock := commanded.clock.softAndGain dev
  auto := auto.trans commanded.auto
  format := format.trans commanded.format

theorem Commanded.offsetTuning {p : OpenDevice} {asked : UInt32} (commanded : Commanded p asked)
    (on : ℤ) : Commanded (msisdrSetOffsetTuning p on).1 asked where
  toSoftCoherent := msisdrSetSoft_soft _
  toGainCoherent :=
    msisdrSetSoft_gain (commanded.toGainCoherent.of_fields rfl rfl) commanded.plan.band
  plan := msisdrSetSoft_plan _
  clock := by
    refine commanded.clock.congr ?_ ?_ ?_
    · simp [msisdrSetOffsetTuning, msisdrSetSoft, updateReg8]
    · simp [msisdrSetOffsetTuning, msisdrSetSoft, updateReg8]
    · simp [msisdrSetOffsetTuning, msisdrSetSoft, updateReg8]
  auto := commanded.auto
  format := commanded.format

/-- The gain reductions may change before `msisdr_set_gain`. -/
theorem Commanded.regain {p : OpenDevice} {asked : UInt32} (commanded : Commanded p asked)
    (dev : MsisdrDev) (soft : softFields dev = softFields p.dev) (band : dev.band = p.dev.band)
    (auto : dev.formatAuto = p.dev.formatAuto) (format : dev.format = p.dev.format) :
    Commanded (msisdrSetGain { p with dev := dev }).1 asked where
  toSoftCoherent := msisdrSetGain_soft (commanded.toSoftCoherent.of_fields rfl soft)
  toGainCoherent := msisdrSetGain_gain _
  plan := commanded.plan.of_fields soft band
  clock := by
    refine commanded.clock.congr ?_ ?_ ?_
    · simp [msisdrSetGain]
    · simp [msisdrSetGain]
    · simp [msisdrSetGain]
  auto := auto.trans commanded.auto
  format := format.trans commanded.format

theorem tunerGainReductions_format (p : MsisdrDev) :
    (tunerGainReductions p).formatAuto = p.formatAuto ∧
      (tunerGainReductions p).format = p.format := by
  rw [tunerGainReductions]
  split_ifs
  · exact ⟨rfl, rfl⟩
  · exact ⟨rfl, rfl⟩
  · exact ⟨rfl, rfl⟩

theorem Commanded.tunerGain {p : OpenDevice} {asked : UInt32} (commanded : Commanded p asked)
    (gain : ℤ) : Commanded (msisdrSetTunerGain p gain).1 asked := by
  rw [msisdrSetTunerGain]
  split_ifs
  · obtain ⟨soft, -, band, -⟩ := tunerGainReductions_same { p.dev with gain := 102 }
    obtain ⟨auto, format⟩ := tunerGainReductions_format { p.dev with gain := 102 }
    exact commanded.regain _ soft band auto format
  · exact
      { toSoftCoherent := commanded.toSoftCoherent.of_fields rfl rfl
        toGainCoherent := commanded.toGainCoherent.of_fields rfl rfl
        plan := commanded.plan.of_fields rfl rfl
        clock := commanded.clock.congr rfl rfl rfl
        auto := commanded.auto
        format := commanded.format }
  · obtain ⟨soft, -, band, -⟩ := tunerGainReductions_same { p.dev with gain := gain }
    obtain ⟨auto, format⟩ := tunerGainReductions_format { p.dev with gain := gain }
    exact commanded.regain _ soft band auto format

/-- **The sample rate**, whether or not the stream can be paused for it. -/
theorem Commanded.sampleRate {p : OpenDevice} {asked : UInt32} (commanded : Commanded p asked)
    (answers : StreamAnswers) (rate : UInt32) :
    Commanded (msisdrSetSampleRate answers.calls p rate).1
      (if ¬ StopFails answers p then rate else asked) := by
  have status : ({ p.dev with rate := rate }).asyncStatus = p.dev.asyncStatus := rfl
  have tuned : Tuned { p with dev := { p.dev with rate := rate } } :=
    ⟨commanded.toSoftCoherent.of_fields rfl rfl, commanded.toGainCoherent.of_fields rfl rfl,
      commanded.plan.of_fields rfl rfl⟩
  have stays := msisdrSetHard_tuned answers tuned
  rw [msisdrSetSampleRate]
  split
  · next pauses =>
      have pauses : ¬ StopFails answers { p with dev := { p.dev with rate := rate } } := by
        rintro ⟨running, fails⟩
        have same := msisdrStopAsync_congr (q := { p with dev := { p.dev with rate := rate } })
          status answers.rounds
        exact pauses ⟨running, same ▸ fails⟩
      obtain ⟨stored, coherent⟩ := msisdrSetHard_stores answers pauses
      generalize (msisdrSetHard answers.calls _).1 = q at stays stored coherent ⊢
      have auto : (limitHard { p.dev with rate := rate }).format =
          autoFormat (limitRate rate) := if_pos commanded.auto
      have format : q.dev.format = autoFormat (limitRate rate) := by
        rw [stored]
        exact auto
      have clockRate : q.dev.rate = limitRate rate := by
        rw [stored]
        rfl
      refine ⟨stays, ?_, ?_, format⟩
      · refine coherent.of_fields rfl ?_
        show (limitRate rate, autoFormat (limitRate rate)) = (q.dev.rate, q.dev.format)
        rw [clockRate, format]
      · rw [stored]
        exact commanded.auto
  · next refused =>
      obtain ⟨stored, sent⟩ := msisdrSetHard_gives_up answers
        (q := { p with dev := { p.dev with rate := rate } }) (not_not.mp refused) status
      generalize (msisdrSetHard answers.calls _).1 = q at stays stored sent ⊢
      refine ⟨stays, ?_, ?_, ?_⟩
      · exact commanded.clock.of_words (.of_sent sent)
      · rw [stored]
        exact commanded.auto
      · rw [stored]
        exact commanded.format

/-- **One command.** -/
theorem Commanded.command {p : OpenDevice} {asked : UInt32} (commanded : Commanded p asked)
    (cmd : SdrTcpCommand) (answers : StreamAnswers) :
    Commanded (commandDevice answers p cmd) (acceptedAfter p asked (.command cmd answers)) := by
  have other : cmd.tcpCommand ≠ .setSampleRate →
      acceptedAfter p asked (.command cmd answers) = asked := fun other => if_neg (other ·.1)
  unfold commandDevice
  cases kind : cmd.tcpCommand with
  | setSampleRate =>
      have accepted := commanded.sampleRate answers cmd.parameter
      simp only [acceptedAfter, kind, true_and]
      exact accepted
  | setFreq =>
      rw [other (by simp [kind])]
      exact commanded.retune _ rfl rfl
  | setOffsetTuning =>
      rw [other (by simp [kind])]
      exact commanded.offsetTuning _
  | setGain | androidGainByPercentage =>
      rw [other (by simp [kind])]
      exact commanded.tunerGain _
  | setTunerGainById =>
      rw [other (by simp [kind])]
      simp only [setGainByIndex]
      split
      · exact commanded.tunerGain _
      · exact commanded
  | setGainMode | setFreqCorrection | androidExit | androidEnable16BitSigned
  | androidEnableDcCorrection | default =>
      rw [other (by simp [kind])]
      exact commanded

theorem Commanded.event {p : OpenDevice} {asked : UInt32} (commanded : Commanded p asked)
    (event : DeviceEvent) : Commanded (afterEvent p event) (acceptedAfter p asked event) := by
  cases event with
  | command cmd answers => exact commanded.command cmd answers
  | stream asyncStatus addr transfer =>
      exact
        { toSoftCoherent := commanded.toSoftCoherent.of_fields rfl rfl
          toGainCoherent := commanded.toGainCoherent.of_fields rfl rfl
          plan := commanded.plan.of_fields rfl rfl
          clock := commanded.clock.congr rfl rfl rfl
          auto := commanded.auto
          format := commanded.format }

/-! ## Every sequence of events -/

theorem Commanded.events {p : OpenDevice} {asked : UInt32} (commanded : Commanded p asked)
    (events : List DeviceEvent) :
    Commanded (afterEvents p events) (acceptedRate p asked events) := by
  induction events generalizing p asked with
  | nil => exact commanded
  | cons event rest ih => exact ih (commanded.event event)

theorem setUp_rate (answers : StreamAnswers) (pid : UInt16) (transfer : Transfer) :
    (setUp answers pid transfer).dev.rate = limitRate 2000000 := by
  rw [setUp, msisdrSetup, msisdrSetHard_of_idle _ rfl]
  rfl

/-- The device when the first client is served runs at the default rate. -/
theorem setUp_commanded (answers : StreamAnswers) (pid : UInt16) (transfer : Transfer) :
    Commanded (setUp answers pid transfer) 2000000 := by
  have programmed := msisdrSetup_programmed answers.calls pid transfer
  have rate := setUp_rate answers pid transfer
  have format : (setUp answers pid transfer).dev.format = autoFormat (limitRate 2000000) := by
    rw [setUp, msisdrSetup, msisdrSetHard_of_idle _ rfl]
    rfl
  have auto : (setUp answers pid transfer).dev.formatAuto = .on := by
    rw [setUp, msisdrSetup, msisdrSetHard_of_idle _ rfl]
    rfl
  refine ⟨⟨programmed.toSoftCoherent, programmed.toGainCoherent, programmed.plan⟩, ?_, auto,
    format⟩
  refine programmed.toHardCoherent.of_fields rfl ?_
  exact Prod.ext rate.symm format.symm

/-- **The hardware does what the commands have asked for**, the last sample rate that was accepted
among them. -/
structure FollowsCommands (asked : UInt32) (p : OpenDevice) : Prop extends
    SoftCoherent p, GainCoherent p where
  /-- the converters run at the rate that was accepted, limited to its range -/
  clock : ∃ reg3 reg4, p.chip 3 = some reg3 ∧ p.chip 4 = some reg4 ∧
    decodedRate reg3.toNat reg4.toNat ≤ (limitRate asked).toNat ∧
    (limitRate asked).toNat - 1 / 2 < decodedRate reg3.toNat reg4.toNat
  /-- in the format that is chosen for it -/
  format : p.chip 7 = some ((formatWord (autoFormat (limitRate asked))).setWidth 24)
  /-- where this is the rate that is recorded, every register holds what is recorded -/
  whole : p.dev.rate = limitRate asked → RegistersCoherent p

/-- **The registers while clients are served** follow what has been asked for. -/
theorem Commanded.follows {p : OpenDevice} {asked : UInt32} (commanded : Commanded p asked) :
    FollowsCommands asked p := by
  have range := limitRate_toNat asked
  obtain ⟨below, above⟩ := decodedRate_bounds (p := clocked p.dev asked)
    (show 1300000 ≤ (limitRate asked).toNat by omega)
    (show (limitRate asked).toNat ≤ 15000000 by omega)
  refine ⟨commanded.toSoftCoherent, commanded.toGainCoherent,
    ⟨_, _, commanded.clock.chip3, commanded.clock.chip4, below, above⟩, commanded.clock.chip7,
    fun recorded => ⟨commanded.toSoftCoherent, commanded.toGainCoherent, ?_⟩⟩
  refine commanded.clock.of_fields rfl ?_
  show (p.dev.rate, p.dev.format) = (limitRate asked, autoFormat (limitRate asked))
  rw [recorded, commanded.format]

/-! ## What `openAsync` leaves -/

theorem limitRate_limitRate (rate : UInt32) : limitRate (limitRate rate) = limitRate rate := by
  have once := limitRate_toNat rate
  have twice := limitRate_toNat (limitRate rate)
  exact UInt32.toNat_inj.mp (by omega)

/-- The words of the converters are written again for the rate that is recorded. -/
theorem Commanded.reprogram {p : OpenDevice} {asked : UInt32} (commanded : Commanded p asked)
    (recorded : p.dev.rate = limitRate asked) : Commanded (programHard p) asked := by
  have rate : (limitHard p.dev).rate = limitRate asked := by
    show limitRate p.dev.rate = limitRate asked
    rw [recorded, limitRate_limitRate]
  have format : (limitHard p.dev).format = autoFormat (limitRate asked) := by
    show (if p.dev.formatAuto = .on then autoFormat (limitRate p.dev.rate) else _) = _
    rw [if_pos commanded.auto, recorded, limitRate_limitRate]
  exact ⟨commanded.toTuned.programHard,
    (programHard_hard p).of_fields rfl (Prod.ext rate.symm format.symm), commanded.auto, format⟩

/-- The device when `openAsync` comes to the sample rate. -/
def beforeRate (answers : StreamAnswers) (device : OpenDevice) : OpenDevice :=
  (msisdrSetBandwidth (msisdrSetIfFreq (msisdrSetSampleFormat answers.calls device "AUTO").1
    0).1 8000000).1

/-- **What `openAsync` leaves behind it** when it succeeds. -/
theorem openAsync_ok {answers : StreamAnswers} {device opened : OpenDevice} {args : OpenArgs}
    (inactive : device.dev.asyncStatus = .inactive)
    (accepted : openAsync answers device args = .ok opened) :
    opened = openGain (tuned
      (msisdrSetSampleRate answers.calls (beforeRate answers device) (asUInt32 args.samplingrate)).1
      (asUInt32 args.frequency)) args.gain := by
  have quiet : (beforeRate answers device).dev.asyncStatus = .inactive :=
    beforeRate_asyncStatus answers inactive
  have rated : (msisdrSetSampleRate answers.calls (beforeRate answers device)
      (asUInt32 args.samplingrate)).1 = programHard { beforeRate answers device with
        dev := { (beforeRate answers device).dev with rate := asUInt32 args.samplingrate } } := by
    rw [msisdrSetSampleRate, msisdrSetHard_of_idle]
    exact quiet
  rcases openAsync_cases answers args inactive with ⟨-, refused⟩ | ⟨rate, frequency, -⟩
  · rw [accepted] at refused
    cases refused
  · unfold openAsync at accepted
    simp only [msisdrSetFreqCorrection, apply_ite Prod.fst, ite_self, openFrequency_eq] at accepted
    rw [← beforeRate, openSampleRate_of_inactive answers args.samplingrate quiet, if_neg rate]
      at accepted
    simp only [if_neg frequency] at accepted
    have idle : (programHard { beforeRate answers device with
        dev := { (beforeRate answers device).dev with
          rate := asUInt32 args.samplingrate } }).dev.asyncStatus = .inactive := quiet
    rw [rated, ← Except.ok.inj accepted]
    exact openEnd_of_inactive answers args.gain idle

theorem Commanded.openGain {p : OpenDevice} {asked : UInt32} (commanded : Commanded p asked)
    (gain : Int32) : Commanded (openGain p gain) asked := by
  rw [Server.openGain]
  split
  · exact commanded
  · exact Commanded.tunerGain commanded _

theorem Commanded.centerFreq {p : OpenDevice} {asked : UInt32} (commanded : Commanded p asked)
    (freq : UInt32) : Commanded (tuned p freq) asked :=
  commanded.retune { p.dev with freq := freq } rfl rfl

theorem Commanded.ifFreq {p : OpenDevice} {asked : UInt32} (commanded : Commanded p asked)
    (freq : UInt32) : Commanded (msisdrSetIfFreq p freq).1 asked := by
  rw [msisdrSetIfFreq]
  split
  · next ifFreq _ => exact commanded.retune { p.dev with ifFreq := ifFreq } rfl rfl
  · exact commanded

theorem Commanded.bandwidth {p : OpenDevice} {asked : UInt32} (commanded : Commanded p asked)
    (bw : UInt32) : Commanded (msisdrSetBandwidth p bw).1 asked :=
  commanded.retune
    { p.dev with bandwidth := bandwidthOf bw, ifFreq := bandwidthIfFreq p.dev bw } rfl rfl

/-- **What `openAsync` was called with is followed**, from a device that follows what was asked for
before. -/
theorem openAsync_commanded {answers : StreamAnswers} {device opened : OpenDevice}
    {args : OpenArgs} {asked : UInt32} (commanded : Commanded device asked)
    (recorded : device.dev.rate = limitRate asked)
    (inactive : device.dev.asyncStatus = .inactive)
    (accepted : openAsync answers device args = .ok opened) :
    Commanded opened (asUInt32 args.samplingrate) := by
  have quiet : (beforeRate answers device).dev.asyncStatus = .inactive :=
    beforeRate_asyncStatus answers inactive
  have automatic : { device.dev with formatAuto := .on } = device.dev := by
    rw [← commanded.auto]
  have formatted : (msisdrSetSampleFormat answers.calls device "AUTO").1 = programHard device := by
    rw [msisdrSetSampleFormat, if_pos rfl, automatic, msisdrSetHard_of_idle]
    exact inactive
  have before : Commanded (beforeRate answers device) asked := by
    rw [beforeRate, formatted]
    exact ((commanded.reprogram recorded).ifFreq 0).bandwidth 8000000
  have pauses : ¬ StopFails answers (beforeRate answers device) := by
    rintro ⟨running, -⟩
    rw [quiet] at running
    cases running
  have rated := before.sampleRate answers (asUInt32 args.samplingrate)
  rw [if_pos pauses] at rated
  rw [openAsync_ok inactive accepted]
  exact (rated.centerFreq (asUInt32 args.frequency)).openGain args.gain

/-! ## What decides the tuning -/

/-- The tuner stands for the frequency that is recorded. -/
theorem Tuned.decodedLo {p : OpenDevice} (coherent : Tuned p) :
    decodedLo p.tuner = decodedLo (tuned p p.dev.freq).tuner := by
  have again : SoftCoherent (tuned p p.dev.freq) := msisdrSetGain_soft (msisdrSetSoft_soft p)
  have fields : softFields (tuned p p.dev.freq).dev = softFields p.dev := by
    have reg8 : (tuned p p.dev.freq).dev.reg8 = p.dev.reg8 := coherent.plan.switches
    simp only [softFields, reg8]
    rfl
  obtain ⟨reg0, reg2, reg3, reg5, -, -⟩ := softWords_of_fields fields
  simp only [Driver.decodedLo, coherent.tuner0, coherent.tuner2, coherent.tuner3, coherent.tuner5,
    again.tuner0, again.tuner2, again.tuner3, again.tuner5, reg0, reg2, reg3, reg5]

/-- The frequency that an event asks for. -/
def DeviceEvent.requestedFrequency : DeviceEvent → Option UInt32
  | .command cmd _ => if cmd.tcpCommand = .setFreq then some cmd.parameter else none
  | .stream _ _ _ => none

/-- The last frequency that was asked for. -/
def lastFrequency (freq : UInt32) (events : List DeviceEvent) : UInt32 :=
  events.foldl (fun freq event => event.requestedFrequency.getD freq) freq

theorem setHard_tuning (answers : StreamAnswers) (p : OpenDevice) :
    (msisdrSetHard answers.calls p).1.dev.tuning = p.dev.tuning := by
  by_cases fails : StopFails answers p
  · rw [(msisdrSetHard_gives_up answers fails rfl).1]
    rfl
  · rw [(msisdrSetHard_stores answers fails).1]
    rfl

theorem tunerGain_tuning (p : OpenDevice) (gain : ℤ) :
    (msisdrSetTunerGain p gain).1.dev.tuning = p.dev.tuning := by
  rw [msisdrSetTunerGain]
  split_ifs
  · exact tuning_of_softFields (tunerGainReductions_same _).1
  · rfl
  · exact tuning_of_softFields (tunerGainReductions_same _).1

theorem openGain_tuning (p : OpenDevice) (gain : Int32) :
    (openGain p gain).dev.tuning = p.dev.tuning := by
  rw [openGain]
  split
  · rfl
  · exact tunerGain_tuning _ _

theorem openAsync_tuning {answers : StreamAnswers} {device opened : OpenDevice} {args : OpenArgs}
    (inactive : device.dev.asyncStatus = .inactive)
    (accepted : openAsync answers device args = .ok opened) :
    opened.dev.tuning = { device.dev.tuning with freq := asUInt32 args.frequency } := by
  have formatted : (msisdrSetSampleFormat answers.calls device "AUTO").1.dev.tuning =
      device.dev.tuning := setHard_tuning answers _
  have before : (beforeRate answers device).dev.tuning = device.dev.tuning := formatted
  have rated : (msisdrSetSampleRate answers.calls (beforeRate answers device)
      (asUInt32 args.samplingrate)).1.dev.tuning = device.dev.tuning :=
    (setHard_tuning answers _).trans before
  rw [openAsync_ok inactive accepted, openGain_tuning, ← rated]
  rfl

/-- **Only a frequency changes the tuning.** -/
theorem afterEvent_tuning (p : OpenDevice) (event : DeviceEvent) :
    (afterEvent p event).dev.tuning =
      { p.dev.tuning with freq := event.requestedFrequency.getD p.dev.freq } := by
  cases event with
  | stream asyncStatus addr transfer => rfl
  | command cmd answers =>
      simp only [afterEvent, DeviceEvent.requestedFrequency, commandDevice]
      cases cmd.tcpCommand with
      | setFreq => rfl
      | setSampleRate => exact setHard_tuning answers _
      | setGain | androidGainByPercentage => exact tunerGain_tuning p _
      | setTunerGainById =>
          simp only [setGainByIndex]
          split
          · exact tunerGain_tuning p _
          · rfl
      | setOffsetTuning | setGainMode | setFreqCorrection | androidExit | androidEnable16BitSigned
      | androidEnableDcCorrection | default => rfl

theorem afterEvents_tuning (p : OpenDevice) (events : List DeviceEvent) :
    (afterEvents p events).dev.tuning =
      { p.dev.tuning with freq := lastFrequency p.dev.freq events } := by
  induction events generalizing p with
  | nil => rfl
  | cons event rest ih =>
      have first := afterEvent_tuning p event
      have freq : (afterEvent p event).dev.freq = event.requestedFrequency.getD p.dev.freq :=
        congrArg Tuning.freq first
      refine (ih (afterEvent p event)).trans ?_
      rw [first, freq]
      rfl

/-- **The line of the bias tee** follows the tuning where the tuner does. -/
theorem Tuned.biasLine_iff {p : OpenDevice} (coherent : Tuned p) :
    p.BiasLine ↔ p.dev.bias ≠ 0 ∨ p.dev.hwFlavour = .hwDefault ∧ DrivesBias p.dev.freq := by
  rw [← bandSelectWord_bias_iff, coherent.plan.switches, OpenDevice.BiasLine, coherent.chip8]
  by_cases bias : p.dev.bias = 0
  · simp [reg8Word, bias, biasGpio]
  · simp [reg8Word, bias, biasGpio]

end MsiSdrDriver.Server
