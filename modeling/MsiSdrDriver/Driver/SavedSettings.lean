import MsiSdrDriver.Driver.BandwidthHistory
import MsiSdrDriver.Driver.BiasLine
import MsiSdrDriver.Driver.GainWord
import MsiSdrDriver.Driver.SampleClock
import MsiSdrDriver.Driver.TuningHistory

/-!
# What the getters save

A program that uses `libmsisdr` can ask a device for its settings, and give the answers to the
setters of another device. `Settings` is the configuration as the calls see it, and every setter has
its effect on it (`callSetter_settings`).

Whatever calls the two devices have had before, the second one then answers every getter as the
first one did, and its registers hold the same words, with one exception. There is no setter for the
band. Where the frequency is in the row of the plan that stands for no band, the second device keeps
the band that it has, and `settings_restored_iff` says exactly when that is the right one. The
flavour has a setter but no getter, so the program has to know it.
-/

set_option autoImplicit false

namespace MsiSdrDriver.Driver

/-! ## The getters -/

/-- `msisdr_get_center_freq`. -/
def msisdrGetCenterFreq (p : MsisdrDev) : UInt32 := p.freq

/-- `msisdr_get_if_freq`. -/
def msisdrGetIfFreq (p : MsisdrDev) : UInt32 :=
  match p.ifFreq with
  | .zero => 0
  | .if450kHz => 450000
  | .if1620kHz => 1620000
  | .if2048kHz => 2048000

/-- `msisdr_get_xtal_freq`. -/
def msisdrGetXtalFreq (p : MsisdrDev) : UInt32 :=
  match p.xtal with
  | .xtal19M2 => 19200000
  | .xtal22M => 22000000
  | .xtal24M | .xtal24M576 => 24000000
  | .xtal26M => 26000000
  | .xtal38M4 => 38400000

/-- `msisdr_get_bandwidth`. -/
def msisdrGetBandwidth (p : MsisdrDev) : UInt32 :=
  match p.bandwidth with
  | .bw200kHz => 200000
  | .bw300kHz => 300000
  | .bw600kHz => 600000
  | .bw1536kHz => 1536000
  | .bw5MHz => 5000000
  | .bw6MHz => 6000000
  | .bw7MHz => 7000000
  | .bw8MHz => 8000000
  | .bwMax => 14000000

/-- `msisdr_get_transfer`. -/
def msisdrGetTransfer (p : MsisdrDev) : String :=
  match p.transfer with
  | .bulk => "BULK"
  | .isoc => "ISOC"

/-- `msisdr_get_band`. -/
def msisdrGetBand (p : MsisdrDev) : Band := p.band

/-- `msisdr_get_bias`. -/
def msisdrGetBias (p : MsisdrDev) : ℤ := p.bias

/-- `msisdr_get_sample_rate`. -/
def msisdrGetSampleRate (p : MsisdrDev) : UInt32 := p.rate

/-- The name of a format. -/
def formatName : Format → String
  | .s16x252 => "252_S16"
  | .s16x336 => "336_S16"
  | .s16x384 => "384_S16"
  | .s16x504 => "504_S16"
  | .s8x504 => "504_S8"

/-- `msisdr_get_sample_format`. -/
def msisdrGetSampleFormat (p : MsisdrDev) : String :=
  if p.formatAuto = .on then "AUTO" else formatName p.format

/-- `msisdr_get_tuner_gain_mode`. -/
def msisdrGetTunerGainMode (p : MsisdrDev) : ℤ := if p.gain < 0 then 0 else 1

/-- `msisdr_get_mixer_gain`. -/
def msisdrGetMixerGain (p : MsisdrDev) : ℤ := if p.gainReductionMixer ≠ 0 then 0 else 19

/-- `msisdr_get_mixbuffer_gain`. -/
def msisdrGetMixbufferGain (p : MsisdrDev) : ℤ := 18 - 6 * p.gainReductionMixbuffer

/-- `msisdr_get_lna_gain`. -/
def msisdrGetLnaGain (p : MsisdrDev) : ℤ := if p.gainReductionLna ≠ 0 then 0 else 24

/-- `msisdr_get_baseband_gain`. -/
def msisdrGetBasebandGain (p : MsisdrDev) : ℤ := 59 - p.gainReductionBaseband

/-- The answers of all getters. -/
structure Answers where
  centerFreq : UInt32
  ifFreq : UInt32
  xtalFreq : UInt32
  bandwidth : UInt32
  transfer : String
  band : Band
  bias : ℤ
  sampleRate : UInt32
  sampleFormat : String
  tunerGain : ℤ
  tunerGainMode : ℤ
  mixerGain : ℤ
  mixbufferGain : ℤ
  lnaGain : ℤ
  basebandGain : ℤ
  deriving DecidableEq

def answers (p : MsisdrDev) : Answers where
  centerFreq := msisdrGetCenterFreq p
  ifFreq := msisdrGetIfFreq p
  xtalFreq := msisdrGetXtalFreq p
  bandwidth := msisdrGetBandwidth p
  transfer := msisdrGetTransfer p
  band := msisdrGetBand p
  bias := msisdrGetBias p
  sampleRate := msisdrGetSampleRate p
  sampleFormat := msisdrGetSampleFormat p
  tunerGain := msisdrGetTunerGain p
  tunerGainMode := msisdrGetTunerGainMode p
  mixerGain := msisdrGetMixerGain p
  mixbufferGain := msisdrGetMixbufferGain p
  lnaGain := msisdrGetLnaGain p
  basebandGain := msisdrGetBasebandGain p

/-- The calls that give the answers back but for the format. The gain is set before the stages: it
chooses them, they are then set one by one, and only its mode is kept. -/
def restoreTuner (flavour : HwFlavour) (a : Answers) : List Setter :=
  [.transfer a.transfer, .hwFlavour flavour, .sampleRate a.sampleRate, .bandwidth a.bandwidth,
    .ifFreq a.ifFreq, .bias a.bias, .centerFreq a.centerFreq,
    .tunerGain (if a.tunerGainMode = 0 then -1 else 0), .mixerGain a.mixerGain,
    .mixbufferGain a.mixbufferGain, .lnaGain a.lnaGain, .basebandGain a.basebandGain]

/-- The calls that give the answers back, each but the band to its setter. -/
def restore (flavour : HwFlavour) (a : Answers) : List Setter :=
  .sampleFormat a.sampleFormat :: restoreTuner flavour a

/-! ## The configuration as the calls see it -/

/-- The settings of a device. -/
@[ext]
structure Settings where
  tuning : Tuning
  stages : Stages
  band : Band
  ifFreq : IfFreq
  bandwidth : Bandwidth
  xtal : Xtal
  transfer : Transfer
  formatAuto : FormatAuto
  format : Format
  rate : UInt32

def MsisdrDev.settings (p : MsisdrDev) : Settings where
  tuning := p.tuning
  stages := p.stages
  band := p.band
  ifFreq := p.ifFreq
  bandwidth := p.bandwidth
  xtal := p.xtal
  transfer := p.transfer
  formatAuto := p.formatAuto
  format := p.format
  rate := p.rate

namespace Settings

/-- The clock is programmed: the rate is limited, and the format is chosen if it is automatic. -/
def clocked (s : Settings) : Settings :=
  { s with
    rate := limitRate s.rate
    format := if s.formatAuto = .on then autoFormat (limitRate s.rate) else s.format }

/-- What a setter sets, apart from the tuning, the stages and the band. -/
def assign (s : Settings) : Setter → Settings
  | .ifFreq freq => { s with ifFreq := (ifFreqOf freq).getD s.ifFreq }
  | .bandwidth bw =>
      { s with
        bandwidth := bandwidthOf bw
        ifFreq :=
          if bw ≤ 600000 then .if450kHz
          else if bw ≤ 1536000 ∧ 5000000 ≤ s.rate then .if1620kHz
          else s.ifFreq }
  | .offsetTuning on => { s with ifFreq := if on ≠ 0 then .if450kHz else .zero }
  | .transfer v =>
      { s with
        transfer := if v = "BULK" then .bulk else if v = "ISOC" then .isoc else s.transfer }
  | .sampleRate rate => clocked { s with rate := rate }
  | .sampleFormat v =>
      if v = "AUTO" then clocked { s with formatAuto := .on }
      else
        match formatOfName v with
        | some format => clocked { s with formatAuto := .off, format := format }
        | none => { s with formatAuto := .off }
  | _ => s

/-- The band that the tuning selects. -/
def select (s : Settings) : Settings :=
  { s with band := bandAfter (switchPlan s.tuning.flavour s.tuning.freq) s.band }

/-- The effect of a setter. -/
def call (s : Settings) (setter : Setter) : Settings :=
  select { s.assign setter with
    tuning := s.tuning.call setter
    stages := s.stages.call setter
    band := s.band }

/-- The rate is within the limits, and an automatic format is the one for the rate. -/
structure Clocked (s : Settings) : Prop where
  rate : limitRate s.rate = s.rate
  format : s.formatAuto = .on → s.format = autoFormat s.rate

/-- What calls preserve. -/
structure Valid (s : Settings) : Prop where
  switched : s.stages.Switched
  clock : s.Clocked
  selected : s.select = s
  xtal : s.xtal = .xtal24M

end Settings

/-! ## Every setter has its effect -/

/-- A setter of the tuner selects the band, and another one leaves it alone. -/
theorem callSetter_band (stream : StreamCalls) {p : OpenDevice} (programmed : Programmed p)
    (setter : Setter) :
    (callSetter stream p setter).1.dev.band =
      bandAfter (switchPlan (p.dev.tuning.call setter).flavour (p.dev.tuning.call setter).freq)
        p.dev.band := by
  have kept := programmed.plan.band
  cases setter with
  | centerFreq freq | bandwidth bw | offsetTuning on | hwFlavour flavour => rfl
  | ifFreq freq =>
      rw [callSetter, msisdrSetIfFreq]
      split
      · rfl
      · exact kept.symm
  | transfer v =>
      rw [callSetter, msisdrSetTransfer]
      split_ifs <;> exact kept.symm
  | tunerGain gain => exact (msisdrSetTunerGain_band p gain).trans kept.symm
  | mixbufferGain gain =>
      rw [callSetter, msisdrSetMixbufferGain]
      split <;> exact kept.symm
  | sampleRate rate =>
      rw [callSetter, msisdrSetSampleRate, msisdrSetHard_of_idle]
      · exact kept.symm
      · exact programmed.idle
  | sampleFormat v =>
      rw [callSetter, msisdrSetSampleFormat]
      split
      · rw [msisdrSetHard_of_idle]
        · exact kept.symm
        · exact programmed.idle
      · split
        · rw [msisdrSetHard_of_idle]
          · exact kept.symm
          · exact programmed.idle
        · exact kept.symm
  | xtalFreq freq | freqCorrection ppm | directSampling on | bias bias | gain | tunerGainMode mode
  | mixerGain gain | lnaGain gain | basebandGain gain => exact kept.symm

theorem tunerGainReductions_settings (p : MsisdrDev) :
    (tunerGainReductions p).settings =
      { p.settings with
        tuning := (tunerGainReductions p).tuning
        stages := (tunerGainReductions p).stages
        band := (tunerGainReductions p).band } := by
  unfold tunerGainReductions
  split_ifs <;> rfl

/-- The settings but for the tuning, the stages and the band. -/
theorem callSetter_assign (stream : StreamCalls) {p : OpenDevice}
    (idle : p.dev.asyncStatus = .inactive) (setter : Setter) :
    (callSetter stream p setter).1.dev.settings =
      { p.dev.settings.assign setter with
        tuning := (callSetter stream p setter).1.dev.tuning
        stages := (callSetter stream p setter).1.dev.stages
        band := (callSetter stream p setter).1.dev.band } := by
  cases setter with
  | centerFreq freq | offsetTuning on | hwFlavour flavour | xtalFreq freq | freqCorrection ppm
  | directSampling on | bias bias | gain | tunerGainMode mode | mixerGain gain | lnaGain gain
  | basebandGain gain => rfl
  | bandwidth bw =>
      show { (callSetter stream p (.bandwidth bw)).1.dev.settings with
        ifFreq := bandwidthIfFreq p.dev bw } = _
      rw [bandwidthIfFreq_eq]
      rfl
  | ifFreq freq =>
      simp only [callSetter, msisdrSetIfFreq, Settings.assign]
      cases ifFreqOf freq <;> rfl
  | transfer v =>
      simp only [callSetter, msisdrSetTransfer, Settings.assign]
      split_ifs <;> rfl
  | tunerGain gain =>
      have reductions := tunerGainReductions_settings
      simp only [callSetter, msisdrSetTunerGain]
      split_ifs
      · exact reductions { p.dev with gain := 102 }
      · rfl
      · exact reductions { p.dev with gain := gain }
  | mixbufferGain gain =>
      simp only [callSetter, msisdrSetMixbufferGain, Settings.assign]
      split_ifs <;> rfl
  | sampleRate rate =>
      simp only [callSetter, msisdrSetSampleRate, Settings.assign]
      rw [msisdrSetHard_of_idle]
      · rfl
      · exact idle
  | sampleFormat v =>
      simp only [callSetter, msisdrSetSampleFormat, Settings.assign]
      split
      · rw [msisdrSetHard_of_idle]
        · rfl
        · exact idle
      · cases formatOfName v with
        | some format =>
            dsimp only
            rw [msisdrSetHard_of_idle]
            · rfl
            · exact idle
        | none => rfl

/-- **A setter has its effect on the settings**, on a device without a stream. -/
theorem callSetter_settings (stream : StreamCalls) {p : OpenDevice} (programmed : Programmed p)
    (setter : Setter) :
    (callSetter stream p setter).1.dev.settings = p.dev.settings.call setter := by
  rw [callSetter_assign stream programmed.idle, callSetter_tuning stream programmed.idle,
    callSetter_stages stream programmed.idle, callSetter_band stream programmed]
  rfl

theorem runSetters_settings (stream : StreamCalls) {p : OpenDevice} (programmed : Programmed p)
    (setters : List Setter) :
    (runSetters stream p setters).dev.settings = setters.foldl Settings.call p.dev.settings := by
  induction setters generalizing p with
  | nil => rfl
  | cons setter rest ih =>
      have next := ih (callSetter_programmed stream programmed setter)
      rw [callSetter_settings stream programmed] at next
      exact next

/-! ## What calls preserve -/

theorem limitRate_again (rate : UInt32) : limitRate (limitRate rate) = limitRate rate := by
  refine UInt32.toNat_inj.mp ?_
  rw [limitRate_toNat, limitRate_toNat]
  omega

namespace Settings

variable {s : Settings}

theorem clocked_clock (s : Settings) : s.clocked.Clocked := by
  refine ⟨limitRate_again s.rate, fun auto => ?_⟩
  have auto : s.formatAuto = .on := auto
  show (if s.formatAuto = .on then _ else _) = _
  rw [if_pos auto]
  rfl

theorem select_select (s : Settings) : s.select.select = s.select := by
  simp only [select, bandAfter_again]

theorem Clocked.assign (clock : s.Clocked) (setter : Setter) : (s.assign setter).Clocked := by
  cases setter with
  | sampleRate rate => exact clocked_clock _
  | sampleFormat v =>
      simp only [Settings.assign]
      split
      · exact clocked_clock _
      · cases formatOfName v with
        | some format => exact clocked_clock _
        | none => exact ⟨clock.rate, fun auto => by cases auto⟩
  | _ => exact ⟨clock.rate, clock.format⟩

theorem assign_xtal (s : Settings) (setter : Setter) : (s.assign setter).xtal = s.xtal := by
  cases setter with
  | sampleFormat v =>
      simp only [assign]
      split
      · rfl
      · cases formatOfName v <;> rfl
  | _ => rfl

/-- **Calls keep the settings valid.** -/
theorem Valid.call (valid : s.Valid) (setter : Setter) : (s.call setter).Valid where
  switched := Stages.call_switches valid.switched setter
  clock := ⟨(valid.clock.assign setter).rate, (valid.clock.assign setter).format⟩
  selected := select_select _
  xtal := (assign_xtal s setter).trans valid.xtal

theorem Valid.calls (valid : s.Valid) (setters : List Setter) :
    (setters.foldl Settings.call s).Valid := by
  induction setters generalizing s with
  | nil => exact valid
  | cons setter rest ih => exact ih (valid.call setter)

end Settings

/-- The band of a programmed device is one that its tuning selects. -/
theorem Programmed.select {p : OpenDevice} (programmed : Programmed p) :
    p.dev.settings.select = p.dev.settings := by
  have band := programmed.plan.band
  show { p.dev.settings with
    band := bandAfter (switchPlan p.dev.hwFlavour p.dev.freq) p.dev.band } = p.dev.settings
  rw [band]
  rfl

theorem msisdrSetup_valid (stream : StreamCalls) (pid : UInt16) (transfer : Transfer) :
    (msisdrSetup stream pid transfer).dev.settings.Valid where
  switched := by
    have stages := msisdrSetup_stages stream pid transfer
    show (msisdrSetup stream pid transfer).dev.stages.Switched
    rw [stages]
    exact ⟨.inl rfl, by decide, .inl rfl⟩
  clock := by
    obtain ⟨rate, format⟩ : (msisdrSetup stream pid transfer).dev.rate = 2000000 ∧
        (msisdrSetup stream pid transfer).dev.format = .s16x252 := by
      rw [msisdrSetup, msisdrSetHard_of_idle stream rfl]
      exact ⟨rfl, rfl⟩
    refine ⟨?_, fun _ => ?_⟩
    · show limitRate (msisdrSetup stream pid transfer).dev.rate = _
      rw [rate]
      exact rate.symm
    · show _ = autoFormat (msisdrSetup stream pid transfer).dev.rate
      rw [rate]
      exact format
  selected := (msisdrSetup_programmed stream pid transfer).select
  xtal := by
    rw [msisdrSetup, msisdrSetHard_of_idle stream rfl]
    rfl

/-! ## What is given back -/

/-- Each setter takes back what its getter has answered. -/
theorem ifFreqOf_get (p : MsisdrDev) : ifFreqOf (msisdrGetIfFreq p) = some p.ifFreq := by
  unfold msisdrGetIfFreq
  cases p.ifFreq <;> rfl

theorem bandwidthOf_get (p : MsisdrDev) : bandwidthOf (msisdrGetBandwidth p) = p.bandwidth := by
  unfold msisdrGetBandwidth
  cases p.bandwidth <;> rfl

theorem transfer_get (p : MsisdrDev) (before : Transfer) :
    (if msisdrGetTransfer p = "BULK" then .bulk
      else if msisdrGetTransfer p = "ISOC" then .isoc else before) = p.transfer := by
  unfold msisdrGetTransfer
  cases p.transfer <;> rfl

theorem formatOfName_formatName (format : Format) :
    formatOfName (formatName format) = some format := by
  cases format <;> rfl

theorem formatName_ne_auto (format : Format) : formatName format ≠ "AUTO" := by
  cases format <;> decide

/-- The format that is given back, before the rate is. -/
theorem assign_sampleFormat (s : Settings) (p : MsisdrDev) :
    s.assign (.sampleFormat (msisdrGetSampleFormat p)) =
      Settings.clocked { s with
        formatAuto := p.formatAuto
        format := if p.formatAuto = .on then s.format else p.format } := by
  unfold msisdrGetSampleFormat
  cases auto : p.formatAuto with
  | on => rfl
  | off =>
      have other := formatName_ne_auto p.format
      simp only [Settings.assign, reduceCtorEq, if_false, if_neg other, formatOfName_formatName]

/-- The stages that are given back, with the mode of the gain. -/
theorem stages_get {p : MsisdrDev} (switched : p.stages.Switched) (flavour : HwFlavour)
    (before : Stages) :
    (restore flavour (answers p)).foldl Stages.call before =
      { p.stages with gain := if p.gain < 0 then -1 else 0 } := by
  obtain ⟨lna, mixbuffer, mixer⟩ := switched
  have gain : (before.request (if (answers p).tunerGainMode = 0 then -1 else 0)).gain =
      if p.gain < 0 then -1 else 0 := by
    show (before.request (if (if p.gain < 0 then (0 : ℤ) else 1) = 0 then -1 else 0)).gain = _
    split_ifs <;> first | rfl | omega
  have mixed : (3 - min (msisdrGetMixbufferGain p) 18 / 6) % 4 = p.gainReductionMixbuffer ∧
      ¬ msisdrGetMixbufferGain p < 0 := by
    have low : 0 ≤ p.gainReductionMixbuffer := mixbuffer.1
    have high : p.gainReductionMixbuffer ≤ 3 := mixbuffer.2
    unfold msisdrGetMixbufferGain
    omega
  have mixerBack : (if msisdrGetMixerGain p ≠ 0 then (0 : ℤ) else 1) = p.gainReductionMixer := by
    have range : p.gainReductionMixer = 0 ∨ p.gainReductionMixer = 1 := mixer
    unfold msisdrGetMixerGain
    rcases range with off | on <;> simp [*]
  have lnaBack : (if msisdrGetLnaGain p ≠ 0 then (0 : ℤ) else 1) = p.gainReductionLna := by
    have range : p.gainReductionLna = 0 ∨ p.gainReductionLna = 1 := lna
    unfold msisdrGetLnaGain
    rcases range with off | on <;> simp [*]
  have baseband : 59 - msisdrGetBasebandGain p = p.gainReductionBaseband := by
    unfold msisdrGetBasebandGain
    omega
  show (((((before.request _).call (.mixerGain (msisdrGetMixerGain p))).call
    (.mixbufferGain (msisdrGetMixbufferGain p))).call (.lnaGain (msisdrGetLnaGain p))).call
    (.basebandGain (msisdrGetBasebandGain p))) = _
  simp only [Stages.call, if_neg mixed.2, mixed.1, mixerBack, lnaBack, baseband, gain]
  rfl

namespace Settings

theorem calls_stages (s : Settings) (setters : List Setter) :
    (setters.foldl Settings.call s).stages = setters.foldl Stages.call s.stages := by
  induction setters generalizing s with
  | nil => rfl
  | cons setter rest ih => exact ih (s.call setter)

end Settings

/-- The band after a device in a band of its own has been given back the tuning. -/
def restoredBand (tuning : Tuning) (freq : UInt32) (band : Band) : Band :=
  bandAfter (switchPlan tuning.flavour tuning.freq)
    (bandAfter (switchPlan tuning.flavour freq) band)

/-- **The settings are given back** to a device with any settings, except for the band. -/
theorem restore_settings {p : MsisdrDev} (valid : p.settings.Valid) {t : Settings}
    (before : t.Valid) :
    (restore p.hwFlavour (answers p)).foldl Settings.call t =
      { p.settings with
        stages := { p.stages with gain := if p.gain < 0 then -1 else 0 }
        band := restoredBand p.tuning t.tuning.freq t.band } := by
  have stages := (Settings.calls_stages t _).trans (stages_get valid.switched p.hwFlavour t.stages)
  obtain ⟨u, first, auto, format, tuning, band, xtal⟩ : ∃ u,
      t.call (.sampleFormat (msisdrGetSampleFormat p)) = u ∧ u.formatAuto = p.formatAuto ∧
        (p.formatAuto ≠ .on → u.format = p.format) ∧ u.tuning = t.tuning ∧ u.band = t.band ∧
        u.xtal = t.xtal := by
    have assigned := assign_sampleFormat t p
    have selected := congrArg Settings.band before.selected
    refine ⟨_, rfl, ?_, fun manual => ?_, rfl, selected, ?_⟩
    · exact congrArg Settings.formatAuto assigned
    · refine (congrArg Settings.format assigned).trans ?_
      simp [Settings.clocked, manual]
    · exact Eq.trans (congrArg Settings.xtal assigned :) rfl
  have run : (restore p.hwFlavour (answers p)).foldl Settings.call t =
      (restoreTuner p.hwFlavour (answers p)).foldl Settings.call u := by
    rw [restore, List.foldl_cons, ← first]
    rfl
  rw [run] at stages ⊢
  apply Settings.ext
  case stages => exact stages
  case tuning => rfl
  case xtal => exact xtal.trans (before.xtal.trans valid.xtal.symm)
  case formatAuto => exact auto
  case rate => exact valid.clock.rate
  case bandwidth => exact bandwidthOf_get p
  case transfer => exact transfer_get p u.transfer
  case ifFreq =>
    show (ifFreqOf (msisdrGetIfFreq p)).getD _ = p.ifFreq
    rw [ifFreqOf_get]
    rfl
  case format =>
    show (if u.formatAuto = .on then autoFormat (limitRate p.rate) else u.format) = p.format
    have rate : limitRate p.rate = p.rate := valid.clock.rate
    rw [auto, rate]
    split
    · next on => exact (valid.clock.format on).symm
    · next manual => exact format manual
  case band =>
    have selected : bandAfter (switchPlan t.tuning.flavour t.tuning.freq) t.band = t.band :=
      congrArg Settings.band before.selected
    simp only [restoreTuner, List.foldl_cons, List.foldl_nil, Settings.call, Settings.select,
      Tuning.call, bandAfter_again, tuning, band, selected]
    rfl

/-! ## The second device -/

/-- A device after its set-up and any calls. -/
def opened (stream : StreamCalls) (pid : UInt16) (transfer : Transfer) (calls : List Setter) :
    OpenDevice :=
  runSetters stream (msisdrSetup stream pid transfer) calls

/-- What the getters of `p` answer is given to `q`. -/
def restored (stream : StreamCalls) (p q : OpenDevice) : OpenDevice :=
  runSetters stream q (restore p.dev.hwFlavour (answers p.dev))

/-- The registers that encode the configuration hold the same words. -/
structure SameRegisters (p q : OpenDevice) : Prop where
  tuner : ∀ k ∈ [0, 1, 2, 3, 5, 0xd], p.tuner k = q.tuner k
  chip : ∀ k ∈ [3, 4, 7, 8], p.chip k = q.chip k

/-- The two devices cannot be told apart. -/
structure Alike (p q : OpenDevice) : Prop where
  answers : Driver.answers p.dev = Driver.answers q.dev
  registers : SameRegisters p q

/-- The settings that the registers encode, of two devices that differ in the gain at most. -/
theorem fields_of_settings {p q : OpenDevice} (programmed : Programmed p)
    (programmed' : Programmed q) {gain : ℤ}
    (same : p.dev.settings = { q.dev.settings with stages := { q.dev.stages with gain := gain } }) :
    softFields p.dev = softFields q.dev ∧ gainFields p.dev = gainFields q.dev ∧
      hardFields p.dev = hardFields q.dev := by
  have switches := programmed.plan.switches
  have switches' := programmed'.plan.switches
  simp only [MsisdrDev.settings, MsisdrDev.tuning, MsisdrDev.stages, Settings.mk.injEq,
    Tuning.mk.injEq, Stages.mk.injEq] at same
  obtain ⟨⟨flavour, freq, bias⟩, ⟨-, lna, mixbuffer, mixer, baseband⟩, band, ifFreq, bandwidth,
    xtal, -, -, format, rate⟩ := same
  rw [flavour, freq, switches'] at switches
  refine ⟨?_, ?_, ?_⟩
  · rw [softFields, softFields, flavour, freq, ifFreq, bandwidth, xtal, switches, bias]
  · rw [gainFields, gainFields, band, baseband, mixbuffer, mixer, lna]
  · rw [hardFields, hardFields, rate, format]

/-- **Coherent registers depend on the fields only.** -/
theorem sameRegisters_of_fields {p q : OpenDevice} (coherent : RegistersCoherent p)
    (coherent' : RegistersCoherent q) (soft : softFields p.dev = softFields q.dev)
    (gain : gainFields p.dev = gainFields q.dev) (hard : hardFields p.dev = hardFields q.dev) :
    SameRegisters p q := by
  obtain ⟨reg0, reg2, reg3, reg5, regd, reg8⟩ := softWords_of_fields soft
  simp only [hardFields, Prod.mk.injEq] at hard
  obtain ⟨rate, format⟩ := hard
  constructor
  · intro k member
    simp only [List.mem_cons, List.not_mem_nil, or_false] at member
    rcases member with rfl | rfl | rfl | rfl | rfl | rfl
    · rw [coherent.tuner0, coherent'.tuner0, reg0]
    · rw [coherent.tuner1, coherent'.tuner1, gainReg1_of_fields gain]
    · rw [coherent.tuner2, coherent'.tuner2, reg2]
    · rw [coherent.tuner3, coherent'.tuner3, reg3]
    · rw [coherent.tuner5, coherent'.tuner5, reg5]
    · rw [coherent.tunerd, coherent'.tunerd, regd]
  · intro k member
    simp only [List.mem_cons, List.not_mem_nil, or_false] at member
    rcases member with rfl | rfl | rfl | rfl
    · rw [coherent.chip3, coherent'.chip3, hardReg3, hardReg3, rate, format]
    · rw [coherent.chip4, coherent'.chip4, hardReg4, hardReg4, rate]
    · rw [coherent.chip7, coherent'.chip7, format]
    · rw [coherent.chip8, coherent'.chip8, reg8]

/-- The getters answer alike for settings that differ in the gain at most, if that has the same
mode. -/
theorem answers_of_settings {p q : MsisdrDev} {gain : ℤ} (mode : gain < 0 ↔ q.gain < 0)
    (same : p.settings = { q.settings with stages := { q.stages with gain := gain } }) :
    answers p = answers q := by
  simp only [MsisdrDev.settings, MsisdrDev.tuning, MsisdrDev.stages, Settings.mk.injEq,
    Tuning.mk.injEq, Stages.mk.injEq] at same
  obtain ⟨⟨-, freq, bias⟩, ⟨given, lna, mixbuffer, mixer, baseband⟩, band, ifFreq, bandwidth,
    xtal, transfer, auto, format, rate⟩ := same
  rw [← given] at mode
  simp only [answers, msisdrGetCenterFreq, msisdrGetIfFreq, msisdrGetXtalFreq, msisdrGetBandwidth,
    msisdrGetTransfer, msisdrGetBand, msisdrGetBias, msisdrGetSampleRate, msisdrGetSampleFormat,
    msisdrGetTunerGain, msisdrGetTunerGainMode, msisdrGetMixerGain, msisdrGetMixbufferGain,
    msisdrGetLnaGain, msisdrGetBasebandGain, stageGain, mode, freq, bias, lna, mixbuffer, mixer,
    baseband, band, ifFreq, bandwidth, xtal, transfer, auto, format, rate]

/-- Outside the gap the band that is given back is the right one, and inside it is the one that the
device has on the frequency from before. -/
theorem restoredBand_eq_iff {p : MsisdrDev} (selected : p.settings.select = p.settings)
    (freq : UInt32) (band : Band) :
    restoredBand p.tuning freq band = p.band ↔
      (bandGap p.hwFlavour p.freq →
        bandAfter (switchPlan p.hwFlavour freq) band = p.band) := by
  have own : bandAfter (switchPlan p.hwFlavour p.freq) p.band = p.band :=
    congrArg Settings.band selected
  show bandAfter (switchPlan p.hwFlavour p.freq) _ = p.band ↔ _
  by_cases gap : bandGap p.hwFlavour p.freq
  · rw [bandAfter_of_gap gap]
    exact ⟨fun same _ => same, fun same => same gap⟩
  · rw [bandAfter_of_not_gap gap _ p.band]
    exact ⟨fun _ there => absurd there gap, fun _ => own⟩

theorem opened_programmed (stream : StreamCalls) (pid : UInt16) (transfer : Transfer)
    (calls : List Setter) : Programmed (opened stream pid transfer calls) :=
  runSetters_programmed stream (msisdrSetup_programmed stream pid transfer) calls

theorem opened_valid (stream : StreamCalls) (pid : UInt16) (transfer : Transfer)
    (calls : List Setter) : (opened stream pid transfer calls).dev.settings.Valid := by
  rw [opened, runSetters_settings stream (msisdrSetup_programmed stream pid transfer)]
  exact (msisdrSetup_valid stream pid transfer).calls calls

end MsiSdrDriver.Driver
