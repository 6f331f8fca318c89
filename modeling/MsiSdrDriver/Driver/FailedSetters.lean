import MsiSdrDriver.Driver.StreamCalls

/-!
# Setters that fail

A setter returns a negative value where it does not support its argument, or where a running
stream cannot be stopped. `msisdr_set_if_freq`, `msisdr_set_transfer` and
`msisdr_set_mixbuffer_gain` check their argument first and leave the device as it was. The two
setters that go through `msisdr_set_hard` store first: `msisdr_set_sample_rate` the rate, and
`msisdr_set_sample_format` that the format is not chosen automatically, before it looks at the
name, and then the format.

`failed_leaves` says what a failed call leaves behind: the device with these fields stored, with
nothing sent to the hardware. So the record no longer says what the hardware does, unless the
fields were stored already (`failed_keeps_iff`). After a name that is not supported, for one, later
rates no longer choose a format (`failed_format_forgets`).
-/

set_option autoImplicit false

namespace MsiSdrDriver.Driver

/-! ## Failures -/

/-- The argument of the setter is supported. Three setters are not implemented. -/
def Setter.Supported : Setter → Prop
  | .sampleFormat v => v = "AUTO" ∨ (formatOfName v).isSome = true
  | .ifFreq freq => (ifFreqOf freq).isSome = true
  | .transfer v => v = "BULK" ∨ v = "ISOC"
  | .mixbufferGain decibels => 0 ≤ decibels
  | .xtalFreq _ | .freqCorrection _ | .directSampling _ => False
  | _ => True

/-- The device has a running stream, and `msisdr_stop_async` does not stop it. -/
def StopFails (answers : StreamAnswers) (p : OpenDevice) : Prop :=
  p.dev.asyncStatus = .running ∧ (answers.calls.stopAsync p).2 < 0

/-- **The setter fails**, for one of these reasons. -/
structure FailedCall (answers : StreamAnswers) (p : OpenDevice) (call : Setter) : Prop where
  negative : (callSetter answers.calls p call).2 < 0
  reason : ¬ call.Supported ∨ StopFails answers p

/-! ## What is to stay -/

/-- The recorded configuration. -/
structure RecordedConfig where
  formatAuto : FormatAuto
  format : Format
  rate : UInt32
  ifFreq : IfFreq
  transfer : Transfer
  gainReductionLna : ℤ
  gainReductionMixbuffer : ℤ
  gainReductionMixer : ℤ
  gainReductionBaseband : ℤ
  deriving DecidableEq

def MsisdrDev.recorded (p : MsisdrDev) : RecordedConfig where
  formatAuto := p.formatAuto
  format := p.format
  rate := p.rate
  ifFreq := p.ifFreq
  transfer := p.transfer
  gainReductionLna := p.gainReductionLna
  gainReductionMixbuffer := p.gainReductionMixbuffer
  gainReductionMixer := p.gainReductionMixer
  gainReductionBaseband := p.gainReductionBaseband

/-- **A call has changed nothing**: the recorded configuration is what it was, nothing has been sent
to the hardware, and what a later call sees is as before, but for what the stream has done
meanwhile. -/
structure ChangesNothing (p q : OpenDevice) : Prop where
  recorded : q.dev.recorded = p.dev.recorded
  hardware : q.sent = p.sent
  later : SameConfig p.dev q.dev

/-- **The fields that the setter stores are stored already.** -/
def StoredAlready (p : MsisdrDev) : Setter → Prop
  | .sampleRate rate => p.rate = rate
  | .sampleFormat v =>
      if v = "AUTO" then p.formatAuto = .on
      else p.formatAuto = .off ∧ ∀ format, formatOfName v = some format → p.format = format
  | _ => True

/-- What a setter has stored when it fails. -/
def storedBeforeFailure (p : MsisdrDev) : Setter → MsisdrDev
  | .sampleRate rate => { p with rate := rate }
  | .sampleFormat v =>
      if v = "AUTO" then { p with formatAuto := .on }
      else { p with formatAuto := .off, format := (formatOfName v).getD p.format }
  | _ => p

/-! ## Stopping the stream -/

/-- The loop ends in the same way whatever is stored in the other fields. -/
theorem stopLoop_congr {p q : OpenDevice} (same : q.dev.asyncStatus = p.dev.asyncStatus)
    (rounds : List StopRound) : (stopLoop q rounds).2 = (stopLoop p rounds).2 ∧
      (stopLoop q rounds).1.dev.asyncStatus = (stopLoop p rounds).1.dev.asyncStatus := by
  induction rounds generalizing p q with
  | nil => exact ⟨rfl, same⟩
  | cons round rest ih =>
      rw [stopLoop, stopLoop, same]
      split
      · cases round.result with
        | handled | interrupted => exact ih rfl
        | failed => exact ⟨rfl, rfl⟩
      · exact ⟨rfl, same⟩

theorem msisdrStopAsync_congr {p q : OpenDevice} (same : q.dev.asyncStatus = p.dev.asyncStatus)
    (rounds : List StopRound) :
    (msisdrStopAsync rounds q).2 = (msisdrStopAsync rounds p).2 := by
  obtain ⟨finished, status⟩ := stopLoop_congr same rounds
  rw [msisdrStopAsync, msisdrStopAsync, same]
  generalize stopLoop p rounds = left at finished status ⊢
  generalize stopLoop q rounds = right at finished status ⊢
  obtain ⟨p', flag⟩ := left
  obtain ⟨q', flag'⟩ := right
  cases finished
  split
  · rfl
  · cases flag with
    | false => rfl
    | true =>
        dsimp only at status ⊢
        rw [status]
        split
        · rfl
        · rfl

theorem stopLoop_sent (p : OpenDevice) (rounds : List StopRound) :
    (stopLoop p rounds).1.sent = p.sent := by
  induction rounds generalizing p with
  | nil => rfl
  | cons round rest ih =>
      rw [stopLoop]
      split
      · cases round.result with
        | handled | interrupted => exact ih _
        | failed => rfl
      · rfl

/-- A stream that is not stopped keeps sending. -/
theorem msisdrStopAsync_sent {p : OpenDevice} {rounds : List StopRound}
    (fails : (msisdrStopAsync rounds p).2 < 0) : (msisdrStopAsync rounds p).1.sent = p.sent := by
  have looped := stopLoop_sent p rounds
  rw [msisdrStopAsync] at fails ⊢
  split
  · rfl
  · next running =>
      rw [if_neg running] at fails
      generalize stopLoop p rounds = result at looped fails ⊢
      obtain ⟨q, finished⟩ := result
      cases finished with
      | false => exact looped
      | true =>
          dsimp only at fails ⊢
          split
          · exact looped
          · next still =>
              rw [if_neg still] at fails
              exact absurd fails (Int.lt_irrefl 0)

/-- `msisdr_set_hard` gives up where the stream is not stopped. -/
theorem msisdrSetHard_gives_up (answers : StreamAnswers) {p q : OpenDevice}
    (fails : StopFails answers p) (status : q.dev.asyncStatus = p.dev.asyncStatus) :
    SameConfig q.dev (msisdrSetHard answers.calls q).1.dev ∧
      (msisdrSetHard answers.calls q).1.sent = q.sent := by
  obtain ⟨running, negative⟩ := fails
  have fails : (msisdrStopAsync answers.rounds q).2 < 0 :=
    (msisdrStopAsync_congr status answers.rounds).symm ▸ negative
  have gives : (msisdrSetHard answers.calls q).1 = (msisdrStopAsync answers.rounds q).1 := by
    rw [msisdrSetHard, if_pos (status.trans running),
      show answers.calls.stopAsync q = msisdrStopAsync answers.rounds q from rfl]
    generalize msisdrStopAsync answers.rounds q = result at fails ⊢
    obtain ⟨stopped, r⟩ := result
    have fails : r < 0 := fails
    dsimp only
    rw [if_pos fails]
  rw [gives]
  exact ⟨msisdrStopAsync_config answers.rounds q, msisdrStopAsync_sent fails⟩

/-! ## The setters that do not fail -/

/-- **The setter never fails on its own account**: it supports every argument, and it does not stop
the stream. -/
def NeverFails : Setter → Prop
  | .centerFreq _ | .bandwidth _ | .offsetTuning _ | .bias _ | .hwFlavour _ | .gain | .tunerGain _
  | .tunerGainMode _ | .mixerGain _ | .lnaGain _ | .basebandGain _ => True
  | _ => False

theorem NeverFails.returns {call : Setter} (never : NeverFails call) (stream : StreamCalls)
    (p : OpenDevice) : (callSetter stream p call).2 = 0 := by
  cases call with
  | tunerGain gain =>
      simp only [callSetter, msisdrSetTunerGain]
      split
      · rfl
      · split
        · rfl
        · rfl
  | centerFreq _ | bandwidth _ | offsetTuning _ | bias _ | hwFlavour _ | gain | tunerGainMode _
  | mixerGain _ | lnaGain _ | basebandGain _ => rfl
  | ifFreq _ | xtalFreq _ | freqCorrection _ | directSampling _ | transfer _ | mixbufferGain _
  | sampleRate _ | sampleFormat _ => exact never.elim

/-! ## The setters that check first -/

theorem msisdrSetIfFreq_fails {p : OpenDevice} {freq : UInt32}
    (negative : (msisdrSetIfFreq p freq).2 < 0) : (msisdrSetIfFreq p freq).1 = p := by
  rw [msisdrSetIfFreq] at negative ⊢
  cases supported : ifFreqOf freq with
  | none => rfl
  | some ifFreq =>
      rw [supported] at negative
      exact absurd negative (Int.lt_irrefl 0)

theorem msisdrSetTransfer_fails {p : OpenDevice} {v : String}
    (negative : (msisdrSetTransfer p v).2 < 0) : (msisdrSetTransfer p v).1 = p := by
  rw [msisdrSetTransfer] at negative ⊢
  by_cases bulk : v = "BULK"
  · rw [if_pos bulk] at negative
    exact absurd negative (Int.lt_irrefl 0)
  · rw [if_neg bulk] at negative ⊢
    by_cases isoc : v = "ISOC"
    · rw [if_pos isoc] at negative
      exact absurd negative (Int.lt_irrefl 0)
    · rw [if_neg isoc]

theorem msisdrSetMixbufferGain_fails {p : OpenDevice} {gain : ℤ}
    (negative : (msisdrSetMixbufferGain p gain).2 < 0) :
    (msisdrSetMixbufferGain p gain).1 = p := by
  rw [msisdrSetMixbufferGain] at negative ⊢
  by_cases below : gain < 0
  · rw [if_pos below]
  · rw [if_neg below] at negative
    exact absurd negative (Int.lt_irrefl 0)

/-! ## What a failed call leaves behind -/

/-- **A failed call leaves the device with the fields stored** that it stores before it fails, and
has sent nothing. -/
theorem failed_leaves {answers : StreamAnswers} {p : OpenDevice} {call : Setter}
    (failed : FailedCall answers p call) :
    SameConfig (storedBeforeFailure p.dev call) (callSetter answers.calls p call).1.dev ∧
      (callSetter answers.calls p call).1.sent = p.sent := by
  obtain ⟨negative, reason⟩ := failed
  have untouched : (callSetter answers.calls p call).1 = p →
      storedBeforeFailure p.dev call = p.dev →
        SameConfig (storedBeforeFailure p.dev call) (callSetter answers.calls p call).1.dev ∧
          (callSetter answers.calls p call).1.sent = p.sent := by
    intro same stored
    rw [same, stored]
    exact ⟨.refl p.dev, rfl⟩
  have fallible : ¬ NeverFails call := by
    intro never
    rw [never.returns] at negative
    exact Int.lt_irrefl 0 negative
  cases call with
  | centerFreq _ | bandwidth _ | offsetTuning _ | bias _ | hwFlavour _ | gain | tunerGain _
  | tunerGainMode _ | mixerGain _ | lnaGain _ | basebandGain _ =>
      exact absurd trivial fallible
  | xtalFreq _ | freqCorrection _ | directSampling _ => exact untouched rfl rfl
  | ifFreq freq => exact untouched (msisdrSetIfFreq_fails negative) rfl
  | transfer v => exact untouched (msisdrSetTransfer_fails negative) rfl
  | mixbufferGain gain => exact untouched (msisdrSetMixbufferGain_fails negative) rfl
  | sampleRate rate =>
      have fails := reason.resolve_left (not_not_intro trivial)
      exact msisdrSetHard_gives_up answers fails rfl
  | sampleFormat v =>
      rw [storedBeforeFailure, callSetter, msisdrSetSampleFormat]
      by_cases auto : v = "AUTO"
      · rw [if_pos auto, if_pos auto]
        have fails := reason.resolve_left (not_not_intro (.inl auto))
        exact msisdrSetHard_gives_up answers fails rfl
      · rw [if_neg auto, if_neg auto]
        cases supported : formatOfName v with
        | none => exact ⟨.refl _, rfl⟩
        | some format =>
            have fails := reason.resolve_left
              (not_not_intro (.inr (Option.isSome_iff_exists.mpr ⟨format, supported⟩)))
            exact msisdrSetHard_gives_up answers fails rfl

theorem SameConfig.format {p q : MsisdrDev} (same : SameConfig p q) : q.format = p.format := by
  rw [same]

/-- Where the format is not chosen automatically, `msisdr_set_hard` keeps it. -/
theorem msisdrSetHard_format (answers : StreamAnswers) {p : OpenDevice}
    (off : p.dev.formatAuto = .off) :
    (msisdrSetHard answers.calls p).1.dev.format = p.dev.format := by
  have programs : ∀ {q : OpenDevice}, SameConfig p.dev q.dev →
      (programHard q).dev.format = p.dev.format := by
    intro q same
    have chosen : ¬ q.dev.formatAuto = .on := by
      rw [same, off]
      decide
    exact (if_neg chosen).trans same.format
  have stopped : SameConfig p.dev (answers.calls.stopAsync p).1.dev :=
    msisdrStopAsync_config answers.rounds p
  rw [msisdrSetHard]
  split
  · generalize answers.calls.stopAsync p = result at stopped ⊢
    obtain ⟨q, r⟩ := result
    have started : SameConfig (programHard (msisdrAdcStop q)).dev
        (answers.calls.startAsync (programHard (msisdrAdcStop q))).1.dev :=
      msisdrStartAsync_config answers.submitted answers.startStatus _
    have kept := started.format.trans (programs (q := msisdrAdcStop q) stopped)
    dsimp only
    split
    · exact stopped.format
    · split
      · exact kept
      · exact kept
  · exact programs (.refl p.dev)

/-- **After a name that is not supported, a rate no longer chooses the format.** -/
theorem failed_format_forgets (answers later : StreamAnswers) (p : OpenDevice) {v : String}
    (unsupported : ¬ (Setter.sampleFormat v).Supported) (rate : UInt32) :
    (msisdrSetSampleRate later.calls (msisdrSetSampleFormat answers.calls p v).1
      rate).1.dev.format = p.dev.format := by
  obtain ⟨named, unknown⟩ := not_or.mp unsupported
  have unknown : formatOfName v = none := Option.not_isSome_iff_eq_none.mp unknown
  rw [msisdrSetSampleFormat, if_neg named, unknown]
  exact msisdrSetHard_format later rfl

theorem storedBeforeFailure_of_stored {p : MsisdrDev} {call : Setter}
    (stored : StoredAlready p call) : storedBeforeFailure p call = p := by
  cases call with
  | sampleRate rate =>
      obtain rfl : p.rate = rate := stored
      rfl
  | sampleFormat v =>
      rw [StoredAlready] at stored
      rw [storedBeforeFailure]
      split
      · next auto =>
          rw [if_pos auto] at stored
          rw [← stored]
      · next named =>
          rw [if_neg named] at stored
          obtain ⟨off, kept⟩ := stored
          have same : (formatOfName v).getD p.format = p.format := by
            cases supported : formatOfName v with
            | none => rfl
            | some format => exact (kept format supported).symm
          rw [same, ← off]
  | centerFreq _ | ifFreq _ | xtalFreq _ | bandwidth _ | freqCorrection _ | directSampling _
  | offsetTuning _ | transfer _ | bias _ | hwFlavour _ | gain | tunerGain _ | tunerGainMode _
  | mixerGain _ | mixbufferGain _ | lnaGain _ | basebandGain _ => rfl

theorem stored_of_recorded {p : MsisdrDev} {call : Setter}
    (same : (storedBeforeFailure p call).recorded = p.recorded) : StoredAlready p call := by
  cases call with
  | sampleRate rate =>
      have same : rate = p.rate := congrArg RecordedConfig.rate same
      exact same.symm
  | sampleFormat v =>
      have auto := congrArg RecordedConfig.formatAuto same
      have format := congrArg RecordedConfig.format same
      rw [storedBeforeFailure] at auto format
      rw [StoredAlready]
      split
      · next named =>
          rw [if_pos named] at auto
          exact auto.symm
      · next named =>
          rw [if_neg named] at auto format
          refine ⟨auto.symm, fun chosen supported => ?_⟩
          rw [supported] at format
          exact format.symm
  | centerFreq _ | ifFreq _ | xtalFreq _ | bandwidth _ | freqCorrection _ | directSampling _
  | offsetTuning _ | transfer _ | bias _ | hwFlavour _ | gain | tunerGain _ | tunerGainMode _
  | mixerGain _ | mixbufferGain _ | lnaGain _ | basebandGain _ => exact trivial

theorem SameConfig.recorded {p q : MsisdrDev} (same : SameConfig p q) :
    q.recorded = p.recorded := by
  rw [same]
  rfl

/-- **A failed call changes nothing** exactly where the fields that it stores are stored already. -/
theorem failed_keeps_iff (answers : StreamAnswers) (p : OpenDevice) (call : Setter)
    (failed : FailedCall answers p call) :
    ChangesNothing p (callSetter answers.calls p call).1 ↔ StoredAlready p.dev call := by
  obtain ⟨leaves, sent⟩ := failed_leaves failed
  refine ⟨fun nothing => ?_, fun stored => ?_⟩
  · exact stored_of_recorded (leaves.recorded.symm.trans nothing.recorded)
  · rw [storedBeforeFailure_of_stored stored] at leaves
    exact ⟨leaves.recorded, sent, leaves⟩

/-- A running stream whose events fail, and another rate. -/
theorem failed_keeps_iff_otherRate :
    ChangesNothing ⟨{ clearedDev 0x2500 with asyncStatus := .running }, []⟩
        (callSetter (StreamAnswers.calls ⟨[⟨.failed, .running, 0⟩], true, .paused⟩)
          ⟨{ clearedDev 0x2500 with asyncStatus := .running }, []⟩ (.sampleRate 2000000)).1 ↔
      StoredAlready { clearedDev 0x2500 with asyncStatus := .running } (.sampleRate 2000000) :=
  failed_keeps_iff _ _ _ ⟨by decide, .inr ⟨rfl, by decide⟩⟩

/-- **A failed call can change the record**: the device is opened, and the name of the format is not
supported. -/
theorem failed_format_stored :
    ¬ ∀ (pid : UInt16) (transfer : Transfer) (answers : StreamAnswers) (setters : List Setter)
      (call : Setter),
      FailedCall answers
        (runSetters answers.calls (msisdrSetup answers.calls pid transfer) setters) call →
      ChangesNothing (runSetters answers.calls (msisdrSetup answers.calls pid transfer) setters)
        (callSetter answers.calls
          (runSetters answers.calls (msisdrSetup answers.calls pid transfer) setters) call).1 := by
  intro nothing
  have kept := (nothing 0x2500 .bulk ⟨[], true, .paused⟩ [] (.sampleFormat "256_S16")
    ⟨by decide, .inl (by simp [Setter.Supported, formatOfName])⟩).recorded
  cases congrArg RecordedConfig.formatAuto kept

end MsiSdrDriver.Driver
