import MsiSdrDriver.Driver.StreamCalls
import MsiSdrDriver.Server.CommandFraming
import MsiSdrDriver.Server.CommandTeardown

/-!
# Commands and the device

`msisdrdevice.c` as far as it calls the setters: `openAsync`, which configures a device that has
just been opened, and `tcpCommandCallback`, which carries out a command of a client. Both hand
integers of the caller's width to setters of another: a `jlong` and the parameter of a command
become a `uint32_t` frequency, and the parameter a signed gain.
-/

set_option autoImplicit false

namespace MsiSdrDriver.Server

open MsiSdrDriver.Driver

/-! ## The list of gains -/

/-- `msisdr_get_tuner_gains`. -/
def msisdrGetTunerGains : List ℤ := (List.range 103).map fun i => (i : ℤ)

/-- `set_gain_by_index`. -/
def setGainByIndex (dev : OpenDevice) (index : UInt32) : OpenDevice × ℤ :=
  let gains := msisdrGetTunerGains
  if 0 < gains.length ∧ index.toNat < gains.length then
    msisdrSetTunerGain dev (gains.getD index.toNat 0)
  else (dev, 0)

/-- `index` in `set_gain_by_perc`. The product may overflow. -/
def percIndex (percent : UInt32) : UInt32 :=
  let count := UInt32.ofNat msisdrGetTunerGains.length
  let index := percent * count / 100
  if count ≤ index then count - 1 else index

/-- `set_gain_by_perc`. -/
def setGainByPerc (dev : OpenDevice) (percent : UInt32) : OpenDevice × ℤ :=
  msisdrSetTunerGain dev (msisdrGetTunerGains.getD (percIndex percent).toNat 0)

/-! ## `tcpCommandCallback` -/

/-- `msisdr_android_t` as far as the commands use it. The running averages are `float`s. -/
structure MsisdrAndroid where
  miriDev : Option OpenDevice
  enable16bit : Bool
  dcCorrectionEnabled : Bool
  dcAvgI : Float32
  dcAvgQ : Float32

/-- The case of the `switch` that a command selects. -/
def SdrTcpCommand.tcpCommand (cmd : SdrTcpCommand) : TcpCommand :=
  if cmd.command = 0x01 then .setFreq
  else if cmd.command = 0x02 then .setSampleRate
  else if cmd.command = 0x03 then .setGainMode
  else if cmd.command = 0x04 then .setGain
  else if cmd.command = 0x05 then .setFreqCorrection
  else if cmd.command = 0x0a then .setOffsetTuning
  else if cmd.command = 0x0d then .setTunerGainById
  else if cmd.command = 0x7e then .androidExit
  else if cmd.command = 0x7f then .androidGainByPercentage
  else if cmd.command = 0x80 then .androidEnable16BitSigned
  else if cmd.command = 0x81 then .androidEnableDcCorrection
  else .default

/-- A `uint32_t` handed over as an `int`. -/
def asInt (parameter : UInt32) : ℤ := parameter.toInt32.toInt

/-- What a command does to the device. -/
def commandDevice (answers : StreamAnswers) (dev : OpenDevice) (cmd : SdrTcpCommand) :
    OpenDevice :=
  match cmd.tcpCommand with
  | .setFreq => (msisdrSetCenterFreq dev cmd.parameter).1
  | .setSampleRate => (msisdrSetSampleRate answers.calls dev cmd.parameter).1
  | .setGainMode => (msisdrSetTunerGainMode dev (asInt cmd.parameter)).1
  | .setGain => (msisdrSetTunerGain dev (asInt cmd.parameter)).1
  | .setFreqCorrection => (msisdrSetFreqCorrection dev (asInt cmd.parameter)).1
  | .setOffsetTuning => (msisdrSetOffsetTuning dev (asInt cmd.parameter)).1
  | .setTunerGainById => (setGainByIndex dev cmd.parameter).1
  | .androidGainByPercentage => (setGainByPerc dev cmd.parameter).1
  | .androidExit | .androidEnable16BitSigned | .androidEnableDcCorrection | .default => dev

/-- `tcpCommandCallback`. What `TCP_ANDROID_EXIT` does to the server is not part of the device. -/
def tcpCommandCallback (answers : StreamAnswers) (dev : MsisdrAndroid) (cmd : SdrTcpCommand) :
    MsisdrAndroid :=
  match dev.miriDev with
  | none => dev
  | some miriDev =>
      let dev := { dev with miriDev := some (commandDevice answers miriDev cmd) }
      match cmd.tcpCommand with
      | .androidEnable16BitSigned => { dev with enable16bit := cmd.parameter ≠ 0 }
      | .androidEnableDcCorrection =>
          if cmd.parameter ≠ 0 then { dev with dcCorrectionEnabled := true }
          else { dev with dcCorrectionEnabled := false, dcAvgI := 0, dcAvgQ := 0 }
      | _ => dev

/-! ## `openAsync` -/

/-- The exit codes that `openAsync` throws. -/
inductive SdrException where
  | wrongArgs
  | notEnoughPower
  deriving DecidableEq

/-- The arguments of `openAsync` that configure the device. -/
structure OpenArgs where
  gain : Int32
  samplingrate : Int64
  frequency : Int64
  ppm : Int32
  deriving DecidableEq

/-- A `jlong` handed over as a `uint32_t`. -/
def asUInt32 (value : Int64) : UInt32 := value.toUInt64.toUInt32

/-- The sample rate. -/
def openSampleRate (answers : StreamAnswers) (device : OpenDevice) (samplingrate : Int64) :
    Except SdrException OpenDevice :=
  if samplingrate < 0 then .error .wrongArgs
  else
    let (device, result) := msisdrSetSampleRate answers.calls device (asUInt32 samplingrate)
    if result < 0 then
      if result = -1 ∨ result = -7 then .error .notEnoughPower else .error .wrongArgs
    else .ok device

/-- The frequency. -/
def openFrequency (device : OpenDevice) (frequency : Int64) : Except SdrException OpenDevice :=
  if frequency < 0 then .error .wrongArgs
  else
    let (device, result) := msisdrSetCenterFreq device (asUInt32 frequency)
    if result < 0 then .error .wrongArgs else .ok device

/-- The gain. -/
def openGain (device : OpenDevice) (gain : Int32) : OpenDevice :=
  if gain = 0 then (msisdrSetTunerGainMode device 0).1
  else (msisdrSetTunerGain (msisdrSetTunerGainMode device 1).1 gain.toInt).1

/-- `openAsync` from the opened device to `sdrtcp_open_socket`. -/
def openAsync (answers : StreamAnswers) (device : OpenDevice) (args : OpenArgs) :
    Except SdrException OpenDevice := do
  let (device, _) := msisdrSetSampleFormat answers.calls device "AUTO"
  let (device, _) := msisdrSetIfFreq device 0
  let (device, _) := msisdrSetBandwidth device 8000000
  let (device, _) :=
    if args.ppm ≠ 0 then msisdrSetFreqCorrection device args.ppm.toInt else (device, 0)
  let device ← openSampleRate answers device args.samplingrate
  let device ← openFrequency device args.frequency
  let device := openGain device args.gain
  return (msisdrResetBuffer answers device).1

end MsiSdrDriver.Server
