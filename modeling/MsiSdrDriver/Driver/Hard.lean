import MsiSdrDriver.Driver.Device

/-!
# The sample rate: `msisdr_set_hard`

`hard.c` and `adc.c`: chip registers 3, 4 and 7, which the sample rate and the format decide,
and the words that start and stop the converters. A running stream is paused round the change;
the calls that pause and resume it are modelled with the stream and are parameters here.
-/

set_option autoImplicit false

namespace MsiSdrDriver.Driver

/-! ## The converters -/

/-- `msisdr_adc_init`. -/
def msisdrAdcInit (p : OpenDevice) : OpenDevice :=
  let p := p.write 0x08 0x006080
  let p := p.write 0x05 0x00000c
  let p := p.write 0x00 0x000200
  let p := p.write 0x02 0x004801
  p.write 0x08 0x00f380

/-- `msisdr_adc_stop`. -/
def msisdrAdcStop (p : OpenDevice) : OpenDevice := p.write 0x03 0x010000

/-! ## The rate and the format -/

def sampleRateMin : UInt32 := 1300000
def sampleRateMax : UInt32 := 15000000

/-- The rate limited to its range. -/
def limitRate (rate : UInt32) : UInt32 :=
  if sampleRateMax < rate then sampleRateMax else if rate < sampleRateMin then sampleRateMin
  else rate

/-- The automatic choice of the format. -/
def autoFormat (rate : UInt32) : Format :=
  if rate ≤ 6048000 then .s16x252
  else if rate ≤ 8064000 then .s16x336
  else if rate ≤ 9216000 then .s16x384
  else .s16x504

/-- The word of chip register 7 for a format. -/
def formatWord : Format → BitVec 32
  | .s16x252 => 0x000094
  | .s16x336 => 0x000085
  | .s16x384 => 0x0000a5
  | .s16x504 | .s8x504 => 0x000c94

/-- `p->addr` for a format: the samples of a block and the header. -/
def formatAddr : Format → UInt32
  | .s16x252 => 252 + 2
  | .s16x336 => 336 + 2
  | .s16x384 => 384 + 2
  | .s16x504 | .s8x504 => 504 + 2

/-- The gain control for a format. -/
def formatAgc : Format → BitVec 32
  | .s16x252 => 0x01
  | .s16x336 => 0x05
  | .s16x384 => 0x09
  | .s16x504 | .s8x504 => 0x0d

/-- The `for` loop over the even values of `i` from 4: the `i` and the `vco` it stops with. -/
def vcoLoop (rate : UInt32) : List UInt64 → UInt64 → UInt64 × UInt64
  | [], vco => (16, vco)
  | i :: rest, _ =>
      let vco := rate.toUInt64 * i * 12
      if 202000000 ≤ vco then (i, vco) else vcoLoop rate rest vco

/-- `i` and `vco` after the loop. -/
def rateVco (rate : UInt32) : UInt64 × UInt64 := vcoLoop rate [4, 6, 8, 10, 12, 14] 0

/-- `fract`. -/
def rateFract (rate : UInt32) : UInt64 := 0x200000 * ((rateVco rate).2 % 48000000) / 48000000

/-- Chip register 3: the dividers and the gain control. -/
def hardReg3 (p : MsisdrDev) : BitVec 32 :=
  let (i, vco) := rateVco p.rate
  let n := vco / 48000000
  let high := rateFract p.rate >>> 20
  (0 : BitVec 32) ||| (0x03 &&& 3 : BitVec 32) <<< 0 |||
    ((0x07 &&& (i / 2 - 1)) <<< 2).toUInt32.toBitVec ||| (0x03 &&& 0 : BitVec 32) <<< 5 |||
    ((0x01 &&& high) <<< 7).toUInt32.toBitVec ||| ((0x0f &&& n) <<< 8).toUInt32.toBitVec |||
    (0x0f &&& formatAgc p.format) <<< 12 ||| (0x01 &&& 1 : BitVec 32) <<< 16

/-- Chip register 4: the fraction. -/
def hardReg4 (p : MsisdrDev) : BitVec 32 :=
  (0 : BitVec 32) ||| ((0xfffff &&& rateFract p.rate) <<< 0).toUInt32.toBitVec

/-! ## `msisdr_set_hard` -/

/-- The calls of `msisdr_set_hard` on a running stream: `msisdr_stop_async` and
`msisdr_start_async`. -/
structure StreamCalls where
  stopAsync : OpenDevice → OpenDevice × ℤ
  startAsync : OpenDevice → OpenDevice × ℤ

/-- `msisdr_stop_async` and `msisdr_start_async` on a device without a stream. -/
def noStream : StreamCalls := ⟨fun p => (p, -1), fun p => (p, -1)⟩

/-- What `msisdr_set_hard` stores before it writes a register. -/
def limitHard (p : MsisdrDev) : MsisdrDev :=
  let rate := limitRate p.rate
  let format := if p.formatAuto = .on then autoFormat rate else p.format
  { p with rate := rate, format := format, addr := formatAddr format }

/-- `msisdr_set_hard` between the calls on the stream. -/
def programHard (p : OpenDevice) : OpenDevice :=
  let p := { p with dev := limitHard p.dev }
  let p := p.write 0x07 (formatWord p.dev.format)
  let p := p.write 0x04 (hardReg4 p.dev)
  p.write 0x03 (hardReg3 p.dev)

/-- `msisdr_set_hard`. -/
def msisdrSetHard (stream : StreamCalls) (p : OpenDevice) : OpenDevice × ℤ :=
  if p.dev.asyncStatus = .running then
    let (p, r) := stream.stopAsync p
    if r < 0 then (p, -1)
    else
      let (p, r) := stream.startAsync (programHard (msisdrAdcStop p))
      if r < 0 then (p, -1) else (p, 0)
  else (programHard p, 0)

/-! ## The setters -/

/-- `msisdr_set_sample_rate`. -/
def msisdrSetSampleRate (stream : StreamCalls) (p : OpenDevice) (rate : UInt32) :
    OpenDevice × ℤ :=
  msisdrSetHard stream { p with dev := { p.dev with rate := rate } }

/-- The format of a name. -/
def formatOfName (v : String) : Option Format :=
  if v = "252_S16" then some .s16x252
  else if v = "336_S16" then some .s16x336
  else if v = "384_S16" then some .s16x384
  else if v = "504_S16" then some .s16x504
  else if v = "504_S8" then some .s8x504
  else none

/-- `msisdr_set_sample_format`. A name that is not supported turns the automatic choice off
and keeps the format. -/
def msisdrSetSampleFormat (stream : StreamCalls) (p : OpenDevice) (v : String) :
    OpenDevice × ℤ :=
  if v = "AUTO" then msisdrSetHard stream { p with dev := { p.dev with formatAuto := .on } }
  else
    match formatOfName v with
    | some format =>
        msisdrSetHard stream { p with dev := { p.dev with formatAuto := .off, format := format } }
    | none => ({ p with dev := { p.dev with formatAuto := .off } }, -1)

end MsiSdrDriver.Driver
