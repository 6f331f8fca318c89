import MsiSdrDriver.Async.TransferSizes
import MsiSdrDriver.Server.ClientStream
import MsiSdrDriver.Server.DeviceCommands
import MsiSdrDriver.Server.MeanCorrection

/-!
# From a transfer to the client

`msisdr_callback`, which takes the bytes of a transfer as 16-bit samples, corrects their mean value
and feeds them to the server: as they are in 16-bit mode, or the high byte of each in 8-bit mode, by
way of a buffer of a fixed size.

`sdrtcp_feed` is given half of a length each time, and the loop of the correction goes in steps of
two. Both are right because the samples of a transfer come in pairs. The samples of an automatic
format are at most `24 * 1008`, so that they fit in the fixed buffer as well
(`samples_reach_client`). Which values are passed on is said by `Corrects` and `StandsFor`.
-/

set_option autoImplicit false

namespace MsiSdrDriver.Server

open MsiSdrDriver.Async
open MsiSdrDriver.Convert
open MsiSdrDriver.Driver
open MsiSdrDriver.Foundations

/-! ## `msisdr_callback` -/

/-- `msisdr_android_t` as the callback uses it. -/
structure SampleDev where
  android : MsisdrAndroid
  convBuf : Option (List UInt8)
  convBufSize : UInt32

/-- The bytes as an array of `int16_t`. -/
def toSamples : List UInt8 → List ℤ
  | low :: high :: rest => toInt16 (low.toNat + 256 * high.toNat) :: toSamples rest
  | _ => []

/-- The limits of a corrected sample. -/
def limitSample (value : ℤ) : ℤ :=
  if value > 32767 then 32767 else if value < -32768 then -32768 else value

/-- The loop that corrects the samples, two at a time. It fails where it would go beyond them. -/
def correctSamples (dev : MsisdrAndroid) : List ℤ → Option (MsisdrAndroid × List ℤ)
  | [] => some (dev, [])
  | [_] => none
  | i :: q :: rest =>
      let si := Float32.ofInt i
      let sq := Float32.ofInt q
      let dcAvgI := 0.998 * dev.dcAvgI + 0.002 * si
      let dcAvgQ := 0.998 * dev.dcAvgQ + 0.002 * sq
      let ci := limitSample (si - dcAvgI).toInt32.toInt
      let cq := limitSample (sq - dcAvgQ).toInt32.toInt
      (correctSamples { dev with dcAvgI := dcAvgI, dcAvgQ := dcAvgQ } rest).map
        fun (dev, more) => (dev, ci :: cq :: more)

/-- `(unsigned char) ((sample >> 8) + 128)`. -/
def toUnsignedChar (sample : ℤ) : UInt8 := UInt8.ofInt (sample >>> (8 : ℕ) + 128)

/-- The buffer of the transfer with other samples in it. -/
def replaceSamples (buf : Samples) (samples : List ℤ) : Samples where
  data := (samples.flatMap sampleBytes ++ buf.data.drop (2 * samples.length)).take buf.data.length
  word := (List.length_take_le _ _).trans_lt buf.word

/-- The correction of the mean values, where it is enabled. -/
def dcCorrection (dev : MsisdrAndroid) (samples : List ℤ) : Option (MsisdrAndroid × List ℤ) :=
  if dev.dcCorrectionEnabled ∧ samples.length ≥ 2 then correctSamples dev samples
  else some (dev, samples)

/-- What `sdrtcp_feed` is called with. It fails where the loop of the 8-bit mode would go beyond its
buffer. -/
def feedSamples (dev : SampleDev) (buf : Samples) (samples : List ℤ) :
    Option (SampleDev × Option Chunk) :=
  if dev.android.enable16bit then some (dev, some (.ofBytes buf.data buf.word))
  else
    match dev.convBuf with
    | none => some (dev, none)
    | some out =>
        if few : samples.length ≤ dev.convBufSize.toNat then
          if samples.length ≤ out.length then
            let bytes := samples.map toUnsignedChar
            let chunk := Chunk.ofBytes bytes (by
              rw [List.length_map]
              exact few.trans_lt dev.convBufSize.toNat_lt)
            some ({ dev with convBuf := some (bytes ++ out.drop samples.length) }, some chunk)
          else none
        else some (dev, none)

/-- `msisdr_callback`: the device, and what `sdrtcp_feed` is called with. -/
def msisdrCallback (dev : SampleDev) (buf : Samples) : Option (SampleDev × Option Chunk) :=
  match dev.android.miriDev with
  | none => some (dev, none)
  | some _ =>
      (dcCorrection dev.android (toSamples buf.data)).bind fun (android, samples) =>
        feedSamples { dev with android := android } (replaceSamples buf samples) samples

/-! ## What it is called with -/

/-- An `int16_t`. -/
structure IsInt16 (sample : ℤ) : Prop where
  least : -32768 ≤ sample
  most : sample < 32768

theorem toNat_ofInt (value : ℤ) : ((UInt8.ofInt value).toNat : ℤ) = value % 256 := by
  rw [UInt8.ofInt, UInt8.toNat_ofNat']
  omega

theorem bmod_int16 {value : ℤ} (range : IsInt16 value) :
    Int.bmod (value % 65536) (2 ^ 16) = value := by
  obtain ⟨least, most⟩ := range
  have whole : (2 : ℕ) ^ 16 = 65536 := rfl
  simp only [Int.bmod_def, whole]
  split
  · omega
  · omega

/-- A sample is read as it was written. -/
theorem toSamples_cons {sample : ℤ} (range : IsInt16 sample) (rest : List UInt8) :
    toSamples (sampleBytes sample ++ rest) = sample :: toSamples rest := by
  have number : (((UInt8.ofInt sample).toNat +
      256 * (UInt8.ofInt (sample >>> (8 : ℕ))).toNat : ℕ) : ℤ) = sample % 65536 := by
    rw [Nat.cast_add, Nat.cast_mul, toNat_ofInt, toNat_ofInt, Int.shiftRight_eq_div_pow]
    omega
  have read : toInt16 ((UInt8.ofInt sample).toNat +
      256 * (UInt8.ofInt (sample >>> (8 : ℕ))).toNat) = sample :=
    (congrArg (Int.bmod · (2 ^ 16)) number).trans (bmod_int16 range)
  exact congrArg (· :: toSamples rest) read

theorem toSamples_sampleBytes {samples : List ℤ} (range : ∀ sample ∈ samples, IsInt16 sample) :
    toSamples (samples.flatMap sampleBytes) = samples := by
  induction samples with
  | nil => rfl
  | cons sample rest ih =>
      rw [List.flatMap_cons, toSamples_cons (range sample List.mem_cons_self),
        ih fun other member => range other (List.mem_cons_of_mem _ member)]

/-- A signed field, scaled to sixteen bits or less. -/
theorem scaled_isInt16 (value offset : ℕ) {width shift : ℕ} (some : 0 < width)
    (fits : width + shift ≤ 16) : IsInt16 (2 ^ shift * signedField value offset width) := by
  obtain ⟨half, rfl⟩ := Nat.exists_eq_add_of_le' some
  have positive : 0 < 2 ^ (half + 1) := Nat.two_pow_pos _
  have least := Int.le_bmod (x := bitField value offset (half + 1)) positive
  have most := Int.bmod_lt (x := bitField value offset (half + 1)) positive
  have whole : (2 : ℕ) ^ (half + 1) = 2 * 2 ^ half := Nat.pow_succ'
  have room : (2 : ℤ) ^ shift * 2 ^ half ≤ 2 ^ 15 := by
    rw [← pow_add]
    exact pow_le_pow_right₀ (by decide) (by omega)
  have scale : (0 : ℤ) < 2 ^ shift := by positivity
  rw [signedField]
  generalize Int.bmod (bitField value offset (half + 1)) (2 ^ (half + 1)) = field at least most ⊢
  rw [whole] at least most
  push_cast at least most
  have low : -(2 : ℤ) ^ half ≤ field := by omega
  have high : field + 1 ≤ (2 : ℤ) ^ half := by omega
  have lower := mul_le_mul_of_nonneg_left low scale.le
  have upper := mul_le_mul_of_nonneg_left high scale.le
  rw [mul_neg] at lower
  rw [mul_add, mul_one] at upper
  constructor
  · linarith
  · linarith

theorem sampleAt_isInt16 (buf : ℕ → UInt8) (block i : ℕ) (layout : S16Format) :
    IsInt16 (layout.sampleAt buf block i) := by
  cases layout with
  | s16x252 => exact scaled_isInt16 _ _ (by decide) (by decide)
  | s16x336 => exact scaled_isInt16 _ _ (by decide) (by decide)
  | s16x384 => exact scaled_isInt16 _ _ (by decide) (by omega)
  | s16x504 => exact scaled_isInt16 _ _ (by decide) (by decide)

/-! ## A call -/

/-- The server is open: what `openAsync` has stored before it calls `msisdr_read_async`. -/
structure Serves (dev : SampleDev) : Prop where
  miriDev : dev.android.miriDev.isSome = true
  convBufSize : dev.convBufSize = 32768
  convBuf : ∃ out, dev.convBuf = some out ∧ out.length = 32768

/-- **The values that are passed on.** With the correction off they are the samples, and the mean
values stay as they are. With the correction on each is its sample without the mean value of its
channel, and the mean values go on from those that `dev` has to those that `dev'` has. -/
structure Corrects (dev : MsisdrAndroid) (samples : List ℤ) (dev' : MsisdrAndroid)
    (corrected : List ℤ) : Prop where
  length : corrected.length = samples.length
  off : dev.dcCorrectionEnabled = false → corrected = samples ∧ dev' = dev
  i : dev.dcCorrectionEnabled = true → Centred 0 dev.dcAvgI samples corrected
  q : dev.dcCorrectionEnabled = true → Centred 1 dev.dcAvgQ samples corrected
  means : dev.dcCorrectionEnabled = true → dev' = { dev with
    dcAvgI := runningMean dev.dcAvgI (channel 0 samples)
    dcAvgQ := runningMean dev.dcAvgQ (channel 1 samples) }

/-- **How values are passed on**: as two bytes each in 16-bit mode, and as the quotient by 256,
moved to the range from 0 to 255, in 8-bit mode. -/
def StandsFor (wide : Bool) (values : List ℤ) (bytes : List UInt8) : Prop :=
  if wide then bytes = values.flatMap sampleBytes
  else bytes.map (fun byte => (byte.toNat : ℤ)) = values.map fun value => value / 256 + 128

/-- **Every sample of a call is passed on.** -/
def PassesOn (dev : SampleDev) (samples : List ℤ) (call : Samples) : Prop :=
  ∃ dev' chunk corrected, msisdrCallback dev call = some (dev', some chunk) ∧ Serves dev' ∧
    Corrects dev.android samples dev'.android corrected ∧
    StandsFor dev.android.enable16bit corrected chunk.buf

theorem limitSample_eq (value : ℤ) : limitSample value = max (-32768) (min 32767 value) := by
  unfold limitSample
  split_ifs <;> omega

/-- **The loop of the correction**, for samples that come in pairs. -/
theorem correctSamples_pairs (dev : MsisdrAndroid) (samples : List ℤ)
    (pairs : 2 ∣ samples.length) :
    ∃ corrected, correctSamples dev samples = some ({ dev with
        dcAvgI := runningMean dev.dcAvgI (channel 0 samples)
        dcAvgQ := runningMean dev.dcAvgQ (channel 1 samples) }, corrected) ∧
      corrected.length = samples.length ∧ Centred 0 dev.dcAvgI samples corrected ∧
      Centred 1 dev.dcAvgQ samples corrected ∧ ∀ value ∈ corrected, IsInt16 value := by
  induction dev, samples using correctSamples.induct with
  | case1 dev => exact ⟨[], rfl, rfl, .nil 0 _, .nil 1 _, fun _ none => nomatch none⟩
  | case2 dev sample =>
      rw [List.length_singleton] at pairs
      omega
  | case3 dev i q rest si sq dcAvgI dcAvgQ ih =>
      rw [List.length_cons, List.length_cons] at pairs
      obtain ⟨corrected, ran, length, centredI, centredQ, range⟩ := ih (by omega)
      refine ⟨[centred dcAvgI i, centred dcAvgQ q] ++ corrected, ?_, ?_, ?_, ?_, ?_⟩
      · rw [correctSamples, ran]
        simp only [limitSample_eq, Option.map_some, channel_cons]
        rfl
      · rw [List.length_append, length, List.length_cons, List.length_cons]
        exact Nat.add_comm 2 _
      · exact centredI.cons (by decide) rfl rfl rfl
      · exact centredQ.cons (by decide) rfl rfl rfl
      · intro value member
        rcases List.mem_append.mp member with pair | later
        · rcases List.mem_pair.mp pair with rfl | rfl
          · exact ⟨(centred_range dcAvgI i).1, (centred_range dcAvgI i).2⟩
          · exact ⟨(centred_range dcAvgQ q).1, (centred_range dcAvgQ q).2⟩
        · exact range value later

theorem dcCorrection_pairs (dev : MsisdrAndroid) {samples : List ℤ}
    (range : ∀ sample ∈ samples, IsInt16 sample) (pairs : 2 ∣ samples.length) :
    ∃ dev' corrected, dcCorrection dev samples = some (dev', corrected) ∧
      Corrects dev samples dev' corrected ∧ ∀ value ∈ corrected, IsInt16 value := by
  rw [dcCorrection]
  cases enabled : dev.dcCorrectionEnabled with
  | false => exact ⟨dev, samples, by simp, ⟨rfl, fun _ => ⟨rfl, rfl⟩, by simp [enabled],
      by simp [enabled], by simp [enabled]⟩, range⟩
  | true =>
      by_cases some : samples.length ≥ 2
      · obtain ⟨corrected, ran, length, i, q, range⟩ := correctSamples_pairs dev samples pairs
        rw [if_pos ⟨rfl, some⟩]
        exact ⟨_, corrected, ran, ⟨length, by simp [enabled], fun _ => i, fun _ => q, fun _ => rfl⟩,
          range⟩
      · obtain rfl : samples = [] := List.length_eq_zero_iff.mp (by omega)
        exact ⟨dev, [], by simp, ⟨rfl, by simp [enabled], fun _ => .nil 0 _, fun _ => .nil 1 _,
          fun _ => rfl⟩, range⟩

/-- The high byte of a sample, moved to the range from 0 to 255. -/
theorem toUnsignedChar_toNat {value : ℤ} (range : IsInt16 value) :
    ((toUnsignedChar value).toNat : ℤ) = value / 256 + 128 := by
  obtain ⟨least, most⟩ := range
  rw [toUnsignedChar, toNat_ofInt, Int.shiftRight_eq_div_pow]
  omega

theorem standsFor_narrow {values : List ℤ} (range : ∀ value ∈ values, IsInt16 value) :
    StandsFor false values (values.map toUnsignedChar) := by
  show (values.map toUnsignedChar).map _ = _
  rw [List.map_map]
  apply List.map_congr_left
  intro value member
  exact toUnsignedChar_toNat (range value member)

/-- The device stays open, and in its mode. -/
theorem Corrects.keeps {dev dev' : MsisdrAndroid} {samples corrected : List ℤ}
    (corrects : Corrects dev samples dev' corrected) :
    dev'.miriDev = dev.miriDev ∧ dev'.enable16bit = dev.enable16bit := by
  cases enabled : dev.dcCorrectionEnabled with
  | false =>
      rw [(corrects.off enabled).2]
      exact ⟨rfl, rfl⟩
  | true =>
      rw [corrects.means enabled]
      exact ⟨rfl, rfl⟩

theorem chunk_buf {bytes : List UInt8} (word : bytes.length < 2 ^ 32)
    (pairs : 2 ∣ bytes.length) : (Chunk.ofBytes bytes word).buf = bytes :=
  List.take_of_length_le (by omega)

/-- What is fed of samples that come in pairs and are not too many for the 8-bit mode. -/
theorem feedSamples_pairs {dev : SampleDev} (serves : Serves dev) {samples : List ℤ}
    (range : ∀ sample ∈ samples, IsInt16 sample) (pairs : 2 ∣ samples.length)
    (few : samples.length ≤ 32768) {buf : Samples}
    (data : buf.data = samples.flatMap sampleBytes) :
    ∃ dev' chunk, feedSamples dev buf samples = some (dev', some chunk) ∧ Serves dev' ∧
      dev'.android = dev.android ∧ StandsFor dev.android.enable16bit samples chunk.buf := by
  obtain ⟨out, allocated, size⟩ := serves.convBuf
  have limit : dev.convBufSize.toNat = 32768 := congrArg UInt32.toNat serves.convBufSize
  rw [feedSamples]
  cases sixteen : dev.android.enable16bit with
  | true =>
      rw [if_pos rfl]
      refine ⟨_, _, rfl, serves, rfl, ?_⟩
      have even : 2 ∣ buf.data.length := by
        rw [data, length_flatMap_same sampleBytes_length]
        exact Nat.dvd_mul_left 2 _
      exact (chunk_buf buf.word even).trans data
  | false =>
      rw [if_neg (by decide), allocated]
      dsimp only
      rw [dif_pos (by omega), if_pos (by omega)]
      refine ⟨_, _, rfl, ⟨serves.miriDev, serves.convBufSize, _, rfl, ?_⟩, rfl, ?_⟩
      · rw [List.length_append, List.length_map, List.length_drop]
        omega
      · rw [chunk_buf _ (by rwa [List.length_map])]
        exact standsFor_narrow range

/-- Samples in the place of as many others. -/
theorem replaceSamples_data {call : Samples} {samples corrected : List ℤ}
    (data : call.data = samples.flatMap sampleBytes)
    (count : corrected.length = samples.length) :
    (replaceSamples call corrected).data = corrected.flatMap sampleBytes := by
  have length : call.data.length = samples.length * 2 := by
    rw [data, length_flatMap_same sampleBytes_length]
  have written := length_flatMap_same sampleBytes_length corrected
  rw [replaceSamples]
  dsimp only
  rw [List.drop_of_length_le (by omega), List.append_nil, List.take_of_length_le (by omega)]

theorem msisdrCallback_passesOn {dev : SampleDev} (serves : Serves dev) {samples : List ℤ}
    (range : ∀ sample ∈ samples, IsInt16 sample) (pairs : 2 ∣ samples.length)
    (few : samples.length ≤ 32768) {call : Samples}
    (data : call.data = samples.flatMap sampleBytes) : PassesOn dev samples call := by
  obtain ⟨device, opened⟩ := Option.isSome_iff_exists.mp serves.miriDev
  obtain ⟨android, corrected, ran, corrects, range'⟩ := dcCorrection_pairs dev.android range pairs
  obtain ⟨miriDev, wide⟩ := corrects.keeps
  have count := corrects.length
  have served : Serves { dev with android := android } :=
    ⟨miriDev ▸ serves.miriDev, serves.convBufSize, serves.convBuf⟩
  obtain ⟨dev', chunk, fed, serves', same, bytes⟩ := feedSamples_pairs served range'
    (by rwa [count]) (by rwa [count]) (replaceSamples_data data count)
  refine ⟨dev', chunk, corrected, ?_, serves', ?_, ?_⟩
  · rw [msisdrCallback, opened, data, toSamples_sampleBytes range]
    dsimp only
    rw [ran, Option.bind_some]
    exact fed
  · rw [same]
    exact corrects
  · rw [← wide]
    exact bytes

/-! ## A transfer -/

/-- The samples of a transfer in a 16-bit format. -/
def transferSamples (layout : S16Format) (packets : List Packet) : List ℤ :=
  packets.flatMap fun packet =>
    (List.range (packet.actualLength / 1024)).flatMap fun b =>
      (List.range layout.perBlock).map fun i => layout.sampleAt packet.buffer (1024 * b) i

theorem convertAll_samples {format : Format} {layout : S16Format}
    (wide : layout? format = some layout) (p : SampleSync) (packets : List Packet) :
    (convertAll format p packets).2 = (transferSamples layout packets).flatMap sampleBytes := by
  induction packets generalizing p with
  | nil => rfl
  | cons packet rest ih =>
      have blocks : ((packet.actualLength : ℤ) / 1024).toNat = packet.actualLength / 1024 := by
        omega
      rw [convertAll]
      dsimp only
      rw [ih, convert_of_layout wide, Conversion.stored, convert_dst, blocks, transferSamples,
        transferSamples, List.flatMap_cons, List.flatMap_append]

theorem transferSamples_isInt16 (layout : S16Format) (packets : List Packet) :
    ∀ sample ∈ transferSamples layout packets, IsInt16 sample := by
  intro sample member
  obtain ⟨packet, -, inPacket⟩ := List.mem_flatMap.mp member
  obtain ⟨block, -, inBlock⟩ := List.mem_flatMap.mp inPacket
  obtain ⟨i, -, rfl⟩ := List.mem_map.mp inBlock
  exact sampleAt_isInt16 packet.buffer (1024 * block) i layout

/-- The samples come in pairs. -/
theorem transferSamples_pairs (layout : S16Format) (packets : List Packet) :
    2 ∣ (transferSamples layout packets).length := by
  have even : 2 ∣ layout.perBlock := by
    cases layout with
    | s16x252 | s16x336 | s16x384 | s16x504 => decide
  induction packets with
  | nil => exact Nat.dvd_zero 2
  | cons packet rest ih =>
      rw [transferSamples, List.flatMap_cons, List.length_append]
      refine Nat.dvd_add ?_ ih
      rw [length_flatMap_same fun b => by rw [List.length_map, List.length_range]]
      exact Nat.dvd_mul_left_of_dvd even _

/-- A format that `msisdr_set_hard` chooses by itself. -/
def Automatic (format : Format) : Prop := ∃ rate, format = autoFormat rate

theorem Automatic.layout {format : Format} (automatic : Automatic format) :
    ∃ layout, layout? format = some layout := by
  obtain ⟨rate, rfl⟩ := automatic
  rw [autoFormat]
  split_ifs
  · exact ⟨_, rfl⟩
  · exact ⟨_, rfl⟩
  · exact ⟨_, rfl⟩
  · exact ⟨_, rfl⟩

/-- **All samples of a transfer reach the client**: they come in pairs, they fit in the buffer of
the 8-bit mode, the application is called once with all of them, and passes all of them on. -/
def ReachesClient (format : Format) (xfer : CompletedXfer) (calls : List (List UInt8)) : Prop :=
  ∃ layout samples, layout? format = some layout ∧
    samples = transferSamples layout xfer.converted ∧
    2 ∣ samples.length ∧ samples.length ≤ 32768 ∧
    calls = (if samples = [] then [] else [samples.flatMap sampleBytes]) ∧
    ∀ call : Samples, call.data ∈ calls → ∀ dev, Serves dev → PassesOn dev samples call

theorem reachesClient {p : TransferDev} (callback : p.feed.cb = true)
    (whole : p.feed.xferOutLen = 0) (automatic : Automatic p.format) {xfer : CompletedXfer}
    (fits : xfer.Fits) {done : Completed} (handles : Handles p xfer done) :
    ReachesClient p.format xfer done.calls := by
  obtain ⟨layout, wide⟩ := automatic.layout
  have bytes := convertAll_samples wide p.sync xfer.converted
  have pairs := transferSamples_pairs layout xfer.converted
  have few : (transferSamples layout xfer.converted).length ≤ 32768 := by
    have stored := (stored_le fits p.format p.sync).trans (samplesSize_le xfer.type p.format)
    rw [bytes, length_flatMap_same sampleBytes_length] at stored
    omega
  have calls : done.calls = if transferSamples layout xfer.converted = [] then []
      else [(transferSamples layout xfer.converted).flatMap sampleBytes] := by
    rw [handles.calls callback whole, bytes]
    by_cases empty : transferSamples layout xfer.converted = []
    · have none : (transferSamples layout xfer.converted).flatMap sampleBytes = [] :=
        congrArg (List.flatMap sampleBytes) empty
      rw [if_pos empty, if_pos none]
    · rw [if_neg empty, if_neg]
      intro none
      have length := length_flatMap_same sampleBytes_length (transferSamples layout xfer.converted)
      rw [none, List.length_nil] at length
      exact empty (List.length_eq_zero_iff.mp (by omega))
  refine ⟨layout, _, wide, rfl, pairs, few, calls, fun call member dev serves => ?_⟩
  refine msisdrCallback_passesOn serves (transferSamples_isInt16 layout _) pairs few ?_
  rw [calls] at member
  split at member
  · cases member
  · exact List.mem_singleton.mp member

/-! ## Runs -/

theorem formatAfter_automatic {format : Format} (automatic : Automatic format)
    {events : List StreamEvent} (chosen : ∀ next, .setHard next ∈ events → Automatic next) :
    Automatic (formatAfter format events) := by
  induction events generalizing format with
  | nil => exact automatic
  | cons event rest ih =>
      have later : ∀ next, .setHard next ∈ rest → Automatic next :=
        fun next member => chosen next (List.mem_cons_of_mem _ member)
      cases event with
      | setHard next => exact ih (chosen next List.mem_cons_self) later
      | completes xfer => exact ih automatic later

/-- **No transfer overruns a buffer or is dropped.** After every run, in any order of formats and
types of transfers, what the converters store of the next transfer fits in the size that the
callback asks for. While the format is automatic and the application is called with whole transfers,
all its samples reach the client. -/
theorem samples_reach_client (p : TransferDev) (fresh : p.feed.xferOutPos = 0)
    (events : List StreamEvent) (fit : EventsFit events) :
    ∃ q completed, p.run events = some (q, completed) ∧ ∀ xfer : CompletedXfer, xfer.Fits →
      (convertAll q.format q.sync xfer.converted).2.length ≤ samplesSize xfer.type q.format ∧
      ∃ done, libusbCallback q xfer = some done ∧
        (p.feed.cb = true → p.feed.xferOutLen = 0 → Automatic p.format →
          (∀ format, .setHard format ∈ events → Automatic format) →
            ReachesClient q.format xfer done.calls) := by
  obtain ⟨q, completed, ran, keeps, format⟩ := run_returns (feedReady_of_fresh fresh) fit
  refine ⟨q, completed, ran, fun xfer fits => ⟨stored_le fits q.format q.sync, ?_⟩⟩
  obtain ⟨done, called, handles⟩ := callback_handles keeps.ready fits
  refine ⟨done, called, fun callback whole automatic chosen => ?_⟩
  refine reachesClient (keeps.cb.trans callback) (keeps.xferOutLen.trans whole) ?_ fits handles
  rw [format]
  exact formatAfter_automatic automatic chosen

/-- A full BULK transfer, another format, and a full ISOC transfer. -/
theorem samples_reach_client_otherFormat :
    ∃ q completed done,
      startedStream.run [.completes (.bulk ⟨fun _ => 0, 16384⟩), .setHard .s16x504] =
        some (q, completed) ∧
      libusbCallback q (.isoc fun _ => ⟨fun _ => 0, 3072⟩) = some done ∧
      ReachesClient q.format (.isoc fun _ => ⟨fun _ => 0, 3072⟩) done.calls := by
  obtain ⟨q, completed, ran, handled⟩ := samples_reach_client startedStream rfl
    [.completes (.bulk ⟨fun _ => 0, 16384⟩), .setHard .s16x504] (by
      intro xfer member
      rcases List.mem_cons.mp member with same | later
      · obtain rfl := StreamEvent.completes.inj same
        exact Nat.le_refl 16384
      · cases List.mem_singleton.mp later)
  obtain ⟨-, done, called, reaches⟩ := handled (.isoc fun _ => ⟨fun _ => 0, 3072⟩)
    fun _ => Nat.le_refl 3072
  refine ⟨q, completed, done, ran, called, reaches rfl rfl ⟨2000000, rfl⟩ ?_⟩
  intro format member
  rcases List.mem_cons.mp member with other | last
  · cases other
  · obtain rfl := StreamEvent.setHard.inj (List.mem_singleton.mp last)
    exact ⟨15000000, rfl⟩

end MsiSdrDriver.Server
