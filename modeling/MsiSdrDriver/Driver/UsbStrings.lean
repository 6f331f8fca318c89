import MsiSdrDriver.Driver.Setters
import MsiSdrDriver.Foundations.Numerals

/-!
# The devices on the bus and their names

`devices.c` lists the devices that the library supports, and announces a name and three strings for
each by its index. `msisdr_open` takes the index, and `msisdr_get_usb_strings` answers with the
strings of the opened device. The serial number is made from the place of the device on the bus, and
it names the device (`serial_names_device`).

The strings are made twice, in two ways. Where a device has strings of its own the list does not use
them. Where it has none, the two take different ends of a path that is too long for `usb_path`, and
the list erases the colon of a path that is empty. `opened_as_announced_iff` says exactly when a
device is opened under the strings that were announced for it.
-/

set_option autoImplicit false

namespace MsiSdrDriver.Driver

open MsiSdrDriver.Foundations

/-! ## The table -/

/-- The characters of a C string before its end. -/
abbrev CString := List Char

/-- `msisdr_device_t`. -/
structure MsisdrDevice where
  vid : UInt16
  pid : UInt16
  name : CString
  manufacturer : CString
  product : CString

/-- `msisdr_devices`. -/
def msisdrDevices : List MsisdrDevice :=
  [⟨0x1df7, 0x2500, "Mirics MSi2500 default (e.g. VTX3D card)".toList, "Mirics".toList,
      "MSi2500".toList⟩,
    ⟨0x1df7, 0x3000, "SDRplay RSP1A".toList, "SDRPlay".toList, "RSP1A".toList⟩,
    ⟨0x1df7, 0x3010, "SDRplay RSP1A".toList, "SDRPlay".toList, "RSP2".toList⟩,
    ⟨0x2040, 0xd300, "Hauppauge WinTV 133559 LF".toList, "Hauppauge".toList,
      "WinTV 133559 LF".toList⟩,
    ⟨0x07ca, 0x8591, "AverMedia A859 Pure DVBT".toList, "AverTV".toList,
      "A859 Pure DVBT".toList⟩,
    ⟨0x04bb, 0x0537, "IO-DATA GV-TV100 stick".toList, "IO-DATA".toList, "GV-TV100".toList⟩,
    ⟨0x0511, 0x0037, "Logitec LDT-1S310U/J".toList, "Logitec".toList, "LDT-1S310U/J".toList⟩]

/-- `msisdr_device_get`. -/
def msisdrDeviceGet (vid pid : UInt16) : Option MsisdrDevice :=
  msisdrDevices.find? fun device => device.vid = vid ∧ device.pid = pid

/-! ## The bus -/

/-- What `libusb_get_string_descriptor_ascii` leaves in a cleared buffer of 256 characters: nothing
where the device has no such string. -/
structure UsbString where
  chars : CString
  ended : chars.length < 256
  deriving DecidableEq

/-- A device on the bus. `ports` are the port numbers from the device up to its root hub. -/
structure UsbDevice where
  idVendor : UInt16
  idProduct : UInt16
  busNumber : UInt8
  ports : List UInt8
  manufacturer : UsbString
  product : UsbString
  serialNumber : UsbString
  deriving DecidableEq

/-- The `while` loop of `libusb_get_port_numbers`, with the free places in front of the numbers that
it has stored, and whether it got to the end. -/
def portLoop : List UInt8 → ℕ → List UInt8 → List UInt8 × Bool
  | [], _, stored => (stored, true)
  | port :: parents, free, stored =>
      if port = 0 then (stored, true)
      else
        match free with
        | 0 => (stored, false)
        | free + 1 => portLoop parents free (port :: stored)

/-- `libusb_get_port_numbers`: the numbers in the array, from the root down, and how many there are.
There is no count where the array is too small (`LIBUSB_ERROR_OVERFLOW`). -/
def libusbGetPortNumbers (d : UsbDevice) (len : ℕ) : List UInt8 × Option ℕ :=
  let (stored, ended) := portLoop d.ports len []
  (stored, if ended then some stored.length else none)

/-- The size of `usb_path`. -/
def usbPathSize : ℕ := 16

/-! ## The strings -/

/-- The three strings of a device. -/
structure UsbStrings where
  manufact : CString
  product : CString
  serial : CString
  deriving DecidableEq

/-- The strings after `memset`. -/
def noStrings : UsbStrings := ⟨[], [], []⟩

/-- The digits that `sprintf` writes. -/
def digits : Glyphs Char where
  base := 10
  positional := Nat.one_lt_succ_succ 8
  digit := fun c => if c.isDigit then some (c.toNat - 48) else none
  glyph := fun d => Char.ofNat (48 + d)
  digit_glyph := by decide

/-- `sprintf` with `"%d:"`. -/
def printBus (bus : UInt8) : CString := digits.writeMagnitude bus.toNat ++ [':']

/-- `sprintf` with `"%d."` for each port. -/
def printPorts (ports : List UInt8) : CString := digits.writeEach '.' (ports.map UInt8.toNat)

/-- `strncpy` into a cleared buffer, which leaves room for the end. -/
def strncpy (n : ℕ) (s : CString) : CString := s.take n

/-- The serial number in the list of devices. The last character is overwritten. -/
def listedSerial (d : UsbDevice) : CString :=
  let (usbPath, pathLen) := libusbGetPortNumbers d usbPathSize
  let pathLen := pathLen.getD usbPathSize
  (printBus d.busNumber ++ printPorts (usbPath.take pathLen)).dropLast

/-- The serial number that `msisdr_setup` makes. -/
def setupSerial (d : UsbDevice) : CString :=
  match libusbGetPortNumbers d usbPathSize with
  | (usbPath, some pathLen) =>
      if 0 < pathLen then (printBus d.busNumber ++ printPorts (usbPath.take pathLen)).dropLast
      else printBus d.busNumber
  | (_, none) => printBus d.busNumber

/-- The strings that `msisdr_setup` stores. The product follows the manufacturer, whether or not the
device has one. -/
def setupStrings (d : UsbDevice) : UsbStrings :=
  let names : CString × CString :=
    match d.manufacturer.chars, msisdrDeviceGet d.idVendor d.idProduct with
    | [], some devinfo => (strncpy 255 devinfo.manufacturer, strncpy 255 devinfo.product)
    | own, _ => (own, d.product.chars)
  let serial := if d.serialNumber.chars = [] then setupSerial d else d.serialNumber.chars
  ⟨names.1, names.2, serial⟩

/-! ## The list of devices -/

/-- `msisdr_get_device_count`. -/
def deviceCountLoop : List UsbDevice → UInt32 → UInt32
  | [], ret => ret
  | d :: rest, ret =>
      if (msisdrDeviceGet d.idVendor d.idProduct).isSome then deviceCountLoop rest (ret + 1)
      else deviceCountLoop rest ret

def msisdrGetDeviceCount (list : List UsbDevice) : UInt32 := deviceCountLoop list 0

/-- The loop that looks for an index: `j` supported devices are passed. -/
def deviceLoop (index : UInt32) : List UsbDevice → ℕ → Option (UsbDevice × MsisdrDevice)
  | [], _ => none
  | d :: rest, j =>
      match msisdrDeviceGet d.idVendor d.idProduct with
      | some device => if j = index.toNat then some (d, device) else deviceLoop index rest (j + 1)
      | none => deviceLoop index rest j

/-- `msisdr_get_device_name`. -/
def msisdrGetDeviceName (list : List UsbDevice) (index : UInt32) : CString :=
  match deviceLoop index list 0 with
  | some (_, device) => device.name
  | none => []

/-- `msisdr_get_device_usb_strings`. -/
def msisdrGetDeviceUsbStrings (list : List UsbDevice) (index : UInt32) : ℤ × UsbStrings :=
  match deviceLoop index list 0 with
  | some (d, device) => (0, ⟨device.manufacturer, device.product, listedSerial d⟩)
  | none => (-1, noStrings)

/-! ## Opening -/

/-- An opened device with its strings. -/
structure NamedDevice where
  index : UInt32
  device : OpenDevice
  strings : UsbStrings

/-- `msisdr_open`. `usable` are the devices that can be opened and whose interface can be claimed,
and the kind of the transfers depends on the platform. -/
def msisdrOpen (stream : StreamCalls) (transfer : Transfer) (usable : UsbDevice → Bool)
    (list : List UsbDevice) (index : UInt32) : Option NamedDevice :=
  match deviceLoop index list 0 with
  | some (d, _) =>
      if usable d then some ⟨index, msisdrSetup stream d.idProduct transfer, setupStrings d⟩
      else none
  | none => none

/-- `msisdr_get_usb_strings`. -/
def msisdrGetUsbStrings : Option NamedDevice → ℤ × UsbStrings
  | some dev =>
      (0, ⟨strncpy 255 dev.strings.manufact, strncpy 255 dev.strings.product,
        strncpy 255 dev.strings.serial⟩)
  | none => (-1, noStrings)

/-! ## The path of a device -/

namespace UsbDevice

/-- The port numbers from the root hub down. A hub with port 0 is a root hub. -/
def path (d : UsbDevice) : List UInt8 := (d.ports.takeWhile (· ≠ 0)).reverse

/-- What is in `usb_path` when it is full: the far end of the path. -/
def pathEnd (d : UsbDevice) : List UInt8 := d.path.drop (d.path.length - usbPathSize)

theorem pathEnd_of_short {d : UsbDevice} (short : d.path.length ≤ usbPathSize) :
    d.pathEnd = d.path := by
  rw [pathEnd, Nat.sub_eq_zero_of_le short, List.drop_zero]

theorem length_pathEnd_le (d : UsbDevice) : d.pathEnd.length ≤ usbPathSize := by
  rw [pathEnd, List.length_drop]
  omega

end UsbDevice

theorem portLoop_eq (ports : List UInt8) (free : ℕ) (stored : List UInt8) :
    portLoop ports free stored =
      (((ports.takeWhile (· ≠ 0)).take free).reverse ++ stored,
        decide ((ports.takeWhile (· ≠ 0)).length ≤ free)) := by
  induction ports generalizing free stored with
  | nil => simp [portLoop]
  | cons port parents ih =>
      unfold portLoop
      by_cases root : port = 0
      · simp [root]
      · cases free with
        | zero => simp [root]
        | succ free => simp [root, ih]

theorem libusbGetPortNumbers_eq (d : UsbDevice) :
    libusbGetPortNumbers d usbPathSize =
      (d.pathEnd, if d.path.length ≤ usbPathSize then some d.path.length else none) := by
  have stored : ((d.ports.takeWhile (· ≠ 0)).take usbPathSize).reverse = d.pathEnd := by
    rw [UsbDevice.pathEnd, UsbDevice.path, List.length_reverse, List.reverse_take]
  have count : (d.ports.takeWhile (· ≠ 0)).length = d.path.length := List.length_reverse.symm
  rw [libusbGetPortNumbers, portLoop_eq, List.append_nil, stored, count]
  by_cases short : d.path.length ≤ usbPathSize
  · simp [short, UsbDevice.pathEnd_of_short short]
  · simp [short]

/-! ## The serial number -/

theorem listedSerial_eq (d : UsbDevice) :
    listedSerial d = (printBus d.busNumber ++ printPorts d.pathEnd).dropLast := by
  rw [listedSerial, libusbGetPortNumbers_eq]
  dsimp only
  rw [List.take_of_length_le]
  split
  · next short => rw [UsbDevice.pathEnd_of_short short, Option.getD_some]
  · exact d.length_pathEnd_le

theorem setupSerial_eq (d : UsbDevice) :
    setupSerial d =
      if 0 < d.path.length ∧ d.path.length ≤ usbPathSize then listedSerial d
      else printBus d.busNumber := by
  rw [setupSerial, listedSerial_eq, libusbGetPortNumbers_eq]
  by_cases short : d.path.length ≤ usbPathSize
  · simp [short, UsbDevice.pathEnd_of_short short]
  · simp [short]

/-- A path that is not empty ends with a dot. -/
theorem printPorts_ends {ports : List UInt8} (some : ports ≠ []) :
    printPorts ports = (printPorts ports).dropLast ++ ['.'] := by
  obtain ⟨front, last, rfl⟩ := (List.eq_nil_or_concat ports).resolve_left some
  rw [List.concat_eq_append, printPorts, List.map_append, List.map_singleton,
    Glyphs.writeEach_concat, List.dropLast_concat]

/-- It has a digit at least before that. -/
theorem printPorts_length {ports : List UInt8} (some : ports ≠ []) :
    1 < (printPorts ports).length := by
  obtain ⟨port, rest, rfl⟩ := List.exists_cons_of_ne_nil some
  have digit := List.length_pos_of_ne_nil (digits.writeMagnitude_ne_nil port.toNat)
  rw [printPorts, List.map_cons, Glyphs.writeEach_cons, List.length_append, List.length_cons]
  omega

theorem printPorts_ne_nil {ports : List UInt8} (some : ports ≠ []) : printPorts ports ≠ [] :=
  List.ne_nil_of_length_pos (Nat.lt_trans Nat.zero_lt_one (printPorts_length some))

theorem printPorts_injective : Function.Injective printPorts :=
  (Glyphs.writeEach_injective digits (by decide)).comp
    (List.map_injective_iff.mpr fun _ _ same => UInt8.toNat_inj.mp same)

/-- The serial number in the list, without its erased end. -/
theorem listedSerial_of_ports (d : UsbDevice) :
    listedSerial d =
      if d.pathEnd = [] then digits.writeMagnitude d.busNumber.toNat
      else digits.writeMagnitude d.busNumber.toNat ++ ':' :: (printPorts d.pathEnd).dropLast := by
  rw [listedSerial_eq, printBus]
  split
  · next root =>
      have nothing : printPorts d.pathEnd = [] := by rw [root]; rfl
      rw [nothing, List.append_nil, List.dropLast_concat]
  · next behind =>
      rw [List.dropLast_append_of_ne_nil (printPorts_ne_nil behind), List.append_assoc]
      rfl

/-- **What a serial number says**: the bus, and the far end of the path. -/
theorem listedSerial_eq_iff {d e : UsbDevice} :
    listedSerial d = listedSerial e ↔ d.busNumber = e.busNumber ∧ d.pathEnd = e.pathEnd := by
  have colon : digits.digit ':' = none := by decide
  constructor
  · intro same
    rw [listedSerial_of_ports, listedSerial_of_ports] at same
    have absent := digits.separator_notMem colon
    split at same <;> split at same
    · next root root' =>
        exact ⟨UInt8.toNat_inj.mp (digits.writeMagnitude_injective same), root.trans root'.symm⟩
    · exact absurd (same ▸ by simp) (absent d.busNumber.toNat)
    · exact absurd (same ▸ by simp) (absent e.busNumber.toNat)
    · next behind behind' =>
        obtain ⟨bus, front⟩ := digits.terminated_inj colon same
        refine ⟨UInt8.toNat_inj.mp bus, printPorts_injective ?_⟩
        rw [printPorts_ends behind, printPorts_ends behind', front]
  · rintro ⟨bus, ports⟩
    rw [listedSerial_eq, listedSerial_eq, bus, ports]

theorem setupSerial_eq_listed_iff (d : UsbDevice) :
    setupSerial d = listedSerial d ↔ 0 < d.path.length ∧ d.path.length ≤ usbPathSize := by
  rw [setupSerial_eq]
  split
  · next between => exact ⟨fun _ => between, fun _ => rfl⟩
  · next outside =>
      refine ⟨fun same => ?_, fun between => absurd between outside⟩
      have lengths := congrArg List.length same
      rw [listedSerial_of_ports, printBus, List.length_append, List.length_singleton] at lengths
      split at lengths
      · omega
      · next behind =>
          -- the path is cut off at its near end, and what is left of it is printed
          have printed := printPorts_length behind
          rw [List.length_append, List.length_cons, List.length_dropLast] at lengths
          omega

/-- **The serial number fits** into its buffer, with its end. -/
theorem printed_length (d : UsbDevice) :
    (printBus d.busNumber ++ printPorts d.pathEnd).length < 256 := by
  have bus := digits.length_writeMagnitude_le (k := 3)
    (d.busNumber.toNat_lt.trans (by decide)) (by decide)
  have ports : (digits.writeEach '.' (d.pathEnd.map UInt8.toNat)).length ≤
      (d.pathEnd.map UInt8.toNat).length * (3 + 1) := by
    refine digits.length_writeEach_le (by decide) fun n member => ?_
    obtain ⟨port, -, rfl⟩ := List.mem_map.mp member
    exact port.toNat_lt.trans (by decide)
  have few := d.length_pathEnd_le
  rw [List.length_map] at ports
  rw [printBus, printPorts, List.length_append, List.length_append, List.length_singleton]
  rw [usbPathSize] at few
  omega

theorem setupStrings_short (d : UsbDevice) :
    (setupStrings d).manufact.length ≤ 255 ∧ (setupStrings d).product.length ≤ 255 ∧
      (setupStrings d).serial.length ≤ 255 := by
  refine ⟨?_, ?_, ?_⟩
  · simp only [setupStrings]
    split
    · exact List.length_take_le _ _
    · exact Nat.le_of_lt_succ d.manufacturer.ended
  · simp only [setupStrings]
    split
    · exact List.length_take_le _ _
    · exact Nat.le_of_lt_succ d.product.ended
  · have printed := printed_length d
    simp only [setupStrings, setupSerial_eq, listedSerial_eq]
    split_ifs
    · rw [List.length_dropLast]
      omega
    · rw [List.length_append] at printed
      omega
    · exact Nat.le_of_lt_succ d.serialNumber.ended

/-! ## The index -/

/-- The supported devices, each with its row of the table. -/
def supported (list : List UsbDevice) : List (UsbDevice × MsisdrDevice) :=
  list.filterMap fun d => (msisdrDeviceGet d.idVendor d.idProduct).map (d, ·)

theorem deviceLoop_eq (index : UInt32) (list : List UsbDevice) {j : ℕ} (le : j ≤ index.toNat) :
    deviceLoop index list j = (supported list)[index.toNat - j]? := by
  induction list generalizing j with
  | nil => rfl
  | cons d rest ih =>
      rw [deviceLoop, supported, List.filterMap_cons]
      cases msisdrDeviceGet d.idVendor d.idProduct with
      | none => exact ih le
      | some device =>
          by_cases here : j = index.toNat
          · simp [here]
          · have next : index.toNat - j = index.toNat - (j + 1) + 1 := by omega
            simp only [Option.map_some, if_neg here, next, List.getElem?_cons_succ]
            exact ih (by omega)

/-- **Every function looks up the same device** for an index. -/
theorem deviceLoop_start (index : UInt32) (list : List UsbDevice) :
    deviceLoop index list 0 = (supported list)[index.toNat]? :=
  deviceLoop_eq index list (Nat.zero_le _)

theorem deviceCount_eq (list : List UsbDevice) :
    msisdrGetDeviceCount list = UInt32.ofNat (supported list).length := by
  have counted : ∀ ret, deviceCountLoop list ret = ret + UInt32.ofNat (supported list).length := by
    induction list with
    | nil => simp [deviceCountLoop, supported]
    | cons d rest ih =>
        intro ret
        rw [deviceCountLoop, supported, List.filterMap_cons]
        cases msisdrDeviceGet d.idVendor d.idProduct with
        | none => exact ih ret
        | some device =>
            simp only [Option.isSome_some, if_true, Option.map_some, List.length_cons, ih,
              supported, UInt32.ofNat_add]
            rw [UInt32.add_assoc, UInt32.add_comm 1]
            rfl
  rw [msisdrGetDeviceCount, counted]
  simp

/-! ## Names -/

/-- Where a device is: the bus, and the way to it. -/
def UsbDevice.place (d : UsbDevice) : UInt8 × List UInt8 := (d.busNumber, d.path)

theorem supported_places (list : List UsbDevice) :
    ((supported list).map fun listed => listed.1.place).Sublist (list.map UsbDevice.place) := by
  induction list with
  | nil => exact .refl []
  | cons d rest ih =>
      rw [supported, List.filterMap_cons]
      cases msisdrDeviceGet d.idVendor d.idProduct with
      | none => exact ih.cons _
      | some device => exact ih.cons_cons _

theorem mem_of_supported {list : List UsbDevice} {listed : UsbDevice × MsisdrDevice}
    (member : listed ∈ supported list) :
    listed.1 ∈ list ∧ msisdrDeviceGet listed.1.idVendor listed.1.idProduct = some listed.2 := by
  obtain ⟨d, inside, found⟩ := List.mem_filterMap.mp member
  obtain ⟨device, row, rfl⟩ := Option.map_eq_some_iff.mp found
  exact ⟨inside, row⟩

/-- An index below the count. -/
theorem listed_of_lt {list : List UsbDevice} {i : UInt32} (below : i < msisdrGetDeviceCount list) :
    ∃ listed ∈ supported list, (supported list)[i.toNat]? = some listed ∧
      msisdrGetDeviceUsbStrings list i =
        (0, ⟨listed.2.manufacturer, listed.2.product, listedSerial listed.1⟩) := by
  have inside : i.toNat < (supported list).length := by
    rw [deviceCount_eq, UInt32.lt_iff_toNat_lt, UInt32.toNat_ofNat'] at below
    exact below.trans_le (Nat.mod_le _ _)
  refine ⟨_, List.getElem_mem inside, List.getElem?_eq_getElem inside, ?_⟩
  rw [msisdrGetDeviceUsbStrings, deviceLoop_start, List.getElem?_eq_getElem inside]

/-- **A serial number names a device.** No two devices that are listed have the same one, where the
devices are at different places and no path is too long for `usb_path`. -/
theorem serial_names_device {list : List UsbDevice} (apart : (list.map UsbDevice.place).Nodup)
    (shallow : ∀ d ∈ list, d.path.length ≤ usbPathSize) {i j : UInt32}
    (below : i < msisdrGetDeviceCount list) (below' : j < msisdrGetDeviceCount list) :
    (msisdrGetDeviceUsbStrings list i).2.serial = (msisdrGetDeviceUsbStrings list j).2.serial ↔
      i = j := by
  refine ⟨fun same => ?_, fun same => by rw [same]⟩
  obtain ⟨listed, member, here, strings⟩ := listed_of_lt below
  obtain ⟨listed', member', here', strings'⟩ := listed_of_lt below'
  rw [strings, strings'] at same
  obtain ⟨bus, ends⟩ := listedSerial_eq_iff.mp same
  have path : listed.1.path = listed'.1.path := by
    rw [← UsbDevice.pathEnd_of_short (shallow _ (mem_of_supported member).1),
      ← UsbDevice.pathEnd_of_short (shallow _ (mem_of_supported member').1), ends]
  have places : ((supported list).map fun listed => listed.1.place)[i.toNat]? =
      ((supported list).map fun listed => listed.1.place)[j.toNat]? := by
    rw [List.getElem?_map, List.getElem?_map, here, here']
    exact congrArg some (Prod.ext bus path)
  have inside : i.toNat < ((supported list).map fun listed => listed.1.place).length := by
    rw [List.length_map]
    exact (List.getElem?_eq_some_iff.mp here).1
  exact UInt32.toNat_inj.mp
    ((List.getElem?_inj inside ((supported_places list).nodup apart)).mp places)

/-- A device without strings of its own. -/
def bareDevice (idVendor idProduct : UInt16) (busNumber : UInt8) (ports : List UInt8) :
    UsbDevice where
  idVendor := idVendor
  idProduct := idProduct
  busNumber := busNumber
  ports := ports
  manufacturer := ⟨[], by decide⟩
  product := ⟨[], by decide⟩
  serialNumber := ⟨[], by decide⟩

/-- A bus with two devices behind hubs. -/
def twoReceivers : List UsbDevice :=
  [bareDevice 0x1d6b 0x0002 1 [0], bareDevice 0x1df7 0x2500 1 [12, 4, 0],
    bareDevice 0x1df7 0x3010 1 [2, 14, 0]]

/-- Their serial numbers differ. -/
theorem serial_names_device_twoReceivers :
    (msisdrGetDeviceUsbStrings twoReceivers 0).2.serial ≠
      (msisdrGetDeviceUsbStrings twoReceivers 1).2.serial := by
  have names : (msisdrGetDeviceUsbStrings twoReceivers 0).2.serial =
      (msisdrGetDeviceUsbStrings twoReceivers 1).2.serial ↔ (0 : UInt32) = 1 :=
    serial_names_device (by decide) (by decide) (by decide) (by decide)
  exact fun same => absurd (names.mp same) (by decide)

example : (msisdrGetDeviceUsbStrings twoReceivers 1).2.serial = "1:14.2".toList := by decide

/-! ## Opening -/

theorem table_short : ∀ device ∈ msisdrDevices,
    device.manufacturer.length ≤ 255 ∧ device.product.length ≤ 255 := by decide

/-- The strings that were stored are answered whole. -/
theorem getUsbStrings_open {stream : StreamCalls} {transfer : Transfer}
    {usable : UsbDevice → Bool} {list : List UsbDevice} {index : UInt32} {d : UsbDevice}
    {device : MsisdrDevice} (found : deviceLoop index list 0 = some (d, device))
    (usableDevice : usable d = true) :
    msisdrGetUsbStrings (msisdrOpen stream transfer usable list index) = (0, setupStrings d) := by
  obtain ⟨manufact, product, serial⟩ := setupStrings_short d
  rw [msisdrOpen, found]
  simp only [usableDevice, if_true, msisdrGetUsbStrings, strncpy, List.take_of_length_le manufact,
    List.take_of_length_le product, List.take_of_length_le serial]

/-- The names of a supported device. -/
theorem setupStrings_names {d : UsbDevice} {device : MsisdrDevice}
    (row : msisdrDeviceGet d.idVendor d.idProduct = some device) :
    ((setupStrings d).manufact = device.manufacturer ∧ (setupStrings d).product = device.product ↔
      d.manufacturer.chars = [] ∨
        d.manufacturer.chars = device.manufacturer ∧ d.product.chars = device.product) := by
  obtain ⟨manufacturer, product⟩ := table_short device (List.mem_of_find?_eq_some row)
  cases own : d.manufacturer.chars with
  | nil =>
      simp [setupStrings, own, row, strncpy, List.take_of_length_le manufacturer,
        List.take_of_length_le product]
  | cons c rest => simp [setupStrings, own]

/-- **A device is opened under the strings that were announced** exactly if it has no names of its
own, or those of the table, and its serial number is the announced one: its own, or one that is made
from a path that is not empty and not too long. -/
theorem opened_as_announced_iff (stream : StreamCalls) (transfer : Transfer)
    {usable : UsbDevice → Bool} {list : List UsbDevice} {index : UInt32} {d : UsbDevice}
    {device : MsisdrDevice} (found : deviceLoop index list 0 = some (d, device))
    (usableDevice : usable d = true) :
    msisdrGetUsbStrings (msisdrOpen stream transfer usable list index) =
        msisdrGetDeviceUsbStrings list index ↔
      (d.manufacturer.chars = [] ∨
        d.manufacturer.chars = device.manufacturer ∧ d.product.chars = device.product) ∧
      (d.serialNumber.chars = listedSerial d ∨
        d.serialNumber.chars = [] ∧ 0 < d.path.length ∧ d.path.length ≤ usbPathSize) := by
  have member : (d, device) ∈ supported list := by
    rw [deviceLoop_start] at found
    exact List.mem_of_getElem? found
  have row : msisdrDeviceGet d.idVendor d.idProduct = some device := (mem_of_supported member).2
  have names := setupStrings_names row
  have serial : (setupStrings d).serial = listedSerial d ↔
      d.serialNumber.chars = listedSerial d ∨
        d.serialNumber.chars = [] ∧ 0 < d.path.length ∧ d.path.length ≤ usbPathSize := by
    have printed : listedSerial d ≠ [] := by
      rw [listedSerial_of_ports]
      have digit := digits.writeMagnitude_ne_nil d.busNumber.toNat
      split
      · exact digit
      · exact List.append_ne_nil_of_left_ne_nil digit _
    rw [← setupSerial_eq_listed_iff]
    by_cases own : d.serialNumber.chars = []
    · simp [setupStrings, own, printed.symm]
    · simp [setupStrings, own]
  have announced : msisdrGetDeviceUsbStrings list index =
      (0, ⟨device.manufacturer, device.product, listedSerial d⟩) := by
    rw [msisdrGetDeviceUsbStrings, found]
  rw [getUsbStrings_open found usableDevice, announced, ← names, ← serial, and_assoc]
  constructor
  · intro same
    have same := congrArg Prod.snd same
    exact ⟨congrArg UsbStrings.manufact same, congrArg UsbStrings.product same,
      congrArg UsbStrings.serial same⟩
  · rintro ⟨manufact, product, serial⟩
    rw [← manufact, ← product, ← serial]

/-- The second one is opened under the strings that were announced. -/
theorem opened_as_announced_iff_twoReceivers :
    msisdrGetUsbStrings (msisdrOpen noStream .isoc (fun _ => true) twoReceivers 1) =
      msisdrGetDeviceUsbStrings twoReceivers 1 :=
  (opened_as_announced_iff noStream .isoc (d := bareDevice 0x1df7 0x3010 1 [2, 14, 0]) rfl
    rfl).mpr (by decide)

end MsiSdrDriver.Driver
