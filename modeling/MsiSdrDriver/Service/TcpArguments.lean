import MsiSdrDriver.Foundations.Numerals
import MsiSdrDriver.Foundations.Replacing
import MsiSdrDriver.Service.QuotedArguments

/-!
# The arguments of a server

`SdrTcpArguments.java`: what `DeviceOpenActivity` makes of the address it is started with. The
scheme is taken out of it, the rest goes through `ArgumentParser`, and seven of the arguments are
read, two of which have no default.

The arguments of a string that follows an accepted one are read with the fields of the first as
defaults (`fromString_append`). What is written as a request comes back as it was, unless the
address is one that the parser, or the removal of the scheme, changes (`request_round_trip_iff`).
-/

set_option autoImplicit false

namespace MsiSdrDriver.Service.ArgumentParser

open MsiSdrDriver.Foundations

/-! ## Numbers -/

/-- The digits zero of the scripts that have decimal digits, each followed by the other nine. -/
def digitZeros : List JavaChar :=
  [0x30, 0x660, 0x6f0, 0x7c0, 0x966, 0x9e6, 0xa66, 0xae6, 0xb66, 0xbe6, 0xc66, 0xce6, 0xd66, 0xde6,
    0xe50, 0xed0, 0xf20, 0x1040, 0x1090, 0x17e0, 0x1810, 0x1946, 0x19d0, 0x1a80, 0x1a90, 0x1b50,
    0x1bb0, 0x1c40, 0x1c50, 0xa620, 0xa8d0, 0xa900, 0xa9d0, 0xa9f0, 0xaa50, 0xabf0, 0xff10]

/-- `Character.digit` with radix ten, which knows the digits of every script. -/
def characterDigit (c : JavaChar) : Option ℕ :=
  (digitZeros.find? fun zero => zero ≤ c ∧ c ≤ zero + 9).map fun zero => (c - zero).toNat

/-- Decimal numbers: all digits are read, and those of ASCII are written. -/
def decimal : SignedGlyphs JavaChar where
  base := 10
  positional := by decide
  digit := characterDigit
  glyph := fun d => 48 + UInt16.ofNat d
  digit_glyph := by decide
  minus := dash
  plus := 43
  digit_minus := by decide
  digit_plus := by decide

/-- What the constructors throw. Both are an `IllegalArgumentException`, with its message or with
the string that is no number. -/
inductive ParseException where
  | illegalArgument (message : JavaString)
  | numberFormat (input : JavaString)
  deriving DecidableEq

/-- A number between two bounds. -/
def parseBetween (least most : ℤ) (string : JavaString) : Except ParseException ℤ :=
  match decimal.readBetween least most string with
  | some n => .ok n
  | none => .error (.numberFormat string)

/-- `Integer.parseInt`. -/
def parseInt (string : JavaString) : Except ParseException Int32 :=
  (parseBetween Int32.minValue.toInt Int32.maxValue.toInt string).map Int32.ofInt

/-- `Long.parseLong`. -/
def parseLong (string : JavaString) : Except ParseException Int64 :=
  (parseBetween Int64.minValue.toInt Int64.maxValue.toInt string).map Int64.ofInt

/-! ## The rest of `ArgumentParser` -/

/-- Read a number from the value of an argument, and answer `absent` where there is none. -/
def numericArgument {ν : Type} (parse : JavaString → Except ParseException ν)
    (absent : Except ParseException ν) (argumentsMap : ArgumentsMap)
    (argument : Option JavaString) : Except ParseException ν :=
  match getStringArgumentRaw argumentsMap argument with
  | .error message => .error (.illegalArgument message)
  | .ok none => absent
  | .ok (some value) => parse value

/-- `getIntArgument`. -/
def getIntArgument (argumentsMap : ArgumentsMap) (argument : Option JavaString) :
    Except ParseException Int32 :=
  numericArgument parseInt
    (.error (.illegalArgument
      (text "Expected integer argument '" ++ argument.getD (text "null") ++ text "'")))
    argumentsMap argument

/-- `getIntArgumentOrDefault`. -/
def getIntArgumentOrDefault (argumentsMap : ArgumentsMap) (argument : Option JavaString)
    (defValue : Int32) : Except ParseException Int32 :=
  numericArgument parseInt (.ok defValue) argumentsMap argument

/-- `getLongArgumentOrDefault`. -/
def getLongArgumentOrDefault (argumentsMap : ArgumentsMap) (argument : Option JavaString)
    (defValue : Int64) : Except ParseException Int64 :=
  numericArgument parseLong (.ok defValue) argumentsMap argument

/-! ## The arguments -/

def maxStringLength : ℕ := 256

/-- `SdrTcpArguments`. -/
structure SdrTcpArguments where
  gain : Int32
  samplerateHz : Int64
  frequencyHz : Int64
  address : JavaString
  port : Int32
  ppm : Int32
  biast : Int32
  short : address.length ≤ maxStringLength
  deriving DecidableEq

/-- `Check.stringLessThan`, for a string that is not `null`. -/
def stringLessThan (string : JavaString) (maxLength : ℕ) :
    Except ParseException {string : JavaString // string.length ≤ maxLength} :=
  if short : string.length ≤ maxLength then .ok ⟨string, short⟩
  else .error (.illegalArgument (text "String cannot exceed " ++ decimal.write maxLength))

/-- `stringLessThan(arguments.getStringArgument("a"), MAX_STRING_LENGTH)`. -/
def addressArgument (arguments : ArgumentsMap) :
    Except ParseException {string : JavaString // string.length ≤ maxStringLength} :=
  match getStringArgument arguments (some (text "a")) with
  | .error message => .error (.illegalArgument message)
  | .ok address => stringLessThan address maxStringLength

/-- The constructor. -/
def fromArguments (arguments : ArgumentsMap) : Except ParseException SdrTcpArguments := do
  let gain ← getIntArgumentOrDefault arguments (some (text "g")) 78
  let samplerateHz ← getLongArgumentOrDefault arguments (some (text "s")) 2048000
  let frequencyHz ← getLongArgumentOrDefault arguments (some (text "f")) 100000000
  let address ← addressArgument arguments
  let port ← getIntArgument arguments (some (text "p"))
  let ppm ← getIntArgumentOrDefault arguments (some (text "P")) 0
  let biast ← getIntArgumentOrDefault arguments (some (text "T")) 0
  return ⟨gain, samplerateHz, frequencyHz, address.val, port, ppm, biast, address.property⟩

/-- `fromString`. -/
def fromString (arguments : JavaString) : Except ParseException SdrTcpArguments :=
  match toMap arguments with
  | .error message => .error (.illegalArgument message)
  | .ok map => fromArguments map

def scheme : JavaString := text "iqsrc://"

/-- `SdrTcpArguments.fromString(data.toString().replace("iqsrc://", ""))`. -/
def fromData (data : JavaString) : Except ParseException SdrTcpArguments :=
  fromString (replace scheme [] data)

/-! ## Overriding -/

/-- The address that a map gives, or another one. -/
def addressOrDefault (arguments : ArgumentsMap)
    (defValue : {string : JavaString // string.length ≤ maxStringLength}) :
    Except ParseException {string : JavaString // string.length ≤ maxStringLength} :=
  match arguments (text "a") with
  | none => .ok defValue
  | some address => stringLessThan address maxStringLength

/-- Read arguments with others as the defaults. -/
def SdrTcpArguments.overriddenBy (under : SdrTcpArguments) (arguments : ArgumentsMap) :
    Except ParseException SdrTcpArguments := do
  let gain ← getIntArgumentOrDefault arguments (some (text "g")) under.gain
  let samplerateHz ← getLongArgumentOrDefault arguments (some (text "s")) under.samplerateHz
  let frequencyHz ← getLongArgumentOrDefault arguments (some (text "f")) under.frequencyHz
  let address ← addressOrDefault arguments ⟨under.address, under.short⟩
  let port ← getIntArgumentOrDefault arguments (some (text "p")) under.port
  let ppm ← getIntArgumentOrDefault arguments (some (text "P")) under.ppm
  let biast ← getIntArgumentOrDefault arguments (some (text "T")) under.biast
  return ⟨gain, samplerateHz, frequencyHz, address.val, port, ppm, biast, address.property⟩

/-- A bind that gives a result. -/
theorem bind_eq_ok {ε ν π : Type} {first : Except ε ν} {next : ν → Except ε π} {result : π}
    (given : (first >>= next) = .ok result) :
    ∃ value, first = .ok value ∧ next value = .ok result := by
  cases first with
  | error thrown => cases given
  | ok value => exact ⟨value, rfl, given⟩

variable {under later : ArgumentsMap}

/-- The map is asked for a key, or the key is refused whatever the map is. -/
theorem getStringArgumentRaw_cases (argument : Option JavaString) :
    (∃ message, ∀ map, getStringArgumentRaw map argument = .error message) ∨
      ∃ key, ∀ map, getStringArgumentRaw map argument = .ok (map key) := by
  cases argument with
  | none => exact .inl ⟨_, fun _ => rfl⟩
  | some key =>
      by_cases empty : key.length < 1
      · exact .inl ⟨_, fun _ => if_pos empty⟩
      · by_cases blanks : trim key ≠ key
        · exact .inl ⟨_, fun _ => (if_neg empty).trans (if_pos blanks)⟩
        · exact .inr ⟨key, fun _ => (if_neg empty).trans (if_neg blanks)⟩

/-- **A number that was read is the default for what overrides it.** -/
theorem numericArgument_override {ν : Type} {parse : JavaString → Except ParseException ν}
    {absent : Except ParseException ν} {argument : Option JavaString} {value : ν}
    (read : numericArgument parse absent under argument = .ok value) :
    numericArgument parse absent (under.override later) argument =
      numericArgument parse (.ok value) later argument := by
  unfold numericArgument at read ⊢
  rcases getStringArgumentRaw_cases argument with ⟨message, refused⟩ | ⟨key, asked⟩
  · rw [refused] at read
    cases read
  · rw [asked] at read ⊢
    rw [asked, ArgumentsMap.override]
    cases later key with
    | none => exact read
    | some value => rfl

theorem addressArgument_eq (arguments : ArgumentsMap) :
    addressArgument arguments =
      match arguments (text "a") with
      | none => .error (.illegalArgument (text "Expected string argument 'a'"))
      | some address => stringLessThan address maxStringLength := by
  have asked : getStringArgumentRaw arguments (some (text "a")) = .ok (arguments (text "a")) := rfl
  rw [addressArgument, getStringArgument, asked]
  cases arguments (text "a") with
  | none => rfl
  | some address => rfl

theorem addressArgument_override
    {address : {string : JavaString // string.length ≤ maxStringLength}}
    (read : addressArgument under = .ok address) :
    addressArgument (under.override later) = addressOrDefault later address := by
  rw [addressArgument_eq] at read ⊢
  rw [addressOrDefault, ArgumentsMap.override]
  cases later (text "a") with
  | none => exact read
  | some value => rfl

/-- What is read of a map that overrides an accepted one. -/
theorem fromArguments_override {args : SdrTcpArguments} (read : fromArguments under = .ok args) :
    fromArguments (under.override later) = args.overriddenBy later := by
  obtain ⟨gain, readGain, read⟩ := bind_eq_ok read
  obtain ⟨samplerateHz, readRate, read⟩ := bind_eq_ok read
  obtain ⟨frequencyHz, readFrequency, read⟩ := bind_eq_ok read
  obtain ⟨address, readAddress, read⟩ := bind_eq_ok read
  obtain ⟨port, readPort, read⟩ := bind_eq_ok read
  obtain ⟨ppm, readPpm, read⟩ := bind_eq_ok read
  obtain ⟨biast, readBiast, read⟩ := bind_eq_ok read
  cases read
  unfold fromArguments SdrTcpArguments.overriddenBy getIntArgumentOrDefault
    getLongArgumentOrDefault getIntArgument
  rw [numericArgument_override readGain, numericArgument_override readRate,
    numericArgument_override readFrequency, addressArgument_override readAddress,
    numericArgument_override readPort, numericArgument_override readPpm,
    numericArgument_override readBiast]

/-- **Behind an accepted string the arguments are read with its fields as the defaults**, and what
is thrown is what the second string alone gives rise to. -/
theorem fromString_append {a : JavaString} {args : SdrTcpArguments} (balanced : Balanced a)
    (accepted : fromString a = .ok args) (b : JavaString) :
    fromString (a ++ space :: b) =
      match toMap b with
      | .error message => .error (.illegalArgument message)
      | .ok later => args.overriddenBy later := by
  unfold fromString at accepted ⊢
  cases first : toMap a with
  | error message =>
      rw [first] at accepted
      cases accepted
  | ok under =>
      rw [first] at accepted
      rw [toMap_append balanced first b]
      cases toMap b with
      | error message => rfl
      | ok later => exact fromArguments_override accepted

/-- Another port behind a request that has named one: the rest stays. -/
theorem fromString_append_port :
    fromString (text "-a 127.0.0.1 -p 1234 -g 30" ++ space :: text "-p 4321") =
      .ok ⟨30, 2048000, 100000000, text "127.0.0.1", 4321, 0, 0, by decide⟩ := by
  have accepted : fromString (text "-a 127.0.0.1 -p 1234 -g 30") =
      .ok ⟨30, 2048000, 100000000, text "127.0.0.1", 1234, 0, 0, by decide⟩ := by rfl
  rw [fromString_append (by decide) accepted]
  rfl

/-! ## Requests -/

/-- A token that is written without quotes. -/
structure Bare (word : JavaString) : Prop where
  nonempty : word ≠ []
  plain : ∀ c ∈ word, blank c = false ∧ c ≠ singleQuote ∧ c ≠ doubleQuote

/-- An argument and its value without quotes, and what follows. -/
def bareArgument (argument : JavaString × JavaString) (rest : JavaString) : JavaString :=
  (dash :: argument.1) ++ space :: (argument.2 ++ space :: rest)

/-- The arguments that are numbers. -/
def SdrTcpArguments.numbers (args : SdrTcpArguments) : List (JavaString × JavaString) :=
  [(text "g", decimal.write args.gain.toInt), (text "s", decimal.write args.samplerateHz.toInt),
    (text "f", decimal.write args.frequencyHz.toInt), (text "p", decimal.write args.port.toInt),
    (text "P", decimal.write args.ppm.toInt), (text "T", decimal.write args.biast.toInt)]

/-- The address in its quotes. -/
def addressArgumentIn (quote : JavaChar) (address : JavaString) : JavaString :=
  (dash :: text "a") ++ space :: quote :: (address ++ [quote])

/-- Numbers, and the address in quotes. -/
def requestLine (numbers : List (JavaString × JavaString)) (quote : JavaChar)
    (address : JavaString) : JavaString :=
  numbers.foldr bareArgument (addressArgumentIn quote address)

/-- What is asked of a server, and the quotes that the address is written in. -/
structure Request where
  args : SdrTcpArguments
  quote : JavaChar
  isQuote : quote = singleQuote ∨ quote = doubleQuote
  notInAddress : quote ∉ args.address

/-- The request as it is written. -/
def Request.render (request : Request) : JavaString :=
  scheme ++ requestLine request.args.numbers request.quote request.args.address

/-! ### The tokens of a request -/

theorem scan_bare {word : JavaString} (bare : Bare word) :
    scan Scan.start word = { Scan.start with resultingString := word } := by
  refine scan_of_append _ fun c member t _ => ?_
  obtain ⟨notBlank, noQuote⟩ := bare.plain c member
  refine next_plain noQuote ?_ t
  rintro rfl
  cases notBlank

theorem splitIgnoringQuotes_bare {word : JavaString} (bare : Bare word) (rest : JavaString) :
    splitIgnoringQuotes (word ++ space :: rest) = word :: splitIgnoringQuotes rest := by
  have scanned := scan_bare bare
  have balanced : Balanced word := by
    rw [Balanced, scanned]
    rfl
  have one : splitIgnoringQuotes word = [word] := by
    rw [splitIgnoringQuotes, scanned]
    simp [Scan.flush, Scan.start, bare.nonempty]
  rw [splitIgnoringQuotes_append balanced, one]
  rfl

/-- A dash in front of a name. -/
theorem Bare.name {key : JavaString} (bare : Bare key) : Bare (dash :: key) where
  nonempty := List.cons_ne_nil _ _
  plain := by
    intro c member
    rcases List.mem_cons.mp member with rfl | inside
    · decide
    · exact bare.plain c inside

theorem splitIgnoringQuotes_bareArgument {argument : JavaString × JavaString}
    (key : Bare argument.1) (value : Bare argument.2) (rest : JavaString) :
    splitIgnoringQuotes (bareArgument argument rest) =
      (dash :: argument.1) :: argument.2 :: splitIgnoringQuotes rest := by
  rw [bareArgument, splitIgnoringQuotes_bare key.name, splitIgnoringQuotes_bare value]

/-- The value of a bare argument is put into the map as it is. -/
theorem toMapLoop_bareArgument (map : ArgumentsMap) {key value : JavaString} (bareKey : Bare key)
    (bareValue : Bare value) (tokens : List JavaString) :
    toMapLoop map ((dash :: key) :: value :: tokens) =
      toMapLoop (Function.update map key (some value)) tokens := by
  let entry : Entry :=
    { key := key
      value := value
      quote := singleQuote
      nonempty := bareKey.nonempty
      plain := bareKey.plain
      isQuote := .inl rfl
      notInValue := fun member => (bareValue.plain _ member).2.1 rfl }
  have kept : unquote (trim value) = value := by
    refine (unquote_trim_eq_iff value).mpr ⟨trim_of_plain fun c member => ?_, ?_⟩
    · exact (bareValue.plain c member).1
    · rintro ⟨-, ends⟩
      rcases ends with ⟨head, -⟩ | ⟨head, -⟩
      · exact (bareValue.plain _ (List.mem_of_mem_head? head)).2.2 rfl
      · exact (bareValue.plain _ (List.mem_of_mem_head? head)).2.1 rfl
  have pair := toMapLoop_entry map entry value tokens
  rwa [kept] at pair

/-- **A line of bare arguments and an address in quotes** puts the numbers into the map, and then
the address. -/
theorem toMapLoop_requestLine {numbers : List (JavaString × JavaString)}
    (bare : ∀ argument ∈ numbers, Bare argument.1 ∧ Bare argument.2) (map : ArgumentsMap)
    (quote : JavaChar) (address : JavaString) :
    toMapLoop map (splitIgnoringQuotes (requestLine numbers quote address)) =
      toMapLoop
        (numbers.foldl (fun map argument => Function.update map argument.1 (some argument.2)) map)
        (splitIgnoringQuotes (addressArgumentIn quote address)) := by
  induction numbers generalizing map with
  | nil => rfl
  | cons argument rest ih =>
      obtain ⟨key, value⟩ := bare argument List.mem_cons_self
      rw [requestLine, List.foldr_cons, splitIgnoringQuotes_bareArgument key value,
        toMapLoop_bareArgument map key value, List.foldl_cons]
      exact ih (fun other member => bare other (List.mem_cons_of_mem argument member)) _

/-! ### What is read back -/

theorem bare_write (n : ℤ) : Bare (decimal.write n) where
  nonempty := decimal.write_ne_nil n
  plain := by
    have digits : ∀ d < 10, blank (decimal.glyph d) = false ∧
        decimal.glyph d ≠ singleQuote ∧ decimal.glyph d ≠ doubleQuote := by decide
    intro c member
    rcases decimal.mem_write member with rfl | ⟨d, small, rfl⟩
    · decide
    · exact digits d small

theorem bare_letter {c : JavaChar} (plain : blank c = false ∧ c ≠ singleQuote ∧ c ≠ doubleQuote) :
    Bare [c] where
  nonempty := List.cons_ne_nil _ _
  plain := by
    intro d member
    rw [List.mem_singleton.mp member]
    exact plain

theorem bare_numbers (args : SdrTcpArguments) :
    ∀ argument ∈ args.numbers, Bare argument.1 ∧ Bare argument.2 := by
  intro argument member
  simp only [SdrTcpArguments.numbers, List.mem_cons, List.not_mem_nil, or_false] at member
  rcases member with rfl | rfl | rfl | rfl | rfl | rfl
  all_goals exact ⟨bare_letter (by decide), bare_write _⟩

theorem parseInt_write (n : Int32) : parseInt (decimal.write n.toInt) = .ok n := by
  have least := Int32.minValue_le_toInt n
  have most := Int32.toInt_le n
  rw [parseInt, parseBetween, decimal.readBetween_write, if_pos ⟨least, most⟩]
  exact congrArg Except.ok (Int32.ofInt_toInt n)

theorem parseLong_write (n : Int64) : parseLong (decimal.write n.toInt) = .ok n := by
  have least := Int64.minValue_le_toInt n
  have most := Int64.toInt_le n
  rw [parseLong, parseBetween, decimal.readBetween_write, if_pos ⟨least, most⟩]
  exact congrArg Except.ok (Int64.ofInt_toInt n)

/-- The numbers in a map, and then the address. -/
def SdrTcpArguments.toMap (args : SdrTcpArguments) (address : JavaString) : ArgumentsMap :=
  Function.update
    (args.numbers.foldl (fun map argument => Function.update map argument.1 (some argument.2))
      fun _ => none)
    (text "a") (some address)

/-- **The fields are read back from such a map.** -/
theorem fromArguments_toMap (args : SdrTcpArguments) {address : JavaString}
    (short : address.length ≤ maxStringLength) :
    fromArguments (args.toMap address) = .ok { args with address := address, short := short } := by
  have gain : getIntArgumentOrDefault (args.toMap address) (some (text "g")) 78 = .ok args.gain :=
    parseInt_write args.gain
  have rate : getLongArgumentOrDefault (args.toMap address) (some (text "s")) 2048000 =
      .ok args.samplerateHz := parseLong_write args.samplerateHz
  have frequency : getLongArgumentOrDefault (args.toMap address) (some (text "f")) 100000000 =
      .ok args.frequencyHz := parseLong_write args.frequencyHz
  have port : getIntArgument (args.toMap address) (some (text "p")) = .ok args.port :=
    parseInt_write args.port
  have ppm : getIntArgumentOrDefault (args.toMap address) (some (text "P")) 0 = .ok args.ppm :=
    parseInt_write args.ppm
  have biast : getIntArgumentOrDefault (args.toMap address) (some (text "T")) 0 =
      .ok args.biast := parseInt_write args.biast
  have given : addressArgument (args.toMap address) = .ok ⟨address, short⟩ := by
    rw [addressArgument_eq]
    exact dif_pos short
  rw [fromArguments, gain, rate, frequency, given, port, ppm, biast]
  rfl

variable {quote : JavaChar} {address : JavaString}

/-- What a line is parsed to, with any address: an address that is empty leaves a name without a
value, and any other is trimmed and unquoted. -/
theorem toMap_requestLine (args : SdrTcpArguments)
    (isQuote : quote = singleQuote ∨ quote = doubleQuote) (notInAddress : quote ∉ address) :
    toMap (requestLine args.numbers quote address) =
      if address = [] then .error (text "No value for argument -a")
      else .ok (args.toMap (unquote (trim address))) := by
  let entry : Entry :=
    { key := text "a"
      value := address
      quote := quote
      nonempty := List.cons_ne_nil _ _
      plain := (bare_letter (by decide)).plain
      isQuote := isQuote
      notInValue := notInAddress }
  have tokens : splitIgnoringQuotes (addressArgumentIn quote address) = entry.tokens :=
    splitIgnoringQuotes_entry entry
  rw [ArgumentParser.toMap, toMapLoop_requestLine (bare_numbers args), tokens, Entry.tokens]
  by_cases empty : address = []
  · rw [if_pos empty, if_pos (show entry.value = [] from empty)]
    rfl
  · rw [if_neg empty, if_neg (show entry.value ≠ [] from empty), toMapLoop_entry]
    rfl

/-! ### The scheme -/

/-- A piece without a colon is kept when the scheme is taken out. -/
theorem replace_of_no_colon {piece : JavaString} (free : (58 : JavaChar) ∉ piece) :
    replace scheme [] piece = piece := by
  refine replace_of_absent fun occurs => free (occurs.subset ?_)
  decide

/-- **Of a line without the scheme in its numbers only the address changes.** -/
theorem replace_requestLine {numbers : List (JavaString × JavaString)}
    (free : ∀ argument ∈ numbers, (58 : JavaChar) ∉ dash :: argument.1 ∧ 58 ∉ argument.2)
    (isQuote : quote = singleQuote ∨ quote = doubleQuote) (address : JavaString) :
    replace scheme [] (requestLine numbers quote address) =
      requestLine numbers quote (replace scheme [] address) := by
  have some : scheme ≠ [] := by decide
  have noSpace : space ∉ scheme := by decide
  have noQuote : quote ∉ scheme := by
    rcases isQuote with rfl | rfl <;> decide
  induction numbers with
  | nil =>
      have ends : replace scheme [] (address ++ [quote]) = replace scheme [] address ++ [quote] :=
        replace_append_separator some noQuote address []
      have quoted : replace scheme [] (quote :: (address ++ [quote])) =
          quote :: (replace scheme [] address ++ [quote]) :=
        (replace_append_separator some noQuote [] (address ++ [quote])).trans
          (congrArg (quote :: ·) ends)
      have name : (58 : JavaChar) ∉ dash :: text "a" := by decide
      calc replace scheme [] (addressArgumentIn quote address)
        _ = replace scheme [] (dash :: text "a") ++
            space :: replace scheme [] (quote :: (address ++ [quote])) :=
          replace_append_separator some noSpace _ _
        _ = addressArgumentIn quote (replace scheme [] address) := by
          rw [replace_of_no_colon name, quoted]
          rfl
  | cons argument rest ih =>
      obtain ⟨key, value⟩ := free argument List.mem_cons_self
      have later := ih fun other member => free other (List.mem_cons_of_mem argument member)
      rw [requestLine, List.foldr_cons, bareArgument, replace_append_separator some noSpace,
        replace_append_separator some noSpace, replace_of_no_colon key, replace_of_no_colon value]
      exact congrArg (fun rest => (dash :: argument.1) ++ space :: (argument.2 ++ space :: rest))
        later

theorem no_colon_write (n : ℤ) : (58 : JavaChar) ∉ decimal.write n := by
  have digits : ∀ d < 10, (58 : JavaChar) ≠ decimal.glyph d := by decide
  intro member
  rcases decimal.mem_write member with sign | ⟨d, small, same⟩
  · exact absurd sign (by decide)
  · exact digits d small same

theorem no_colon_numbers (args : SdrTcpArguments) :
    ∀ argument ∈ args.numbers, (58 : JavaChar) ∉ dash :: argument.1 ∧ 58 ∉ argument.2 := by
  intro argument member
  simp only [SdrTcpArguments.numbers, List.mem_cons, List.not_mem_nil, or_false] at member
  rcases member with rfl | rfl | rfl | rfl | rfl | rfl
  all_goals exact ⟨by dsimp only; decide, no_colon_write _⟩

/-! ### The round trip -/

theorem length_unquote_trim_le (string : JavaString) :
    (unquote (trim string)).length ≤ string.length :=
  (length_unquote_le _).trans (trim_sublist string).length_le

/-- **A request comes back as it was written** exactly when its address is not empty, has no blanks
at its ends, is not wrapped in quotes, and does not have the scheme in it. -/
theorem request_round_trip_iff (request : Request) :
    fromData request.render = .ok request.args ↔
      request.args.address ≠ [] ∧ trim request.args.address = request.args.address ∧
        ¬Wrapped request.args.address ∧ ¬scheme <:+: request.args.address := by
  obtain ⟨args, quote, isQuote, notInAddress⟩ := request
  have stripped : replace scheme [] (scheme ++ requestLine args.numbers quote args.address) =
      requestLine args.numbers quote (replace scheme [] args.address) := by
    rw [replace_append_pattern (by decide), List.nil_append,
      replace_requestLine (no_colon_numbers args) isQuote]
  have notLeft : quote ∉ replace scheme [] args.address := fun member =>
    notInAddress ((mem_of_mem_replaceFrom member).resolve_right List.not_mem_nil)
  have nothingLonger : (replace scheme [] args.address).length ≤ args.address.length :=
    length_replaceFrom_le (Nat.zero_le _) 0 _
  have short := ((length_unquote_trim_le _).trans nothingLonger).trans args.short
  unfold fromData Request.render fromString
  rw [stripped, toMap_requestLine args isQuote notLeft]
  dsimp only
  constructor
  · intro back
    have nonempty : replace scheme [] args.address ≠ [] := by
      intro empty
      rw [if_pos empty] at back
      cases back
    rw [if_neg nonempty] at back
    have read := (fromArguments_toMap args short).symm.trans back
    have same : unquote (trim (replace scheme [] args.address)) = args.address :=
      congrArg SdrTcpArguments.address (Except.ok.inj read)
    have absent : ¬scheme <:+: args.address := by
      intro occurs
      have shorter : (replace scheme [] args.address).length < args.address.length :=
        length_replace_lt (show [].length < scheme.length by decide) occurs
      have kept := length_unquote_trim_le (replace scheme [] args.address)
      rw [same] at kept
      omega
    rw [replace_of_absent absent] at same nonempty
    obtain ⟨trimmed, notWrapped⟩ := (unquote_trim_eq_iff args.address).mp same
    exact ⟨nonempty, trimmed, notWrapped, absent⟩
  · rintro ⟨nonempty, trimmed, notWrapped, absent⟩
    have same := (unquote_trim_eq_iff args.address).mpr ⟨trimmed, notWrapped⟩
    have whole : ∀ (address : JavaString) (short : address.length ≤ maxStringLength),
        address = args.address → { args with address := address, short := short } = args := by
      rintro _ _ rfl
      rfl
    rw [replace_of_absent absent, if_neg nonempty]
    dsimp only
    rw [fromArguments_toMap args ((length_unquote_trim_le _).trans args.short), whole _ _ same]

end MsiSdrDriver.Service.ArgumentParser
