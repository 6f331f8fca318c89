import Mathlib.Data.List.DropRight
import Mathlib.Data.Nat.Notation
import Mathlib.Logic.Function.Basic

/-!
# The argument parser

`ArgumentParser.java`. A string of arguments is split at the spaces outside quotes, and the
tokens are taken in pairs, a dash and a name, and a value. The splitter drops the quotes and
every token that is left empty. `toMap` trims each token, and takes one pair of quotes off a
value that is wrapped in quotes still.

A scan that ends outside quotes leaves nothing behind at the next space
(`splitIgnoringQuotes_append`), and a string that is accepted has an even number of tokens, so
that argument strings compose (`arguments_compose`).
-/

set_option autoImplicit false

namespace MsiSdrDriver.Service.ArgumentParser

/-! ## Strings -/

/-- A `char`. -/
abbrev JavaChar := UInt16

/-- A `String`, as its code units. -/
abbrev JavaString := List JavaChar

/-- The code units of a text of the source, all of whose characters have one. -/
def text (literal : String) : JavaString :=
  literal.toList.map fun c => UInt16.ofNat c.toNat

def doubleQuote : JavaChar := 34
def singleQuote : JavaChar := 39
def space : JavaChar := 32
def dash : JavaChar := 45

/-- What `String.trim` takes off: the characters up to U+0020. -/
def blank (c : JavaChar) : Bool :=
  decide (c ≤ 32)

/-- `String.trim`. -/
def trim (string : JavaString) : JavaString :=
  (string.dropWhile blank).rdropWhile blank

/-! ## The code -/

/-- The condition under which `unquote` takes the first and the last character off. -/
def Wrapped (string : JavaString) : Prop :=
  2 ≤ string.length ∧
    (string.head? = some doubleQuote ∧ string.getLast? = some doubleQuote ∨
      string.head? = some singleQuote ∧ string.getLast? = some singleQuote)

instance (string : JavaString) : Decidable (Wrapped string) :=
  inferInstanceAs (Decidable (_ ∧ (_ ∧ _ ∨ _ ∧ _)))

/-- `unquote`. -/
def unquote (string : JavaString) : JavaString :=
  if Wrapped string then (string.drop 1).dropLast else string

/-- The variables of the loop in `splitIgnoringQuotes`. -/
structure Scan where
  currentqoute : JavaChar
  resultingString : JavaString
  result : List JavaString
  deriving DecidableEq

/-- `if (resultingString.length() != 0) result.add(resultingString.toString())`. -/
def Scan.flush (s : Scan) : List JavaString :=
  if s.resultingString.length ≠ 0 then s.result ++ [s.resultingString] else s.result

/-- `use_current_char`. -/
def Scan.append (s : Scan) (c : JavaChar) : Scan :=
  { s with resultingString := s.resultingString ++ [c] }

/-- The body of the loop in `splitIgnoringQuotes`. -/
def Scan.next (s : Scan) (c : JavaChar) : Scan :=
  if c = singleQuote ∨ c = doubleQuote then
    if s.currentqoute = 0 then { s with currentqoute := c }
    else if s.currentqoute = c then { s with currentqoute := 0 }
    else s.append c
  else if c = space then
    if s.currentqoute = 0 then { s with result := s.flush, resultingString := [] }
    else s.append c
  else s.append c

/-- The variables before the loop. -/
def Scan.start : Scan where
  currentqoute := 0
  resultingString := []
  result := []

/-- The loop of `splitIgnoringQuotes`. -/
def scan (s : Scan) (input : JavaString) : Scan :=
  input.foldl Scan.next s

/-- `splitIgnoringQuotes`. -/
def splitIgnoringQuotes (rawArguments : JavaString) : List JavaString :=
  (scan Scan.start rawArguments).flush

/-- The `HashMap` of arguments, which is only read with `get`. -/
abbrev ArgumentsMap := JavaString → Option JavaString

/-- The loop of `toMap`, which takes two tokens at a time. -/
def toMapLoop (argumentsMap : ArgumentsMap) : List JavaString → Except JavaString ArgumentsMap
  | [] => .ok argumentsMap
  | [argument] => .error (text "No value for argument " ++ trim argument)
  | argument :: value :: rest =>
      if (trim argument).head? ≠ some dash then
        .error (text "Argument " ++ trim argument ++ text " must start with a dash!")
      else if (trim argument).length < 2 then .error (text "Missing argument after dash")
      else
        toMapLoop
          (Function.update argumentsMap ((trim argument).drop 1) (some (unquote (trim value))))
          rest

/-- `toMap`, and with it the constructor: the map, or the text of the exception. -/
def toMap (rawArguments : JavaString) : Except JavaString ArgumentsMap :=
  toMapLoop (fun _ => none) (splitIgnoringQuotes rawArguments)

/-- `getStringArgumentRaw`. `none` is `null`. -/
def getStringArgumentRaw (argumentsMap : ArgumentsMap) (argument : Option JavaString) :
    Except JavaString (Option JavaString) :=
  match argument with
  | none => .error (text "Argument must be at least one character long!")
  | some argument =>
      if argument.length < 1 then
        .error (text "Argument must be at least one character long!")
      else if trim argument ≠ argument then
        .error (text "Arguments cannot have trailing or leading spaces!")
      else .ok (argumentsMap argument)

/-- `getStringArgument`. -/
def getStringArgument (argumentsMap : ArgumentsMap) (argument : Option JavaString) :
    Except JavaString JavaString :=
  match getStringArgumentRaw argumentsMap argument with
  | .error message => .error message
  | .ok none =>
      .error (text "Expected string argument '" ++ argument.getD (text "null") ++ text "'")
  | .ok (some value) => .ok value

/-! ## Scanning -/

/-- The quotes of a string are balanced: its scan ends outside quotes. -/
def Balanced (a : JavaString) : Prop :=
  (scan Scan.start a).currentqoute = 0

instance (a : JavaString) : Decidable (Balanced a) :=
  inferInstanceAs (Decidable ((scan Scan.start a).currentqoute = 0))

/-- The state after tokens are prepended to those found. -/
def Scan.behind (tokens : List JavaString) (s : Scan) : Scan :=
  { s with result := tokens ++ s.result }

variable {s : Scan} {tokens : List JavaString} {a b : JavaString}

theorem flush_behind : (s.behind tokens).flush = tokens ++ s.flush := by
  unfold Scan.flush Scan.behind
  split
  · exact List.append_assoc ..
  · rfl

/-- The tokens found so far have no influence on a step of the loop. -/
theorem next_behind (c : JavaChar) : (s.behind tokens).next c = (s.next c).behind tokens := by
  have flushed : (s.behind tokens).flush = tokens ++ s.flush := flush_behind
  have quote : (s.behind tokens).currentqoute = s.currentqoute := rfl
  simp only [Scan.next, flushed, quote]
  split_ifs <;> rfl

/-- The tokens found so far have no influence on the loop. -/
theorem scan_behind (input : JavaString) :
    scan (s.behind tokens) input = (scan s input).behind tokens := by
  induction input generalizing s with
  | nil => rfl
  | cons c rest ih =>
      calc scan (s.behind tokens) (c :: rest)
        _ = scan ((s.next c).behind tokens) rest := congrArg (scan · rest) (next_behind c)
        _ = (scan s (c :: rest)).behind tokens := ih

theorem scan_append (input more : JavaString) : scan s (input ++ more) = scan (scan s input) more :=
  List.foldl_append ..

/-- A space outside quotes ends a token, and the loop begins anew behind it. -/
theorem next_space (outside : s.currentqoute = 0) :
    s.next space = Scan.start.behind s.flush := by
  have noQuote : ¬(space = singleQuote ∨ space = doubleQuote) := by decide
  simp [Scan.next, noQuote, outside, Scan.behind, Scan.start]

/-- **Behind balanced quotes and a space the splitter begins anew.** -/
theorem splitIgnoringQuotes_append (balanced : Balanced a) (b : JavaString) :
    splitIgnoringQuotes (a ++ space :: b) = splitIgnoringQuotes a ++ splitIgnoringQuotes b := by
  have between : scan Scan.start (a ++ space :: b) =
      scan (Scan.start.behind (splitIgnoringQuotes a)) b := by
    rw [scan_append]
    exact congrArg (scan · b) (next_space balanced)
  unfold splitIgnoringQuotes at between ⊢
  rw [between, scan_behind, flush_behind]

/-- Spaces alone are no tokens, and a string may begin with them. -/
theorem splitIgnoringQuotes_spaces (n : ℕ) (b : JavaString) :
    splitIgnoringQuotes (List.replicate n space ++ b) = splitIgnoringQuotes b := by
  induction n with
  | zero => rfl
  | succ n ih =>
      rw [List.replicate_succ, List.cons_append]
      exact (splitIgnoringQuotes_append (a := []) rfl _).trans ih

/-! ## Pairing -/

/-- A map whose entries override those of another one. -/
def ArgumentsMap.override (under later : ArgumentsMap) : ArgumentsMap :=
  fun key => (later key).or (under key)

/-- What is put into a map is put into the overriding one. -/
theorem override_update (under later : ArgumentsMap) (key value : JavaString) :
    Function.update (under.override later) key (some value) =
      under.override (Function.update later key (some value)) := by
  funext other
  by_cases same : other = key
  · subst same
    simp [ArgumentsMap.override]
  · simp [ArgumentsMap.override, same]

/-- What was in the map before the loop is overridden by what the loop puts into it, and has no
influence on whether the loop throws, and what. -/
theorem toMapLoop_override (under later : ArgumentsMap) (tokens : List JavaString) :
    toMapLoop (under.override later) tokens = (toMapLoop later tokens).map under.override := by
  induction later, tokens using toMapLoop.induct with
  | case1 later => rfl
  | case2 later argument => rfl
  | case3 later argument value rest noDash =>
      rw [toMapLoop, toMapLoop, if_pos noDash, if_pos noDash]
      rfl
  | case4 later argument value rest noDash short =>
      rw [toMapLoop, toMapLoop, if_neg noDash, if_neg noDash, if_pos short, if_pos short]
      rfl
  | case5 later argument value rest noDash short ih =>
      rw [toMapLoop, toMapLoop, if_neg noDash, if_neg noDash, if_neg short, if_neg short,
        override_update]
      exact ih

/-- **Tokens that are accepted** leave the loop at the beginning of a pair, and it goes on with
the map they gave. -/
theorem toMapLoop_append {map map' : ArgumentsMap} {tokens : List JavaString}
    (accepted : toMapLoop map tokens = .ok map') (more : List JavaString) :
    toMapLoop map (tokens ++ more) = toMapLoop map' more := by
  induction map, tokens using toMapLoop.induct with
  | case1 map =>
      cases accepted
      rfl
  | case2 map argument => cases accepted
  | case3 map argument value rest noDash =>
      rw [toMapLoop, if_pos noDash] at accepted
      cases accepted
  | case4 map argument value rest noDash short =>
      rw [toMapLoop, if_neg noDash, if_pos short] at accepted
      cases accepted
  | case5 map argument value rest noDash short ih =>
      rw [toMapLoop, if_neg noDash, if_neg short] at accepted
      rw [List.cons_append, List.cons_append, toMapLoop, if_neg noDash, if_neg short]
      exact ih accepted

/-- The arguments and the values that tokens give them, in order. -/
def occurrences : List JavaString → List (JavaString × JavaString)
  | argument :: value :: rest => ((trim argument).drop 1, unquote (trim value)) :: occurrences rest
  | _ => []

/-- Each argument gets the value of its last occurrence. -/
theorem toMapLoop_last {map map' : ArgumentsMap} {tokens : List JavaString}
    (accepted : toMapLoop map tokens = .ok map') (key : JavaString) :
    map' key = ((occurrences tokens).reverse.lookup key).or (map key) := by
  induction map, tokens using toMapLoop.induct with
  | case1 map =>
      cases accepted
      rfl
  | case2 map argument => cases accepted
  | case3 map argument value rest noDash =>
      rw [toMapLoop, if_pos noDash] at accepted
      cases accepted
  | case4 map argument value rest noDash short =>
      rw [toMapLoop, if_neg noDash, if_pos short] at accepted
      cases accepted
  | case5 map argument value rest noDash short ih =>
      rw [toMapLoop, if_neg noDash, if_neg short] at accepted
      rw [ih accepted, occurrences, List.reverse_cons, List.lookup_append, Option.or_assoc]
      congr 1
      by_cases same : key = (trim argument).drop 1
      · rw [same, Function.update_self, List.lookup_cons_self]
        rfl
      · rw [Function.update_of_ne same, List.lookup_cons, beq_eq_false_iff_ne.mpr same]
        rfl

/-! ## Composition -/

/-- The parser accepts a string. -/
def Accepts (rawArguments : JavaString) : Prop :=
  ∃ map, toMap rawArguments = .ok map

/-- **What is accepted and balanced** is parsed apart from what follows behind a space. -/
theorem toMap_append {under : ArgumentsMap} (balanced : Balanced a)
    (accepted : toMap a = .ok under) (b : JavaString) :
    toMap (a ++ space :: b) = (toMap b).map under.override := by
  unfold toMap at accepted ⊢
  have empty : under = under.override fun _ => none := by
    funext key
    rfl
  rw [splitIgnoringQuotes_append balanced, toMapLoop_append accepted, ← toMapLoop_override,
    ← empty]

/-- **Argument strings compose.** -/
theorem arguments_compose (balanced : Balanced a) :
    -- behind an accepted string another one is parsed as if alone, and overrides
    (∀ under, toMap a = .ok under → ∀ b,
      (Accepts (a ++ space :: b) ↔ Accepts b) ∧
        ∀ later, toMap b = .ok later → toMap (a ++ space :: b) = .ok (under.override later)) ∧
    -- the number of spaces between arguments has no effect
    (∀ (n : ℕ) (b : JavaString),
      toMap (a ++ List.replicate (n + 1) space ++ b) = toMap (a ++ space :: b)) ∧
    -- the last occurrence of an argument wins
    ∀ map, toMap a = .ok map → ∀ key,
      map key = (occurrences (splitIgnoringQuotes a)).reverse.lookup key := by
  refine ⟨fun under accepted b => ?_, fun n b => ?_, fun map accepted key => ?_⟩
  · have composed := toMap_append balanced accepted b
    constructor
    · unfold Accepts
      rw [composed]
      cases toMap b with
      | error message =>
          constructor
          · rintro ⟨map, thrown⟩
            cases thrown
          · rintro ⟨map, thrown⟩
            cases thrown
      | ok later => exact iff_of_true ⟨_, rfl⟩ ⟨later, rfl⟩
    · intro later parsed
      rw [composed, parsed]
      rfl
  · unfold toMap
    rw [List.replicate_succ, List.append_assoc, List.cons_append,
      splitIgnoringQuotes_append balanced, splitIgnoringQuotes_append balanced,
      splitIgnoringQuotes_spaces]
  · have last := toMapLoop_last accepted key
    rw [Option.or_none] at last
    exact last

/-- A quoted value, then the same argument again behind two spaces: the second value wins. -/
theorem arguments_compose_again :
    ∃ map, toMap (text "-a '1 2'" ++ List.replicate 2 space ++ text "-a 3") = .ok map ∧
      map (text "a") = some (text "3") := by
  obtain ⟨composes, spaces, -⟩ := arguments_compose (a := text "-a '1 2'") (by decide)
  obtain ⟨under, accepted⟩ : Accepts (text "-a '1 2'") := ⟨_, rfl⟩
  obtain ⟨later, parsed, last⟩ : ∃ later, toMap (text "-a 3") = .ok later ∧
      later (text "a") = some (text "3") := ⟨_, rfl, by decide⟩
  refine ⟨under.override later, ?_, ?_⟩
  · rw [spaces 1]
    exact (composes under accepted _).2 later parsed
  · rw [ArgumentsMap.override, last]
    rfl

end MsiSdrDriver.Service.ArgumentParser
