import Mathlib.Data.List.Perm.Subperm
import MsiSdrDriver.Service.ArgumentParser

/-!
# Quoted arguments

What comes back from `ArgumentParser` when each argument of a map is written as a dash, its name,
a space and its value in quotes. The value goes through three stages. The splitter takes the
quotes off and drops what is left when that is empty. `toMap` then trims the value, and takes off
a second pair of quotes. So a value comes back exactly when it is not empty, has no blanks at its
ends and is not wrapped in quotes (`quoting_round_trip_iff`).
-/

set_option autoImplicit false

namespace MsiSdrDriver.Service.ArgumentParser

/-! ## Rendering -/

/-- An argument, its value and the quotes that the value is written in. -/
structure Entry where
  key : JavaString
  value : JavaString
  quote : JavaChar
  nonempty : key ≠ []
  plain : ∀ c ∈ key, blank c = false ∧ c ≠ singleQuote ∧ c ≠ doubleQuote
  isQuote : quote = singleQuote ∨ quote = doubleQuote
  notInValue : quote ∉ value

/-- A finite map, as its entries in the order in which they are written. -/
structure Arguments where
  entries : List Entry
  distinct : (entries.map Entry.key).Nodup

/-- The value in its quotes. -/
def Entry.quoted (e : Entry) : JavaString :=
  e.quote :: (e.value ++ [e.quote])

/-- A dash, the name, a space and the value in quotes. -/
def Entry.render (e : Entry) : JavaString :=
  (dash :: e.key) ++ space :: e.quoted

/-- Entries joined with single spaces. -/
def render : List Entry → JavaString
  | [] => []
  | [e] => e.render
  | e :: rest => e.render ++ space :: render rest

/-- What the parser makes of the rendering is the map again. -/
def RoundTrips (arguments : Arguments) : Prop :=
  ∃ map, toMap (render arguments.entries) = .ok map ∧
    ∀ e ∈ arguments.entries, getStringArgument map (some e.key) = .ok e.value

/-! ## The tokens of a rendering -/

variable {s : Scan}

/-- Characters that the loop appends go to the end of the pending token. -/
theorem scan_of_append (input : JavaString)
    (each : ∀ c ∈ input, ∀ t : Scan, t.currentqoute = s.currentqoute → t.next c = t.append c) :
    scan s input = { s with resultingString := s.resultingString ++ input } := by
  induction input generalizing s with
  | nil => simp [scan]
  | cons c rest ih =>
      have head : s.next c = s.append c := each c List.mem_cons_self s rfl
      have tail := ih (s := s.append c) fun d member => each d (List.mem_cons_of_mem c member)
      calc scan s (c :: rest)
        _ = scan (s.append c) rest := congrArg (scan · rest) head
        _ = { s with resultingString := s.resultingString ++ [c] ++ rest } := tail
        _ = { s with resultingString := s.resultingString ++ c :: rest } := by
          rw [List.append_assoc]
          rfl

/-- A character that is no quote and no space is appended. -/
theorem next_plain {c : JavaChar} (noQuote : c ≠ singleQuote ∧ c ≠ doubleQuote)
    (noSpace : c ≠ space) (t : Scan) : t.next c = t.append c := by
  simp [Scan.next, noQuote, noSpace]

/-- Inside quotes every other character is appended. -/
theorem next_quoted {c : JavaChar} {t : Scan} (inside : t.currentqoute ≠ 0)
    (other : t.currentqoute ≠ c) : t.next c = t.append c := by
  simp [Scan.next, inside, other]

theorem quote_ne_zero (e : Entry) : e.quote ≠ 0 := by
  rcases e.isQuote with same | same <;> rw [same] <;> decide

/-- The name of an argument is one token. -/
theorem scan_name (e : Entry) :
    scan Scan.start (dash :: e.key) =
      { Scan.start with resultingString := dash :: e.key } := by
  refine scan_of_append _ fun c member t _ => ?_
  rcases List.mem_cons.mp member with rfl | inKey
  · exact next_plain (by decide) (by decide) t
  · obtain ⟨notBlank, noQuote⟩ := e.plain c inKey
    refine next_plain noQuote ?_ t
    rintro rfl
    cases notBlank

/-- The quotes of a value go, and what is between them is left. -/
theorem scan_quotedValue (e : Entry) :
    scan Scan.start e.quoted = { Scan.start with resultingString := e.value } := by
  have opens : Scan.start.next e.quote = { Scan.start with currentqoute := e.quote } := by
    rcases e.isQuote with same | same <;> rw [same] <;> decide
  have between := scan_of_append (s := { Scan.start with currentqoute := e.quote }) e.value
    fun c member t same => next_quoted (same ▸ quote_ne_zero e)
      (same ▸ (ne_of_mem_of_not_mem member e.notInValue).symm)
  have closes : ∀ t : Scan, t.currentqoute = e.quote →
      t.next e.quote = { t with currentqoute := 0 } := by
    intro t same
    have quotes : e.quote = singleQuote ∨ e.quote = doubleQuote := e.isQuote
    simp [Scan.next, quotes, same, quote_ne_zero e]
  calc scan Scan.start e.quoted
    _ = scan (Scan.start.next e.quote) (e.value ++ [e.quote]) := rfl
    _ = (scan { Scan.start with currentqoute := e.quote } e.value).next e.quote := by
      rw [opens, scan_append]
      rfl
    _ = { Scan.start with resultingString := e.value } := by
      rw [between, closes _ rfl]
      rfl

/-- The tokens of an entry: an empty value has none. -/
def Entry.tokens (e : Entry) : List JavaString :=
  (dash :: e.key) :: if e.value = [] then [] else [e.value]

theorem splitIgnoringQuotes_entry (e : Entry) : splitIgnoringQuotes e.render = e.tokens := by
  have balanced : Balanced (dash :: e.key) := by
    rw [Balanced, scan_name]
    rfl
  rw [Entry.render, splitIgnoringQuotes_append balanced, splitIgnoringQuotes, splitIgnoringQuotes,
    scan_name, scan_quotedValue, Entry.tokens]
  by_cases empty : e.value = []
  · simp [Scan.flush, Scan.start, empty]
  · simp [Scan.flush, Scan.start, empty]

theorem balanced_entry (e : Entry) : Balanced e.render := by
  have ends : scan Scan.start (dash :: e.key) =
      { Scan.start with resultingString := dash :: e.key } := scan_name e
  have anew : Scan.next { Scan.start with resultingString := dash :: e.key } space =
      Scan.start.behind [dash :: e.key] := next_space rfl
  rw [Balanced, Entry.render, scan_append, ends]
  change (scan (Scan.next _ space) e.quoted).currentqoute = 0
  rw [anew, scan_behind, scan_quotedValue]
  rfl

/-- **The tokens of a rendering** are those of its entries. -/
theorem splitIgnoringQuotes_render (entries : List Entry) :
    splitIgnoringQuotes (render entries) = entries.flatMap Entry.tokens := by
  induction entries with
  | nil => rfl
  | cons e rest ih =>
      cases rest with
      | nil =>
          rw [render, splitIgnoringQuotes_entry, List.flatMap_cons, List.flatMap_nil,
            List.append_nil]
      | cons f others =>
          have behind : render (e :: f :: others) = e.render ++ space :: render (f :: others) := rfl
          rw [behind, splitIgnoringQuotes_append (balanced_entry e), splitIgnoringQuotes_entry, ih]
          exact List.flatMap_cons.symm

/-! ## Trimming and unquoting -/

theorem trim_sublist (string : JavaString) : (trim string).Sublist string :=
  (List.rdropWhile_prefix _ _).sublist.trans (List.dropWhile_sublist _)

/-- A string without blanks is not trimmed. -/
theorem trim_of_plain {string : JavaString} (plain : ∀ c ∈ string, blank c = false) :
    trim string = string := by
  have front : string.dropWhile blank = string := by
    apply List.dropWhile_eq_self_iff.mpr
    intro nonempty
    rw [plain _ (List.getElem_mem nonempty)]
    exact Bool.false_ne_true
  rw [trim, front, List.rdropWhile_eq_self_iff]
  intro nonempty
  rw [plain _ (List.getLast_mem nonempty)]
  exact Bool.false_ne_true

theorem length_unquote_le (string : JavaString) : (unquote string).length ≤ string.length := by
  unfold unquote
  split
  · simp only [List.length_dropLast, List.length_drop]
    omega
  · exact Nat.le_refl _

/-- **A value survives trimming and unquoting** exactly when neither does anything to it. -/
theorem unquote_trim_eq_iff (value : JavaString) :
    unquote (trim value) = value ↔ trim value = value ∧ ¬Wrapped value := by
  constructor
  · intro same
    have trimmed : trim value = value := by
      apply (trim_sublist value).eq_of_length_le
      have shorter := length_unquote_le (trim value)
      rwa [same] at shorter
    refine ⟨trimmed, fun wrapped => ?_⟩
    have lengths := congrArg List.length same
    rw [trimmed, unquote, if_pos wrapped, List.length_dropLast, List.length_drop] at lengths
    have long := wrapped.1
    omega
  · rintro ⟨trimmed, notWrapped⟩
    rw [trimmed, unquote, if_neg notWrapped]

/-! ## Reading the values back -/

theorem trim_key (e : Entry) : trim e.key = e.key :=
  trim_of_plain fun c member => (e.plain c member).1

theorem trim_name (e : Entry) : trim (dash :: e.key) = dash :: e.key := by
  apply trim_of_plain
  intro c member
  rcases List.mem_cons.mp member with rfl | inKey
  · decide
  · exact (e.plain c inKey).1

/-- The name of an entry is a key that may be asked for. -/
theorem getStringArgument_eq_ok_iff (map : ArgumentsMap) (e : Entry) (value : JavaString) :
    getStringArgument map (some e.key) = .ok value ↔ map e.key = some value := by
  have long : ¬e.key.length < 1 := by
    have positive := List.length_pos_iff.mpr e.nonempty
    omega
  have raw : getStringArgumentRaw map (some e.key) = .ok (map e.key) := by
    rw [getStringArgumentRaw, if_neg long, if_neg (not_not_intro (trim_key e))]
  unfold getStringArgument
  rw [raw]
  cases map e.key with
  | none => simp
  | some found => simp

/-- A pair of tokens that an entry with a value has is accepted. -/
theorem toMapLoop_entry (map : ArgumentsMap) (e : Entry) (value : JavaString)
    (rest : List JavaString) :
    toMapLoop map ((dash :: e.key) :: value :: rest) =
      toMapLoop (Function.update map e.key (some (unquote (trim value)))) rest := by
  have long : ¬(dash :: e.key).length < 2 := by
    have positive := List.length_pos_iff.mpr e.nonempty
    rw [List.length_cons]
    omega
  have begins : ¬(dash :: e.key).head? ≠ some dash := not_not_intro rfl
  rw [toMapLoop, trim_name, if_neg begins, if_neg long]
  rfl

/-- **Where no value is empty** the tokens are accepted, and each name is given its value,
trimmed and unquoted. -/
theorem toMapLoop_entries {entries : List Entry} (some : ∀ e ∈ entries, e.value ≠ [])
    (distinct : (entries.map Entry.key).Nodup) (map : ArgumentsMap) :
    ∃ map', toMapLoop map (entries.flatMap Entry.tokens) = .ok map' ∧
      (∀ e ∈ entries, map' e.key = .some (unquote (trim e.value))) ∧
      ∀ key ∉ entries.map Entry.key, map' key = map key := by
  induction entries generalizing map with
  | nil =>
      refine ⟨map, rfl, ?_, fun _ _ => rfl⟩
      intro e member
      cases member
  | cons e rest ih =>
      obtain ⟨outside, distinct⟩ := List.nodup_cons.mp distinct
      have first := some e List.mem_cons_self
      have pair : (e :: rest).flatMap Entry.tokens =
          (dash :: e.key) :: e.value :: rest.flatMap Entry.tokens := by
        rw [List.flatMap_cons, Entry.tokens, if_neg first]
        rfl
      obtain ⟨map', accepted, values, others⟩ := ih
        (fun f member => some f (List.mem_cons_of_mem e member)) distinct
        (Function.update map e.key (.some (unquote (trim e.value))))
      refine ⟨map', ?_, ?_, ?_⟩
      · rw [pair, toMapLoop_entry]
        exact accepted
      · intro f member
        rcases List.mem_cons.mp member with rfl | later
        · rw [others _ outside, Function.update_self]
        · exact values f later
      · intro key absent
        rw [List.map_cons, List.mem_cons, not_or] at absent
        rw [others key absent.2, Function.update_of_ne absent.1]

theorem length_occurrences_le (tokens : List JavaString) :
    2 * (occurrences tokens).length ≤ tokens.length := by
  induction tokens using occurrences.induct with
  | case1 argument value rest ih =>
      simp only [occurrences, List.length_cons]
      omega
  | case2 tokens short =>
      rw [occurrences]
      · exact Nat.zero_le _
      · exact short

/-- An entry has two tokens, or one where its value is empty. -/
theorem length_tokens (entries : List Entry) :
    (entries.flatMap Entry.tokens).length + entries.countP (fun e => e.value.isEmpty) =
      2 * entries.length := by
  induction entries with
  | nil => rfl
  | cons e rest ih =>
      rw [List.flatMap_cons, List.length_append, List.countP_cons, List.length_cons, Entry.tokens]
      by_cases empty : e.value = []
      · simp only [empty, if_true, List.length_singleton, List.isEmpty_nil]
        omega
      · simp only [empty, if_false, List.length_cons, List.length_nil, List.isEmpty_iff]
        omega

/-- **Where a value is empty** there are too few tokens for all names. -/
theorem value_ne_nil {entries : List Entry} (distinct : (entries.map Entry.key).Nodup)
    {map : ArgumentsMap} (accepted : toMapLoop (fun _ => none) (entries.flatMap Entry.tokens) =
      .ok map) (known : ∀ e ∈ entries, map e.key ≠ none) : ∀ e ∈ entries, e.value ≠ [] := by
  intro empty member none
  have named : entries.map Entry.key ⊆
      (occurrences (entries.flatMap Entry.tokens)).map Prod.fst := by
    intro key name
    obtain ⟨e, inside, rfl⟩ := List.mem_map.mp name
    by_contra absent
    apply known e inside
    rw [toMapLoop_last accepted e.key, Option.or_none, List.lookup_eq_none_iff]
    intro pair among
    rw [bne_iff_ne]
    intro same
    exact absent (same ▸ List.mem_map_of_mem (List.mem_reverse.mp among))
  have atLeast := (distinct.subperm named).length_le
  rw [List.length_map, List.length_map] at atLeast
  have atMost := length_occurrences_le (entries.flatMap Entry.tokens)
  have tokens := length_tokens entries
  have counted : 0 < entries.countP fun e => e.value.isEmpty :=
    List.countP_pos_iff.mpr ⟨empty, member, by rw [none]; rfl⟩
  omega

/-! ## The round trip -/

/-- **What is written in quotes comes back** exactly when no value is empty, begins or ends with a
blank, or is wrapped in quotes. -/
theorem quoting_round_trip_iff (arguments : Arguments) :
    RoundTrips arguments ↔ ∀ e ∈ arguments.entries,
      e.value ≠ [] ∧ trim e.value = e.value ∧ ¬Wrapped e.value := by
  obtain ⟨entries, distinct⟩ := arguments
  unfold RoundTrips toMap
  simp only [splitIgnoringQuotes_render, getStringArgument_eq_ok_iff]
  constructor
  · rintro ⟨map, accepted, read⟩
    have filled := value_ne_nil distinct accepted fun e member => by
      rw [read e member]
      exact Option.some_ne_none _
    obtain ⟨map', parsed, values, -⟩ := toMapLoop_entries filled distinct fun _ => none
    obtain rfl : map' = map := Except.ok.inj (parsed.symm.trans accepted)
    intro e member
    have kept := Option.some.inj ((values e member).symm.trans (read e member))
    exact ⟨filled e member, (unquote_trim_eq_iff e.value).mp kept⟩
  · intro good
    obtain ⟨map, parsed, values, -⟩ :=
      toMapLoop_entries (fun e member => (good e member).1) distinct fun _ => none
    refine ⟨map, parsed, fun e member => ?_⟩
    rw [values e member, (unquote_trim_eq_iff e.value).mpr (good e member).2]

/-- The argument `a` with the empty value, in double quotes. -/
def emptyArgument : Entry where
  key := text "a"
  value := []
  quote := doubleQuote
  nonempty := by decide
  plain := by simp [text, blank, singleQuote, doubleQuote]
  isQuote := .inr rfl
  notInValue := List.not_mem_nil

/-- **The empty value does not come back**: the parser finds no value for the argument. -/
theorem empty_value_refused :
    ¬∀ arguments : Arguments, RoundTrips arguments := by
  intro all
  obtain ⟨map, accepted, -⟩ := all ⟨[emptyArgument], by simp⟩
  have refused : toMap (render [emptyArgument]) =
      .error (text "No value for argument " ++ text "-a") := by rfl
  rw [refused] at accepted
  cases accepted

end MsiSdrDriver.Service.ArgumentParser
