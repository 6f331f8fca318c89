import MsiSdrDriver.Async.MemoryBalance

/-!
# The memory of the sessions

Behind a `MsiSdrDevice` there is a native object, which `initialize` allocates and `deInit` frees.
In between `openAsync` is called any number of times. It takes the characters of two Java strings,
opens the device, and allocates the buffer in which the samples of the 8-bit mode are converted.

Each path gives back what it has taken, but for one: if `announceOnOpen` is not found, `openAsync`
returns at once, and the characters of its two strings are lost. `sessions_lose` says that nothing
else is, of what is here: the object, the strings and the device. The embedded server has memory of
its own, and a thread that uses the object, which are both left out.
-/

set_option autoImplicit false

namespace MsiSdrDriver.Server.SessionMemory

open MsiSdrDriver.Foundations
open MsiSdrDriver.Foundations.HeapProgram
open MsiSdrDriver.Async
open MsiSdrDriver.Driver

/-! ## The code -/

/-- How a call of `openAsync` goes: whether the method that announces the opening is found, how the
device opens, whether the sample rate, the frequency and the address are accepted, and how the
stream goes. -/
structure SessionScript where
  findsMethod : Bool
  opening : Opening
  accepts : Bool
  attempts : Transfer → Attempt

/-- The call of `msisdr_read_async`. -/
def SessionScript.call (session : SessionScript) : ReadCall := ⟨true, 0, 0, session.attempts⟩

variable (place : Heap Address Block → Address)

/-- `initialize`. -/
def initializeAndroid : Program Address := malloc place (.android NULL NULL)

/-- The two calls of `ReleaseStringUTFChars`. -/
def releaseStrings (address devicePath : Address) : Program Unit := do
  free address
  free devicePath

/-- `openAsync` from `msisdr_read_async` on. -/
def stream (pointer device address devicePath : Address) (session : SessionScript) :
    Program Unit := do
  let _ ← msisdrReadAsync place device session.call
  let (miriDev, convBuf) ← load pointer Block.android?
  unlessNull convBuf (free convBuf)
  store pointer (.android miriDev NULL)
  store pointer (.android NULL NULL)
  msisdrClose device
  releaseStrings address devicePath

/-- `openAsync`. -/
def openAsync (pointer : Address) (session : SessionScript) : Program Unit := do
  let devicePath ← malloc place .chars
  let address ← malloc place .chars
  if ¬session.findsMethod then pure ()
  else
    match ← msisdrOpenFd place session.opening with
    | none => releaseStrings address devicePath
    | some device =>
        if ¬session.accepts then do
          msisdrClose device
          releaseStrings address devicePath
        else do
          let (miriDev, _) ← load pointer Block.android?
          let convBuf ← malloc place (.bytes 32768)
          store pointer (.android miriDev convBuf)
          store pointer (.android device convBuf)
          stream place pointer device address devicePath session

def openEach (pointer : Address) : List SessionScript → Program Unit
  | [] => pure ()
  | session :: later => do
      openAsync place pointer session
      openEach pointer later

/-- `deInit`. -/
def deInit (pointer : Address) : Program Unit := do
  let (miriDev, convBuf) ← load pointer Block.android?
  unlessNull miriDev (msisdrClose miriDev)
  unlessNull convBuf (free convBuf)
  free pointer

/-- A native object from its construction to its end. -/
def androidLife (sessions : List SessionScript) : Program Unit := do
  let pointer ← initializeAndroid place
  openEach place pointer sessions
  deInit pointer

/-! ## What is lost -/

variable {place} {base h : Heap Address Block} {others lost : List (Address × Block)}
  {pointer device address devicePath : Address} {session : SessionScript}

theorem releaseStrings_owned
    (owns : Owns base ((address, .chars) :: (devicePath, .chars) :: others) h) :
    ∃ h', releaseStrings address devicePath h = some ((), h') ∧ Owns base others h' := by
  obtain ⟨h₁, first, owns⟩ := free_owned owns
  obtain ⟨h₂, second, owns⟩ := free_owned owns
  refine ⟨h₂, ?_, owns⟩
  rw [releaseStrings, run_bind first]
  exact second

/-- A session whose stream is as libusb can make it. -/
def SessionScript.Fits (session : SessionScript) : Prop := session.call.Fits

/-- **A stream** gives back the device, the conversion buffer and the strings. -/
theorem stream_owned (allocates : Allocates NULL place base) (fits : session.Fits)
    {dev : DeviceFields} {convBuf : Address} (notNull : convBuf ≠ NULL)
    (rests : Rests base ((pointer, .android device convBuf) :: (convBuf, .bytes 32768) ::
      (address, .chars) :: (devicePath, .chars) :: others) device dev h) :
    ∃ h', stream place pointer device address devicePath session h = some ((), h') ∧
      Owns base ((pointer, .android NULL NULL) :: others) h' := by
  obtain ⟨r, dev₁, h₁, ran, rests⟩ := rests.reads allocates fits
  have found : load pointer Block.android? h₁ = some ((device, convBuf), h₁) :=
    load_owned rests.owns (List.mem_append_right _ List.mem_cons_self) rfl
  obtain ⟨h₂, freed, owns⟩ := free_owned (rests.owns.perm
    (((List.Perm.swap ..).append_left _).trans List.perm_middle))
  obtain ⟨h₃, cleared, owns⟩ := store_owned_middle owns (.android device NULL)
  obtain ⟨h₄, detached, owns⟩ := store_owned_middle owns (.android NULL NULL)
  have rests₄ : Rests base ((pointer, .android NULL NULL) :: (address, .chars) ::
      (devicePath, .chars) :: others) device dev₁ h₄ := ⟨rests.idle, owns⟩
  obtain ⟨h₅, closed, owns⟩ := rests₄.closes
  obtain ⟨h₆, released, owns⟩ := releaseStrings_owned
    (owns.perm ((List.Perm.swap ..).trans ((List.Perm.swap ..).cons _)))
  refine ⟨h₆, ?_, owns⟩
  rw [stream, run_bind ran, run_bind found]
  dsimp only
  rw [run_bind (run_unlessNull notNull freed), run_bind cleared, run_bind detached,
    run_bind closed]
  exact released

/-- **A session** loses the characters of its strings exactly if `announceOnOpen` is not found. -/
theorem openAsync_owned (allocates : Allocates NULL place base) (fits : session.Fits)
    (owns : Owns base ((pointer, .android NULL NULL) :: others) h) :
    ∃ (strings : List Address) (h' : Heap Address Block),
      openAsync place pointer session h = some ((), h') ∧
      strings.length = (if session.findsMethod then 0 else 2) ∧
      Owns base ((pointer, .android NULL NULL) :: (strings.map (·, .chars) ++ others)) h' := by
  obtain ⟨devicePath, h₁, path, -, owns⟩ := malloc_owned allocates owns .chars
  obtain ⟨address, h₂, hasAddress, -, owns⟩ := malloc_owned allocates owns .chars
  have front : ∀ {h}, Owns base ((address, .chars) :: (devicePath, .chars) ::
      (pointer, .android NULL NULL) :: others) h → ∃ h', releaseStrings address devicePath h =
        some ((), h') ∧ Owns base ((pointer, .android NULL NULL) :: others) h' :=
    fun owns => releaseStrings_owned owns
  rw [openAsync, run_bind path, run_bind hasAddress]
  by_cases finds : session.findsMethod = true
  · rw [if_neg (not_not_intro finds), if_pos finds]
    obtain ⟨r, h₃, opened, left⟩ := openFd_owned allocates owns session.opening
    rw [run_bind opened]
    cases r with
    | none =>
        obtain ⟨h₄, released, owns⟩ := front left
        exact ⟨[], h₄, released, rfl, owns⟩
    | some device =>
        obtain ⟨dev, rests⟩ := left
        dsimp only
        by_cases accepts : session.accepts = true
        · have found : load pointer Block.android? h₃ = some ((NULL, NULL), h₃) :=
            load_owned rests.owns (List.mem_append_right _ (.tail _ (.tail _ (.head _)))) rfl
          obtain ⟨convBuf, h₄, allocated, notNull, owns⟩ :=
            malloc_owned allocates rests.owns (.bytes 32768)
          have pointerFirst : ([(convBuf, Block.bytes 32768), (address, .chars),
              (devicePath, .chars)] ++ (pointer, .android NULL NULL) :: others).Perm _ :=
            List.perm_middle
          obtain ⟨h₅, stored, owns⟩ := store_owned_middle
            (owns.perm (List.perm_middle.symm.trans (pointerFirst.append_left _)))
            (.android NULL convBuf)
          obtain ⟨h₆, attached, owns⟩ := store_owned_middle owns (.android device convBuf)
          obtain ⟨h₇, ended, owns⟩ := stream_owned allocates fits notNull ⟨rests.idle, owns⟩
          rw [if_neg (not_not_intro accepts), run_bind found]
          dsimp only
          rw [run_bind allocated, run_bind stored, run_bind attached]
          exact ⟨[], h₇, ended, rfl, owns⟩
        · obtain ⟨h₄, closed, owns⟩ := rests.closes
          obtain ⟨h₅, released, owns⟩ := front owns
          rw [if_pos accepts, run_bind closed]
          exact ⟨[], h₅, released, rfl, owns⟩
  · rw [if_pos finds, if_neg finds]
    exact ⟨[address, devicePath], h₂, rfl, rfl,
      owns.perm (((List.Perm.swap ..).cons _).trans (List.Perm.swap ..))⟩

/-- The sessions in which `announceOnOpen` is not found. -/
def losing (sessions : List SessionScript) : List SessionScript :=
  sessions.filter fun session => !session.findsMethod

theorem openEach_owned (allocates : Allocates NULL place base) {sessions : List SessionScript}
    (fit : ∀ session ∈ sessions, session.Fits)
    (owns : Owns base ((pointer, .android NULL NULL) :: others) h) :
    ∃ (strings : List Address) (h' : Heap Address Block),
      openEach place pointer sessions h = some ((), h') ∧
      strings.length = 2 * (losing sessions).length ∧
      Owns base ((pointer, .android NULL NULL) :: (strings.map (·, .chars) ++ others)) h' := by
  induction sessions generalizing others h with
  | nil => exact ⟨[], h, rfl, rfl, owns⟩
  | cons session later ih =>
      obtain ⟨strings, h₁, ran, lost, owns⟩ :=
        openAsync_owned allocates (fit session List.mem_cons_self) owns
      obtain ⟨more, h₂, others, lostLater, owns⟩ :=
        ih (fun other member => fit other (List.mem_cons_of_mem _ member)) owns
      refine ⟨more ++ strings, h₂, ?_, ?_, ?_⟩
      · rw [openEach, run_bind ran]
        exact others
      · rw [List.length_append, lost, lostLater, losing, losing, List.filter_cons]
        by_cases finds : session.findsMethod = true
        · simp [finds]
        · simp [finds]
          omega
      · rw [List.map_append, List.append_assoc]
        exact owns

/-- **What the sessions lose** are the characters of two strings for each one in which
`announceOnOpen` is not found, and nothing else. The memory is as it was exactly if there is no such
session. -/
theorem sessions_lose (allocates : Allocates NULL place h) {sessions : List SessionScript}
    (fit : ∀ session ∈ sessions, session.Fits) :
    ∃ (strings : List Address) (h' : Heap Address Block),
      androidLife place sessions h = some ((), h') ∧
      strings.length = 2 * (losing sessions).length ∧
      Owns h (strings.map (·, .chars)) h' ∧
      (h'.cells = h.cells ↔ ∀ session ∈ sessions, session.findsMethod = true) := by
  obtain ⟨pointer, h₁, allocated, -, owns⟩ :=
    malloc_owned allocates (.refl h) (.android NULL NULL)
  obtain ⟨strings, h₂, ran, lost, owns⟩ := openEach_owned allocates fit owns
  rw [List.append_nil] at owns
  have found : load pointer Block.android? h₂ = some ((NULL, NULL), h₂) :=
    load_owned owns List.mem_cons_self rfl
  obtain ⟨h₃, freed, owns⟩ := free_owned owns
  refine ⟨strings, h₃, ?_, lost, owns, ?_⟩
  · rw [androidLife, initializeAndroid, run_bind allocated, run_bind ran, deInit, run_bind found]
    exact freed
  · have none : strings = [] ↔ ∀ session ∈ sessions, session.findsMethod = true := by
      rw [← List.length_eq_zero_iff, lost, Nat.mul_eq_zero, List.length_eq_zero_iff, losing,
        List.filter_eq_nil_iff]
      simp
    rw [← none]
    constructor
    · intro same
      cases strings with
      | nil => rfl
      | cons a others =>
          have live := owns.live (a, .chars) List.mem_cons_self
          rw [same, owns.new a List.mem_cons_self] at live
          cases live
    · rintro rfl
      exact owns.cells_eq

/-- A session in which a block arrives. -/
def servedSession : SessionScript where
  findsMethod := true
  opening := ⟨true, true, true, true, .bulk⟩
  accepts := true
  attempts
    | .isoc => ⟨false, fun _ => false, [], [], false, []⟩
    | .bulk =>
        ⟨true, fun _ => true, [], [.completes 31 (.bulk ⟨fun _ => 7, 1024⟩), .scans], false, []⟩

theorem servedSession_fits : servedSession.Fits := by
  intro transfer
  cases transfer with
  | bulk =>
      refine ⟨fun event member => absurd member List.not_mem_nil, ?_,
        fun event member => absurd member List.not_mem_nil⟩
      intro event member
      rcases List.mem_cons.mp member with rfl | member
      · exact ⟨by decide, rfl, show 1024 ≤ 16384 by decide⟩
      · obtain rfl := List.mem_singleton.mp member
        trivial
  | isoc =>
      exact ⟨fun event member => absurd member List.not_mem_nil,
        fun event member => absurd member List.not_mem_nil,
        fun event member => absurd member List.not_mem_nil⟩

/-- One session is served, and in another one `announceOnOpen` is not found. -/
theorem sessions_lose_twoSessions :
    ∃ (strings : List Address) (h' : Heap Address Block),
      androidLife firstFit [servedSession, { servedSession with findsMethod := false }] Heap.empty =
        some ((), h') ∧ strings.length = 2 ∧
        h'.cells ≠ (Heap.empty : Heap Address Block).cells := by
  have fit : ∀ session ∈ [servedSession, { servedSession with findsMethod := false }],
      session.Fits := by
    intro session member
    rcases List.mem_cons.mp member with rfl | member
    · exact servedSession_fits
    · obtain rfl := List.mem_singleton.mp member
      exact servedSession_fits
  obtain ⟨strings, h', ran, lost, -, balanced⟩ := sessions_lose firstFit_allocates fit
  refine ⟨strings, h', ran, lost, fun same => ?_⟩
  have all := balanced.mp same { servedSession with findsMethod := false } (.tail _ (.head _))
  cases all

end MsiSdrDriver.Server.SessionMemory
