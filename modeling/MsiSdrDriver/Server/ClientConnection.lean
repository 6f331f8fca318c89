import MsiSdrDriver.Server.CommandFraming

/-!
# A client's connection

`commandListener` on a connection. The client sends some bytes, cut in any way and with pauses in
which `select` times out, and then closes the connection or loses it. From then on `select` reports
the socket readable, and `recv` returns 0 or -1. Where the client sends `TCP_ANDROID_EXIT`,
`tcpCommandCallback` calls `sdrtcp_stop_serving_client` in the listener's own thread.

In every run nothing gets lost between the connection and the listener, and what is carried out is
what has come first (`ConnectedListener.Noticing`).

`dev->miri_dev`, without which the callback does nothing, stays as it is while the client is
connected; when `openAsync` clears it, it goes on to stop the server itself.
-/

set_option autoImplicit false

namespace MsiSdrDriver.Server

open MsiSdrDriver.Foundations

/-! ## Connections -/

/-- What arrives at the socket next: nothing for as long as `select` waits, or some bytes. -/
inductive Arrival where
  | timeout
  | segment (first : UInt8) (more : List UInt8)

def Arrival.bytes : Arrival → List UInt8
  | .timeout => []
  | .segment first more => first :: more

/-- All that the client sends. -/
def sentBytes (arrivals : List Arrival) : List UInt8 := arrivals.flatMap Arrival.bytes

/-- How a connection ends. -/
inductive Ending where
  | closed
  | error
  deriving DecidableEq

/-- What `recv` returns in the end. -/
def Ending.recv : Ending → Option (List UInt8)
  | .closed => some []
  | .error => none

/-- `select` finds the socket readable. -/
def readable : List Arrival → Bool
  | .timeout :: _ => false
  | _ => true

/-- The bytes that are still to arrive. -/
def putBack : List UInt8 → List Arrival → List Arrival
  | [], arrivals => arrivals
  | first :: more, arrivals => .segment first more :: arrivals

/-- What `recv` returns when it is asked for `left` bytes, and what is still to arrive. It blocks
where nothing is there. -/
def receiveFrom (ending : Ending) (left : ℕ) :
    List Arrival → Option (Option (List UInt8) × List Arrival)
  | [] => some (ending.recv, [])
  | .timeout :: _ => none
  | .segment first more :: rest =>
      some (some ((first :: more).take left), putBack ((first :: more).drop left) rest)

/-! ## The listener on a connection -/

/-- `TCP_ANDROID_EXIT`. -/
def tcpAndroidExit : UInt8 := 0x7e

/-- One of the complete frames that the client sends is `TCP_ANDROID_EXIT`. -/
def SendsExit (sent : List UInt8) : Prop :=
  ∃ cmds : List SdrTcpCommand, (cmds.map SdrTcpCommand.encode).flatten <+: sent ∧
    ∃ cmd ∈ cmds, cmd.command = tcpAndroidExit

/-- A client that asks for the end sends a whole frame. -/
theorem SendsExit.length_le {sent : List UInt8} (sends : SendsExit sent) :
    sizeofCommand ≤ sent.length := by
  obtain ⟨cmds, front, cmd, member, -⟩ := sends
  refine Nat.le_trans ?_ front.length_le
  obtain ⟨before, after, rfl⟩ := List.append_of_mem member
  simp only [List.map_append, List.map_cons, List.flatten_append, List.flatten_cons,
    List.length_append, FramedListener.encode_length]
  omega

/-- A listener and what is still to arrive at its socket. `hasDev` tells whether `dev->miri_dev`
is set, and `exiting` where `tcpCommandCallback` is in `sdrtcp_stop_serving_client`. -/
structure ConnectedListener where
  listener : FramedListener
  arrivals : List Arrival
  ending : Ending
  hasDev : Bool
  exiting : StopPc

/-- A step of the listener, or what another thread stores in the state while it runs:
`NEEDS_STOPPING`, or `UNINITIALIZED` where an `sdrtcp_cleanup` begins. -/
inductive DepartureLabel where
  | listener
  | stops
  | cleansUp
  deriving DecidableEq

namespace ConnectedListener

/-- `commandcb` is called with `TCP_ANDROID_EXIT`, and there is a device. -/
def exits (s : ConnectedListener) : Bool :=
  s.hasDev && (loadCommand (ntohlParameter s.listener.cmd)).command = tcpAndroidExit

/-- The listener moves on with an answer. -/
def answered (s : ConnectedListener) (answer : FramingAnswer) (arrivals : List Arrival) :
    Option ConnectedListener :=
  (s.listener.step (.listener answer)).map fun listener =>
    { s with listener := listener, arrivals := arrivals, exiting := .called }

/-- The listener moves on in `sdrtcp_stop_serving_client`. That it waits for `state_locker` while
another thread cleans up is left out. -/
def stopping (s : ConnectedListener) (obj : Sdrtcp) (pc : StopPc) : ConnectedListener :=
  { s with listener := FramedListener.observe { s.listener with obj := obj }, exiting := pc }

/-- Another thread stores a state. -/
def stores (s : ConnectedListener) (stage : Stage) : Option ConnectedListener :=
  (s.listener.step (.store stage)).map fun listener => { s with listener := listener }

/-- One step. -/
def step (s : ConnectedListener) : DepartureLabel → Option ConnectedListener
  | .listener =>
      match s.listener.pc with
      | .selectTest _ =>
          if s.listener.obj.state = .clientServing ∧ readable s.arrivals = false then
            s.answered ⟨false, none⟩ s.arrivals.tail
          else s.answered ⟨true, none⟩ s.arrivals
      | .recv left =>
          (receiveFrom s.ending left s.arrivals).bind fun (recv, arrivals) =>
            s.answered ⟨true, recv⟩ arrivals
      | .commandcb =>
          if s.exits ∧ s.exiting ≠ .returned then
            (stopServingClientStep s.listener.obj s.exiting).map fun (obj, pc) => s.stopping obj pc
          else s.answered ⟨true, none⟩ s.arrivals
      | _ => s.answered ⟨true, none⟩ s.arrivals
  | .stops => s.stores .needsStopping
  | .cleansUp => s.stores .uninitialized

/-- The listener when `tcp_server` has stored `CLIENT_SERVING`. -/
def start (obj : Sdrtcp) (arrivals : List Arrival) (ending : Ending) (hasDev : Bool) :
    ConnectedListener where
  listener := .initial { obj with state := .clientServing }
  arrivals := arrivals
  ending := ending
  hasDev := hasDev
  exiting := .called

/-! ## What `recv` takes -/

/-- What an arrival is worth in steps. -/
def arrivalCost : Arrival → ℕ
  | .timeout => 4
  | .segment _ more => 11 * (more.length + 1)

def arrivalsCost (arrivals : List Arrival) : ℕ := (arrivals.map arrivalCost).sum

theorem putBack_sent (bytes : List UInt8) (arrivals : List Arrival) :
    sentBytes (putBack bytes arrivals) = bytes ++ sentBytes arrivals := by
  cases bytes with
  | nil => rfl
  | cons first more => rfl

theorem putBack_cost (bytes : List UInt8) (arrivals : List Arrival) :
    arrivalsCost (putBack bytes arrivals) = 11 * bytes.length + arrivalsCost arrivals := by
  cases bytes with
  | nil =>
      rw [List.length_nil, Nat.mul_zero, Nat.zero_add]
      rfl
  | cons first more => rfl

/-- **`recv` takes a part of what is sent**, if there is something, and at least one byte of it. -/
theorem receiveFrom_cases {ending : Ending} {left : ℕ} {arrivals arrivals' : List Arrival}
    {recv : Option (List UInt8)}
    (received : receiveFrom ending left arrivals = some (recv, arrivals')) :
    (arrivals = [] ∧ recv = ending.recv ∧ arrivals' = []) ∨
      ∃ bytes, recv = some bytes ∧ bytes.length ≤ left ∧
        bytes ++ sentBytes arrivals' = sentBytes arrivals ∧
        (0 < left → arrivalsCost arrivals' + 11 ≤ arrivalsCost arrivals) := by
  cases arrivals with
  | nil =>
      obtain ⟨rfl, rfl⟩ := Prod.mk.inj (Option.some.inj received)
      exact .inl ⟨rfl, rfl, rfl⟩
  | cons arrival rest =>
      cases arrival with
      | timeout => cases received
      | segment first more =>
          obtain ⟨rfl, rfl⟩ := Prod.mk.inj (Option.some.inj received)
          refine .inr ⟨_, rfl, List.length_take_le _ _, ?_, fun _ => ?_⟩
          · rw [putBack_sent, ← List.append_assoc, List.take_append_drop]
            rfl
          · rw [putBack_cost, List.length_drop, List.length_cons]
            simp only [arrivalsCost, List.map_cons, List.sum_cons, arrivalCost]
            omega

/-! ## One step of the listener -/

/-- What the connection gives a step of the listener. -/
structure Gives (s : ConnectedListener) (answer : FramingAnswer) (arrivals : List Arrival) :
    Prop where
  recv : ∀ left, s.listener.pc = .recv left →
    receiveFrom s.ending left s.arrivals = some (answer.recv, arrivals)
  select : ∀ left, s.listener.pc = .selectTest left → s.listener.obj.state = .clientServing →
    (answer.select = true ∧ readable s.arrivals = true ∧ arrivals = s.arrivals) ∨
      (answer.select = false ∧ s.arrivals = .timeout :: arrivals)
  others : (∀ left, s.listener.pc ≠ .recv left) →
    ((∃ left, s.listener.pc = .selectTest left) → s.listener.obj.state ≠ .clientServing) →
      arrivals = s.arrivals

/-- Elsewhere nothing arrives. -/
theorem Gives.arrivals_eq {s : ConnectedListener} {answer : FramingAnswer}
    {arrivals : List Arrival} (gives : Gives s answer arrivals)
    (quiet : ∀ left, s.listener.pc ≠ .recv left)
    (elsewhere : ∀ left, s.listener.pc ≠ .selectTest left) : arrivals = s.arrivals := by
  refine gives.others quiet fun selects => ?_
  obtain ⟨left, here⟩ := selects
  exact absurd here (elsewhere left)

/-- A step of the listener outside `sdrtcp_stop_serving_client`. -/
structure Answers (s s' : ConnectedListener) (answer : FramingAnswer) : Prop where
  gives : Gives s answer s'.arrivals
  stepped : s.listener.step (.listener answer) = some s'.listener
  ending : s'.ending = s.ending
  hasDev : s'.hasDev = s.hasDev
  exiting : s'.exiting = .called
  exited : s.listener.pc = .commandcb → s.exits = true → s.exiting = .returned

/-- A step of the listener inside `sdrtcp_stop_serving_client`. -/
structure Stops (s s' : ConnectedListener) (obj : Sdrtcp) (pc : StopPc) : Prop where
  place : s.listener.pc = .commandcb
  exits : s.exits = true
  stepped : stopServingClientStep s.listener.obj s.exiting = some (obj, pc)
  same : s' = s.stopping obj pc

/-- A step of the listener is one of the thread with what the connection gives it, or one of
`sdrtcp_stop_serving_client`. -/
theorem step_listener {s s' : ConnectedListener} (moves : s.step .listener = some s') :
    (∃ answer, Answers s s' answer) ∨ ∃ obj pc, Stops s s' obj pc := by
  have unanswered : ∀ {answer arrivals}, s.answered answer arrivals = some s' →
      s.listener.step (.listener answer) = some s'.listener ∧ s'.ending = s.ending ∧
        s'.hasDev = s.hasDev ∧ s'.exiting = .called ∧ s'.arrivals = arrivals := by
    intro answer arrivals answered
    obtain ⟨listener, stepped, rfl⟩ := Option.map_eq_some_iff.mp answered
    exact ⟨stepped, rfl, rfl, rfl, rfl⟩
  cases place : s.listener.pc with
  | selectTest left =>
      simp only [step, place] at moves
      have elsewhere : ∀ other, s.listener.pc ≠ .recv other :=
        fun other here => (by cases place.symm.trans here)
      have noCall : s.listener.pc = .commandcb → s.exits = true → s.exiting = .returned :=
        fun here => (by cases place.symm.trans here)
      split at moves
      · next pause =>
          obtain ⟨serving, blocked⟩ := pause
          obtain ⟨stepped, ending, hasDev, exiting, same⟩ := unanswered moves
          have timeout : s.arrivals = .timeout :: s.arrivals.tail := by
            cases waiting : s.arrivals with
            | nil => cases waiting ▸ blocked
            | cons arrival rest =>
                cases arrival with
                | timeout => rfl
                | segment first more => cases waiting ▸ blocked
          refine .inl ⟨_, ⟨fun other here => absurd here (elsewhere other),
            fun _ _ _ => .inr ⟨rfl, same ▸ timeout⟩, fun _ quiet => ?_⟩, stepped, ending, hasDev,
            exiting, noCall⟩
          exact absurd serving (quiet ⟨left, place⟩)
      · next ready =>
          obtain ⟨stepped, ending, hasDev, exiting, same⟩ := unanswered moves
          refine .inl ⟨_, ⟨fun other here => absurd here (elsewhere other),
            fun _ _ serving => .inl ⟨rfl, ?_, same⟩, fun _ _ => same⟩, stepped, ending, hasDev,
            exiting, noCall⟩
          by_contra blocked
          exact ready ⟨serving, Bool.eq_false_iff.mpr blocked⟩
  | recv left =>
      simp only [step, place] at moves
      obtain ⟨⟨recv, arrivals⟩, received, answered⟩ := Option.bind_eq_some_iff.mp moves
      obtain ⟨stepped, ending, hasDev, exiting, same⟩ := unanswered answered
      refine .inl ⟨_, ⟨fun other here => ?_, fun other here => (by cases place.symm.trans here),
        fun other => absurd place (other left)⟩, stepped, ending, hasDev, exiting,
        fun here => (by cases place.symm.trans here)⟩
      obtain rfl := CommandListenerPc.recv.inj (place.symm.trans here)
      rw [same]
      exact received
  | commandcb =>
      simp only [step, place] at moves
      split at moves
      · next calls =>
          obtain ⟨⟨obj, pc⟩, stepped, rfl⟩ := Option.map_eq_some_iff.mp moves
          exact .inr ⟨obj, pc, place, calls.1, stepped, rfl⟩
      · next returns =>
          obtain ⟨stepped, ending, hasDev, exiting, same⟩ := unanswered moves
          refine .inl ⟨_, ⟨fun other here => (by cases place.symm.trans here),
            fun other here => (by cases place.symm.trans here), fun _ _ => same⟩, stepped, ending,
            hasDev, exiting, fun _ exits => ?_⟩
          by_contra inside
          exact returns ⟨exits, inside⟩
  | unborn | outerTest | innerTest left | recvTest left ready | recvFailed left
  | commandTest left | exited =>
      simp only [step, place] at moves
      obtain ⟨stepped, ending, hasDev, exiting, same⟩ := unanswered moves
      exact .inl ⟨_, ⟨fun other here => (by cases place.symm.trans here),
        fun other here => (by cases place.symm.trans here), fun _ _ => same⟩, stepped, ending,
        hasDev, exiting, fun here => (by cases place.symm.trans here)⟩

/-! ## What every run keeps -/

/-- The commands that have been carried out, as they were sent. -/
def carriedBytes (listener : FramedListener) : List UInt8 :=
  (listener.dispatched.map SdrTcpCommand.encode).flatten

/-- **What holds in every run**: nothing that is sent gets lost between the connection and the
listener, the listener calls `recv` only where something is there, and what it carries out is what
has come first. Once the state has left `CLIENT_SERVING` it does not return; and it has left it
when `sdrtcp_stop_serving_client` returns. -/
structure Noticing (sent : List UInt8) (s : ConnectedListener) : Prop where
  born : s.listener.pc ≠ .unborn
  waits : ∀ left, s.listener.pc = .recvTest left true ∨ s.listener.pc = .recv left →
    readable s.arrivals = true
  bytes : s.listener.received ++ sentBytes s.arrivals = sent
  served : s.listener.served = true
  live : s.listener.left = false → s.listener.Filling
  gone : s.listener.left = true → s.listener.obj.state ≠ .clientServing
  carried : ∃ rest, carriedBytes s.listener ++ rest = s.listener.received
  due : s.listener.pc = .commandcb → s.listener.cmd.length = sizeofCommand ∧
    carriedBytes s.listener ++ s.listener.cmd = s.listener.received
  exits : s.listener.pc = .exited → s.listener.left = true
  called : s.exiting ≠ .called → s.listener.pc = .commandcb
  stopped : s.exiting = .returned → s.listener.obj.state ≠ .clientServing
  told : s.hasDev = true → s.listener.obj.state = .clientServing →
    ∀ cmd ∈ s.listener.dispatched, cmd.command ≠ tcpAndroidExit

/-- As long as the state is `CLIENT_SERVING`, the buffer holds a part of the next command. -/
theorem Noticing.filling {sent : List UInt8} {s : ConnectedListener} (noticing : s.Noticing sent)
    (serving : s.listener.obj.state = .clientServing) : s.listener.Filling := by
  apply noticing.live
  rw [← Bool.not_eq_true]
  intro left
  exact noticing.gone left serving

theorem Noticing.starts (obj : Sdrtcp) (arrivals : List Arrival) (ending : Ending)
    (hasDev : Bool) : (start obj arrivals ending hasDev).Noticing (sentBytes arrivals) where
  born := nofun
  waits := by
    rintro left (here | here)
    · cases here
    · cases here
  bytes := rfl
  served := rfl
  live := fun _ => .starts _
  gone := nofun
  carried := ⟨[], rfl⟩
  due := nofun
  exits := nofun
  called := fun away => absurd rfl away
  stopped := nofun
  told := fun _ _ _ member => absurd member List.not_mem_nil

/-- Another thread's store. -/
theorem Noticing.stores {sent : List UInt8} {s s' : ConnectedListener} {stage : Stage}
    (noticing : s.Noticing sent) (away : stage ≠ .clientServing)
    (moves : s.stores stage = some s') : s'.Noticing sent := by
  obtain ⟨listener, stepped, rfl⟩ := Option.map_eq_some_iff.mp moves
  have stepped' := stepped
  cases stepped
  have gone : (FramedListener.observe { s.listener with
      obj := { s.listener.obj with state := stage } }).left = true := by
    simp only [FramedListener.observe, noticing.served, Bool.true_and, Bool.or_eq_true,
      decide_eq_true_eq]
    exact .inr away
  exact
    { born := noticing.born
      waits := noticing.waits
      bytes := noticing.bytes
      served := by
        simp only [FramedListener.observe, noticing.served, Bool.true_or]
      live := fun stays =>
        (noticing.live (FramedListener.left_step stepped' stays)).step stepped' stays
      gone := fun _ => away
      carried := noticing.carried
      due := noticing.due
      exits := fun _ => gone
      called := noticing.called
      stopped := fun _ => away
      told := fun _ serving => absurd serving away }

/-- **What `sdrtcp_stop_serving_client` does to the state**: it leaves the object as it is, or
takes it out of `CLIENT_SERVING`, and it does not return before that. -/
theorem stopServingClientStep_spec {obj obj' : Sdrtcp} {pc pc' : StopPc}
    (moves : stopServingClientStep obj pc = some (obj', pc')) :
    (obj' = obj ∨ obj'.state ≠ .clientServing) ∧
      (pc' = .returned → obj'.state ≠ .clientServing) := by
  cases pc with
  | called =>
      simp only [stopServingClientStep] at moves
      split at moves
      · next done =>
          cases moves
          exact ⟨.inl rfl, fun _ => by rw [done]; decide⟩
      · cases moves
        exact ⟨.inl rfl, nofun⟩
  | compare =>
      simp only [stopServingClientStep] at moves
      split at moves <;> cases moves <;> exact ⟨.inl rfl, nofun⟩
  | cleanup =>
      cases moves
      exact ⟨.inr (by simp), fun _ => by simp⟩
  | store =>
      cases moves
      exact ⟨.inr (by simp), fun _ => by simp⟩
  | returned => cases moves

/-- **A step inside `sdrtcp_stop_serving_client`.** -/
theorem Noticing.stopping {sent : List UInt8} {s s' : ConnectedListener} {obj : Sdrtcp}
    {pc : StopPc} (noticing : s.Noticing sent) (stops : Stops s s' obj pc) :
    s'.Noticing sent := by
  obtain ⟨place, -, stepped, rfl⟩ := stops
  obtain ⟨moved, returned⟩ := stopServingClientStep_spec stepped
  have left : (s.stopping obj pc).listener.left = true ↔
      s.listener.left = true ∨ obj.state ≠ .clientServing := by
    simp [ConnectedListener.stopping, FramedListener.observe, noticing.served]
  have kept : obj.state = .clientServing → obj = s.listener.obj := fun serving =>
    moved.resolve_right fun away => away serving
  exact
    { born := noticing.born
      waits := noticing.waits
      bytes := noticing.bytes
      served := by simp [ConnectedListener.stopping, FramedListener.observe, noticing.served]
      live := by
        intro stays
        have before : s.listener.left = false :=
          eq_false_of_ne_true fun gone => by simp [left.mpr (.inl gone)] at stays
        have filling := noticing.live before
        exact .of_observe stays filling.size filling.range filling.bytes fun _ =>
          .inl noticing.served
      gone := by
        intro gone serving
        have serving : obj.state = .clientServing := serving
        rcases left.mp gone with before | away
        · exact noticing.gone before (kept serving ▸ serving)
        · exact away serving
      carried := noticing.carried
      due := noticing.due
      exits := fun here => left.mpr (.inl (noticing.exits here))
      called := fun _ => place
      stopped := returned
      told := fun hasDev serving => noticing.told hasDev (kept serving ▸ serving) }

/-- What the thread does in a step of the listener. -/
theorem thread_step {s s' : FramedListener} {answer : FramingAnswer}
    (stepped : s.step (.listener answer) = some s') :
    commandListenerStep s.obj answer.toListener s.pc = some (s'.obj, s'.pc) := by
  obtain ⟨⟨obj, pc⟩, threadStep, rfl⟩ := Option.map_eq_some_iff.mp stepped
  exact threadStep

/-- **How the listener comes to the places that matter.** -/
theorem enters {obj obj' : Sdrtcp} {answer : CommandListenerAnswer} {pc pc' : CommandListenerPc}
    (moves : commandListenerStep obj answer pc = some (obj', pc')) :
    pc' ≠ .unborn ∧
      (pc' = .commandcb → pc = .commandTest 0 ∧ obj.state = .clientServing) ∧
      (∀ left, pc' = .recvTest left true →
        pc = .selectTest left ∧ obj.state = .clientServing ∧ answer.select = true) ∧
      (∀ left, pc' = .recv left → pc = .recvTest left true) ∧
      (pc' = .exited → obj'.state ≠ .clientServing) := by
  cases pc with
  | unborn | exited => cases moves
  | commandcb | recvFailed left =>
      cases moves
      simp
  | recv left =>
      simp only [commandListenerStep] at moves
      split at moves
      · split at moves
        · cases moves
          simp
        · cases moves
      · cases moves
        simp
  | outerTest | innerTest left | selectTest left | commandTest left =>
      simp only [commandListenerStep] at moves
      split at moves
      · next test =>
          cases moves
          simp_all
      · next test =>
          cases moves
          simp_all
  | recvTest left ready =>
      simp only [commandListenerStep] at moves
      split at moves
      · next test =>
          cases moves
          simp_all
      · next test =>
          cases moves
          simp

/-- The buffer is touched by `recv` and by `commandcb` only. -/
theorem bufferStep_idle {s : FramedListener} {answer : FramingAnswer}
    (quiet : ∀ left, s.pc ≠ .recv left) (idle : s.pc ≠ .commandcb) :
    s.bufferStep answer = s := by
  rw [FramedListener.bufferStep]
  split
  · next left _ place _ => exact absurd place (quiet left)
  · next place => exact absurd place idle
  · rfl

/-- What is received is what is sent. -/
theorem received_step {s s' : ConnectedListener} {answer : FramingAnswer}
    (gives : Gives s answer s'.arrivals) :
    (s.listener.bufferStep answer).received ++ sentBytes s'.arrivals =
      s.listener.received ++ sentBytes s.arrivals := by
  by_cases receives : ∃ left, s.listener.pc = .recv left
  · obtain ⟨left, place⟩ := receives
    rcases receiveFrom_cases (gives.recv left place) with
      ⟨ended, recv, same⟩ | ⟨bytes, recv, -, sent, -⟩
    · have nothing : (s.listener.bufferStep answer).received = s.listener.received := by
        rw [FramedListener.bufferStep, place, recv]
        cases s.ending with
        | closed => exact List.append_nil _
        | error => rfl
      rw [nothing, same, ended]
    · have more : (s.listener.bufferStep answer).received = s.listener.received ++ bytes := by
        rw [FramedListener.bufferStep, place, recv]
        rfl
      rw [more, List.append_assoc, sent]
  · have quiet : ∀ left, s.listener.pc ≠ .recv left := fun left place => receives ⟨left, place⟩
    have same : sentBytes s'.arrivals = sentBytes s.arrivals := by
      by_cases selects : (∃ left, s.listener.pc = .selectTest left) ∧
          s.listener.obj.state = .clientServing
      · obtain ⟨⟨left, place⟩, serving⟩ := selects
        rcases gives.select left place serving with ⟨-, -, same⟩ | ⟨-, pause⟩
        · rw [same]
        · rw [pause]
          rfl
      · rw [gives.others quiet fun place serving => selects ⟨place, serving⟩]
    have kept : (s.listener.bufferStep answer).received = s.listener.received := by
      by_cases carries : s.listener.pc = .commandcb
      · rw [FramedListener.bufferStep, carries]
        rfl
      · rw [bufferStep_idle quiet carries]
    rw [kept, same]

/-- What is carried out is what has come first. -/
theorem Noticing.carried_step {sent : List UInt8} {s : ConnectedListener}
    (noticing : s.Noticing sent) (answer : FramingAnswer) :
    ∃ rest, carriedBytes (s.listener.bufferStep answer) ++ rest =
      (s.listener.bufferStep answer).received := by
  obtain ⟨rest, carried⟩ := noticing.carried
  by_cases carries : s.listener.pc = .commandcb
  · obtain ⟨size, due⟩ := noticing.due carries
    have dispatches : s.listener.bufferStep answer = s.listener.dispatch := by
      rw [FramedListener.bufferStep, carries]
    refine ⟨[], ?_⟩
    rw [dispatches, carriedBytes, FramedListener.dispatch_encode size, List.flatten_append,
      List.flatten_singleton, List.append_nil]
    exact due
  · rw [FramedListener.bufferStep]
    split
    · next left bytes place recv =>
        refine ⟨rest ++ bytes, ?_⟩
        rw [← List.append_assoc]
        exact congrArg (· ++ bytes) carried
    · next place => exact absurd place carries
    · exact ⟨rest, carried⟩

/-- What the step does to the buffer and to the history. -/
theorem thread_step_buffer {s s' : FramedListener} {answer : FramingAnswer}
    (stepped : s.step (.listener answer) = some s') :
    s'.cmd = (s.bufferStep answer).cmd ∧ s'.received = (s.bufferStep answer).received ∧
      s'.dispatched = (s.bufferStep answer).dispatched := by
  obtain ⟨⟨obj, pc⟩, -, rfl⟩ := Option.map_eq_some_iff.mp stepped
  exact ⟨rfl, rfl, rfl⟩

theorem thread_step_history {s s' : FramedListener} {answer : FramingAnswer}
    (stepped : s.step (.listener answer) = some s') (served : s.served = true) :
    s'.served = true ∧
      (s'.left = true ↔ s.left = true ∨ s'.obj.state ≠ .clientServing) := by
  obtain ⟨⟨obj, pc⟩, -, rfl⟩ := Option.map_eq_some_iff.mp stepped
  have servedBuffer : (s.bufferStep answer).served = true := by
    rw [FramedListener.bufferStep]
    split
    · exact served
    · exact served
    · exact served
  have leftBuffer : (s.bufferStep answer).left = s.left := by
    rw [FramedListener.bufferStep]
    split
    · rfl
    · rfl
    · rfl
  simp [FramedListener.observe, servedBuffer, leftBuffer]

/-- `recv` comes after a `select` that has found something. -/
theorem Noticing.waits_step {sent : List UInt8} {s s' : ConnectedListener}
    (noticing : s.Noticing sent) {answer : FramingAnswer} (gives : Gives s answer s'.arrivals)
    (stepped : s.listener.step (.listener answer) = some s'.listener) (left : ℕ)
    (here : s'.listener.pc = .recvTest left true ∨ s'.listener.pc = .recv left) :
    readable s'.arrivals = true := by
  obtain ⟨-, -, recvTest, recv, -⟩ := enters (thread_step stepped)
  rcases here with tests | receives
  · obtain ⟨selects, serving, selected⟩ := recvTest left tests
    rcases gives.select left selects serving with ⟨-, ready, same⟩ | ⟨pause, -⟩
    · rwa [same]
    · rw [show answer.toListener.select = answer.select from rfl, pause] at selected
      cases selected
  · have tests := recv left receives
    rw [gives.arrivals_eq (fun other here => by cases tests.symm.trans here)
      fun other here => by cases tests.symm.trans here]
    exact noticing.waits left (.inl tests)

/-- A command is carried out when its buffer is full. -/
theorem Noticing.due_step {sent : List UInt8} {s s' : ConnectedListener}
    (noticing : s.Noticing sent) {answer : FramingAnswer}
    (stepped : s.listener.step (.listener answer) = some s'.listener)
    (here : s'.listener.pc = .commandcb) :
    s'.listener.cmd.length = sizeofCommand ∧
      carriedBytes s'.listener ++ s'.listener.cmd = s'.listener.received := by
  obtain ⟨-, commandcb, -⟩ := enters (thread_step stepped)
  obtain ⟨tests, serving⟩ := commandcb here
  have filling := noticing.filling serving
  have idle : s.listener.bufferStep answer = s.listener :=
    bufferStep_idle (fun other here => by cases tests.symm.trans here)
      fun here => by cases tests.symm.trans here
  have whole : s.listener.cmd.take (FramedListener.filled (.commandTest 0)) = s.listener.cmd :=
    List.take_of_length_le (Nat.le_of_eq filling.size)
  have full := filling.bytes
  rw [tests, whole] at full
  obtain ⟨cmd, received, dispatched⟩ := thread_step_buffer stepped
  rw [cmd, received, carriedBytes, dispatched, idle]
  exact ⟨filling.size, full.symm⟩

/-- As long as the state is `CLIENT_SERVING`, no `TCP_ANDROID_EXIT` has been carried out. -/
theorem Noticing.told_step {sent : List UInt8} {s s' : ConnectedListener}
    (noticing : s.Noticing sent) {answer : FramingAnswer} (answers : Answers s s' answer)
    (hasDev : s'.hasDev = true) (serving : s'.listener.obj.state = .clientServing) :
    ∀ cmd ∈ s'.listener.dispatched, cmd.command ≠ tcpAndroidExit := by
  have hasDev : s.hasDev = true := answers.hasDev ▸ hasDev
  have serving : s.listener.obj.state = .clientServing := by
    rcases (commandListenerStep_settles (thread_step answers.stepped)).state with same | stops
    · exact same ▸ serving
    · cases stops.symm.trans serving
  have before := noticing.told hasDev serving
  obtain ⟨-, -, dispatched⟩ := thread_step_buffer answers.stepped
  rw [dispatched, FramedListener.bufferStep]
  split
  · exact before
  · next place =>
      intro cmd member
      rcases List.mem_append.mp member with earlier | last
      · exact before cmd earlier
      · rw [List.mem_singleton.mp last]
        intro exit
        have exits : s.exits = true := by
          simp [ConnectedListener.exits, hasDev, exit]
        exact noticing.stopped (answers.exited place exits) serving
  · exact before

/-- **A step of the listener's loop.** -/
theorem Noticing.answers {sent : List UInt8} {s s' : ConnectedListener} {answer : FramingAnswer}
    (noticing : s.Noticing sent) (answers : Answers s s' answer) : s'.Noticing sent := by
  have gives := answers.gives
  have stepped := answers.stepped
  obtain ⟨born, -, -, -, exits⟩ := enters (thread_step stepped)
  obtain ⟨-, received, dispatched⟩ := thread_step_buffer stepped
  obtain ⟨served, leaves⟩ := thread_step_history stepped noticing.served
  exact
    { born := born
      waits := noticing.waits_step gives stepped
      bytes := by
        rw [received]
        exact (received_step gives).trans noticing.bytes
      served := served
      live := fun stays =>
        (noticing.live (FramedListener.left_step stepped stays)).listener stepped stays
      gone := by
        intro left
        rcases leaves.mp left with before | now
        · rcases (commandListenerStep_settles (thread_step stepped)).state with same | stops
          · rw [same]
            exact noticing.gone before
          · rw [stops]
            decide
        · exact now
      carried := by
        rw [carriedBytes, dispatched, received]
        exact noticing.carried_step answer
      due := noticing.due_step stepped
      exits := fun here => leaves.mpr (.inr (exits here))
      called := fun away => absurd answers.exiting away
      stopped := fun returned => by cases answers.exiting.symm.trans returned
      told := noticing.told_step answers }

theorem Noticing.step {sent : List UInt8} {s s' : ConnectedListener} {label : DepartureLabel}
    (noticing : s.Noticing sent) (moves : s.step label = some s') : s'.Noticing sent := by
  cases label with
  | listener =>
      rcases step_listener moves with ⟨answer, answers⟩ | ⟨obj, pc, stops⟩
      · exact noticing.answers answers
      · exact noticing.stopping stops
  | stops => exact noticing.stores (by decide) moves
  | cleansUp => exact noticing.stores (by decide) moves

/-! ## The client's own request -/

/-- Frames at the front of a stream of commands are among these. -/
theorem command_of_front {cmds done : List SdrTcpCommand} {part : List UInt8}
    (short : part.length < sizeofCommand)
    (front : (cmds.map SdrTcpCommand.encode).flatten <+:
      (done.map SdrTcpCommand.encode).flatten ++ part) :
    ∀ cmd ∈ cmds, ∃ same ∈ done, same.command = cmd.command := by
  induction cmds generalizing done with
  | nil => exact fun _ none => absurd none List.not_mem_nil
  | cons first rest ih =>
      cases done with
      | nil =>
          have fits := front.length_le
          simp only [List.map_cons, List.flatten_cons, List.length_append,
            FramedListener.encode_length, List.map_nil, List.flatten_nil, List.nil_append] at fits
          omega
      | cons head tail =>
          obtain ⟨more, same⟩ := front
          simp only [List.map_cons, List.flatten_cons, List.append_assoc] at same
          obtain ⟨equal, later⟩ := List.append_inj same rfl
          intro cmd member
          rcases List.mem_cons.mp member with rfl | member
          · exact ⟨head, List.mem_cons_self .., (List.cons.inj equal).1.symm⟩
          · obtain ⟨same, there, equal⟩ := ih ⟨more, by simpa using later⟩ cmd member
            exact ⟨same, List.mem_cons_of_mem _ there, equal⟩

/-- The listener is in `recv` for what the client has not sent only if no `TCP_ANDROID_EXIT` was
sent. -/
theorem Noticing.exit_heard {sent : List UInt8} {s : ConnectedListener}
    (noticing : s.Noticing sent) (hasDev : s.hasDev = true) (sends : SendsExit sent)
    (serving : s.listener.obj.state = .clientServing) {left : ℕ}
    (place : s.listener.pc = .recv left) : s.arrivals ≠ [] := by
  intro done
  obtain ⟨cmds, front, cmd, member, exit⟩ := sends
  have filling := noticing.filling serving
  have range := filling.range
  have bytes := filling.bytes
  have all := noticing.bytes
  rw [place] at range bytes
  rw [done, show sentBytes [] = [] from rfl, List.append_nil] at all
  have short : (s.listener.cmd.take (FramedListener.filled (.recv left))).length <
      sizeofCommand := by
    rw [List.length_take]
    have missing : 0 < left := range.1
    simp only [FramedListener.filled, sizeofCommand]
    omega
  rw [← all, bytes] at front
  obtain ⟨same, there, equal⟩ := command_of_front short front cmd member
  exact noticing.told hasDev serving same there (equal.trans exit)

/-- What is carried out as `TCP_ANDROID_EXIT` was sent. -/
theorem Noticing.exit_sent {sent : List UInt8} {s : ConnectedListener}
    (noticing : s.Noticing sent) (place : s.listener.pc = .commandcb) (exits : s.exits = true) :
    s.hasDev = true ∧ SendsExit sent := by
  obtain ⟨hasDev, exit⟩ := Bool.and_eq_true_iff.mp exits
  obtain ⟨size, due⟩ := noticing.due place
  refine ⟨hasDev, s.listener.dispatched ++ [loadCommand (ntohlParameter s.listener.cmd)],
    ⟨sentBytes s.arrivals, ?_⟩, _, List.mem_append_right _ (List.mem_singleton_self _),
    of_decide_eq_true exit⟩
  rw [List.map_append, List.flatten_append, List.map_singleton, List.flatten_singleton,
    encode_loadCommand size]
  exact (congrArg (· ++ sentBytes s.arrivals) due).trans noticing.bytes

end ConnectedListener

end MsiSdrDriver.Server
