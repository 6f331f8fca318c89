import MsiSdrDriver.Foundations.Heaps
import MsiSdrDriver.Foundations.LabelledRuns

/-!
# The linked queue

`queue.c`. A queue is a pointer to its first element. The elements are linked both ways, and the
first one also points to the last, so that `queue_add` need not walk. `queue_pop` hands that
pointer over to the element that becomes the first.

The code works on a heap of elements in which a dereference or a `free` of a pointer that is
`NULL` or dead is a fault. `Represents` is the invariant: the elements form a chain, the first
one points to the last, and nothing else is live. `queue_add` and `queue_pop` keep it and do to
the payloads what a list does (`Represents.queueAdd`, `Represents.queuePop`), so that every run
of the two is fault free and first-in first-out (`queue_refines_list`).
-/

set_option autoImplicit false

namespace MsiSdrDriver.Server.LinkedQueue

open Foundations

/-! ## The code -/

/-- An address. -/
abbrev Pointer := ℕ

/-- The null pointer. -/
def NULL : Pointer := 0

/-- `struct queue_element`. -/
structure QueueElement where
  next : Pointer
  prev : Pointer
  last : Pointer
  payload : Pointer

/-- What `queue_add` and `queue_pop` work on: the `queue_t` of the caller, and the elements. -/
structure Memory where
  queue : Pointer
  heap : Heap Pointer QueueElement

/-- `queue_add`. The address `newEl` is what `malloc` returns; the four assignments to the new
element are made with its allocation, as nothing reads it before. -/
def queueAdd (m : Memory) (newEl ptr : Pointer) : Option Memory :=
  if m.queue = NULL then
    some
      { queue := newEl
        heap := m.heap.allocate newEl
          { last := newEl, next := NULL, prev := NULL, payload := ptr } }
  else do
    let qe ← m.heap.cells m.queue
    let heap := m.heap.allocate newEl
      { last := NULL, next := NULL, prev := qe.last, payload := ptr }
    let heap ← heap.modify qe.last fun el => { el with next := newEl }
    let heap ← heap.modify m.queue fun el => { el with last := newEl }
    some { m with heap := heap }

/-- The handing over in `queue_pop`: `qe->next->prev = NULL`, then `qe->next->last = qe->last`. -/
def handOver (heap : Heap Pointer QueueElement) (queue : Pointer) :
    Option (Heap Pointer QueueElement) := do
  let qe ← heap.cells queue
  if qe.next = NULL then some heap
  else do
    let heap ← heap.modify qe.next fun el => { el with prev := NULL }
    let qe ← heap.cells queue
    heap.modify qe.next fun el => { el with last := qe.last }

/-- `queue_pop`: its result, and the memory after it. -/
def queuePop (m : Memory) : Option (Pointer × Memory) :=
  if m.queue = NULL then some (NULL, m)
  else do
    let heap ← handOver m.heap m.queue
    let qe ← heap.cells m.queue
    let heap ← heap.free m.queue
    some (qe.payload, { queue := qe.next, heap := heap })

/-! ## The representation -/

/-- The elements form a chain from the queue pointer to `NULL`, the first of them points to the
last, and no other element is live. -/
structure Represents (m : Memory) (nodes : List Pointer) : Prop where
  chain : Chain QueueElement.prev QueueElement.next m.heap.cells NULL NULL m.queue nodes
  once : nodes.Nodup
  notNull : NULL ∉ nodes
  last : nodes ≠ [] → ∃ head, m.heap.cells m.queue = some head ∧ head.last = nodes.getLastD NULL
  live : ∀ a, (∃ el, m.heap.cells a = some el) ↔ a ∈ nodes

/-- The payloads of the elements, first to last. -/
def Memory.payloads (m : Memory) (nodes : List Pointer) : List Pointer :=
  m.heap.contents QueueElement.payload nodes

/-! ## Adding -/

/-- What `queue_add` does: the new element follows the last one, which now points to it, and so
does the first one. -/
structure Appends (m m' : Memory) (nodes : List Pointer) (newEl ptr : Pointer) : Prop where
  queue : m'.queue = if nodes = [] then newEl else m.queue
  new : ∃ el, m'.heap.cells newEl = some el ∧ el.next = NULL ∧ el.prev = nodes.getLastD NULL ∧
    el.payload = ptr ∧ (nodes = [] → el.last = newEl)
  old : ∀ a, a ≠ newEl → m'.heap.cells a = (m.heap.cells a).map fun el =>
    { el with
      next := if a = nodes.getLastD NULL then newEl else el.next
      last := if a = m.queue then newEl else el.last }
  number : m'.heap.number = Function.update m.heap.number newEl m.heap.allocated
  allocated : m'.heap.allocated = m.heap.allocated + 1
  freed : m'.heap.freed = m.heap.freed

variable {m m' : Memory} {nodes : List Pointer} {newEl ptr : Pointer}

theorem Represents.queue_eq_null_iff (rep : Represents m nodes) : m.queue = NULL ↔ nodes = [] := by
  have chain := rep.chain
  cases nodes with
  | nil => exact iff_of_true chain rfl
  | cons head rest =>
      have here : m.queue = head := chain.1
      refine iff_of_false ?_ (List.cons_ne_nil head rest)
      rw [here]
      intro null
      exact rep.notNull (null ▸ List.mem_cons_self)

theorem Represents.fresh_not_mem (rep : Represents m nodes) (fresh : m.heap.cells newEl = none) :
    newEl ∉ nodes := by
  intro member
  obtain ⟨el, live⟩ := (rep.live newEl).mpr member
  rw [fresh] at live
  cases live

/-- Only the elements are live. -/
theorem Represents.dead (rep : Represents m nodes) {a : Pointer} (outside : a ∉ nodes) :
    m.heap.cells a = none := by
  cases found : m.heap.cells a with
  | none => rfl
  | some el => exact absurd ((rep.live a).mp ⟨el, found⟩) outside

/-- `queue_add` on an empty queue. -/
theorem Represents.appends_first (rep : Represents m []) (newEl ptr : Pointer) :
    ∃ m', queueAdd m newEl ptr = some m' ∧ Appends m m' [] newEl ptr := by
  refine ⟨_, if_pos (rep.queue_eq_null_iff.mpr rfl), ?_⟩
  refine
    { queue := rfl
      new := ⟨_, Heap.cells_allocate_self .., rfl, rfl, rfl, fun _ => rfl⟩
      old := fun a other => ?_
      number := rfl
      allocated := rfl
      freed := rfl }
  have dead := rep.dead (a := a) List.not_mem_nil
  rw [dead]
  exact (Heap.cells_allocate_of_ne _ _ other).trans dead

/-- `queue_add` on a queue with a last element. -/
theorem Represents.appends_behind {others : List Pointer} {final : Pointer}
    (rep : Represents m (others ++ [final])) (fresh : m.heap.cells newEl = none)
    (ptr : Pointer) :
    ∃ m', queueAdd m newEl ptr = some m' ∧ Appends m m' (others ++ [final]) newEl ptr := by
  have nonempty : others ++ [final] ≠ [] := List.concat_ne_nil final others
  have notNull : m.queue ≠ NULL := fun null => nonempty (rep.queue_eq_null_iff.mp null)
  obtain ⟨head, headLive, last⟩ := rep.last nonempty
  rw [List.getLastD_concat] at last
  obtain ⟨-, finalEl, finalLive, -, -⟩ := chain_concat_iff.mp rep.chain
  have queueOld : m.queue ≠ newEl := Heap.ne_of_live headLive fresh
  have finalOld : final ≠ newEl := Heap.ne_of_live finalLive fresh
  -- the heap before the two assignments through pointers, and the one between them
  let el : QueueElement := { last := NULL, next := NULL, prev := final, payload := ptr }
  let first := m.heap.allocate newEl el
  let second := first.put final { finalEl with next := newEl }
  have finalFirst : first.cells final = some finalEl :=
    (Heap.cells_allocate_of_ne _ _ finalOld).trans finalLive
  have headSecond : second.cells m.queue =
      some { head with next := if m.queue = final then newEl else head.next } := by
    by_cases same : m.queue = final
    · rw [same] at headLive ⊢
      obtain rfl : head = finalEl := Option.some.inj (headLive.symm.trans finalLive)
      rw [if_pos rfl]
      exact Heap.cells_put_self ..
    · rw [if_neg same]
      calc second.cells m.queue
        _ = first.cells m.queue := Heap.cells_put_of_ne _ _ same
        _ = m.heap.cells m.queue := Heap.cells_allocate_of_ne _ _ queueOld
        _ = some head := headLive
  let headEl : QueueElement :=
    { head with next := if m.queue = final then newEl else head.next, last := newEl }
  have computed : queueAdd m newEl ptr =
      some { queue := m.queue, heap := second.put m.queue headEl } := by
    rw [queueAdd, if_neg notNull, headLive]
    simp only [Option.bind_eq_bind, Option.bind_some, last]
    rw [Heap.modify_of_live finalFirst, Option.bind_some, Heap.modify_of_live headSecond]
    rfl
  refine ⟨_, computed, ?_⟩
  refine
    { queue := (if_neg nonempty).symm
      new := ⟨el, ?_, rfl, (List.getLastD_concat ..).symm, rfl, fun none => absurd none nonempty⟩
      old := fun a other => ?_
      number := rfl
      allocated := rfl
      freed := rfl }
  · calc _ = second.cells newEl := Heap.cells_put_of_ne _ _ queueOld.symm
      _ = first.cells newEl := Heap.cells_put_of_ne _ _ finalOld.symm
      _ = some el := Heap.cells_allocate_self ..
  · rw [List.getLastD_concat]
    by_cases atQueue : a = m.queue
    · subst atQueue
      refine (Heap.cells_put_self ..).trans ?_
      simp only [headLive, Option.map_some, if_true, headEl]
    · have beside : m.heap.cells a = first.cells a :=
        (Heap.cells_allocate_of_ne _ _ other).symm
      refine (Heap.cells_put_of_ne _ _ atQueue).trans ?_
      simp only [beside, atQueue, if_false]
      by_cases atFinal : a = final
      · subst atFinal
        refine (Heap.cells_put_self ..).trans ?_
        simp only [finalFirst, Option.map_some, if_true]
      · simp only [atFinal, if_false]
        refine (Heap.cells_put_of_ne _ _ atFinal).trans ?_
        exact Option.map_id'.symm

/-- **`queue_add` on a representation**: it meets no fault and appends. -/
theorem Represents.appends (rep : Represents m nodes) (fresh : m.heap.cells newEl = none)
    (ptr : Pointer) :
    ∃ m', queueAdd m newEl ptr = some m' ∧ Appends m m' nodes newEl ptr := by
  rcases List.eq_nil_or_concat' nodes with rfl | ⟨others, final, rfl⟩
  · exact rep.appends_first newEl ptr
  · exact rep.appends_behind fresh ptr

/-- What `queue_add` leaves of an element that was there before. -/
theorem Appends.old_live (appends : Appends m m' nodes newEl ptr) (fresh : newEl ∉ nodes)
    {n : Pointer} {el : QueueElement} (member : n ∈ nodes) (live : m.heap.cells n = some el) :
    m'.heap.cells n = some
      { el with
        next := if n = nodes.getLastD NULL then newEl else el.next
        last := if n = m.queue then newEl else el.last } := by
  rw [appends.old n (ne_of_mem_of_not_mem member fresh), live]
  rfl

/-- An appended element keeps the representation. -/
theorem Represents.append (rep : Represents m nodes) (fresh : newEl ∉ nodes)
    (notNull : newEl ≠ NULL) (appends : Appends m m' nodes newEl ptr) :
    Represents m' (nodes ++ [newEl]) where
  chain := by
    rw [chain_concat_iff]
    obtain ⟨el, live, next, prev, -, -⟩ := appends.new
    refine ⟨?_, el, live, prev, next⟩
    rcases List.eq_nil_or_concat' nodes with rfl | ⟨others, final, rfl⟩
    · exact appends.queue
    · have nonempty : others ++ [final] ≠ [] := List.concat_ne_nil final others
      rw [appends.queue, if_neg nonempty]
      obtain ⟨upTo, finalEl, finalLive, back, -⟩ := chain_concat_iff.mp rep.chain
      have finalAfter := appends.old_live fresh (List.mem_concat_self ..) finalLive
      rw [chain_concat_iff]
      refine ⟨upTo.congr ?_, _, finalAfter, back, if_pos (List.getLastD_concat ..).symm⟩
      intro n member el live
      have notFinal : n ≠ final := by
        rintro rfl
        exact (List.nodup_append.mp rep.once).2.2 n member n List.mem_cons_self rfl
      have after := appends.old_live fresh (List.mem_append_left _ member) live
      rw [List.getLastD_concat, if_neg notFinal] at after
      exact ⟨_, after, rfl, rfl⟩
  once := by
    refine List.nodup_append.mpr ⟨rep.once, by simp, ?_⟩
    intro n member a same
    rw [List.mem_singleton.mp same]
    exact ne_of_mem_of_not_mem member fresh
  notNull := by
    rw [List.mem_append, List.mem_singleton]
    rintro (inside | same)
    · exact rep.notNull inside
    · exact notNull same.symm
  last := by
    intro _
    rw [List.getLastD_concat, appends.queue]
    split
    · next empty =>
        obtain ⟨el, live, -, -, -, last⟩ := appends.new
        exact ⟨el, live, last empty⟩
    · next nonempty =>
        obtain ⟨head, live, -⟩ := rep.last nonempty
        have member := (rep.live m.queue).mp ⟨head, live⟩
        exact ⟨_, appends.old_live fresh member live, if_pos rfl⟩
  live := by
    intro a
    rw [List.mem_append, List.mem_singleton, ← rep.live a]
    by_cases same : a = newEl
    · subst same
      obtain ⟨el, live, -⟩ := appends.new
      exact iff_of_true ⟨el, live⟩ (.inr rfl)
    · rw [appends.old a same]
      cases m.heap.cells a with
      | none => simp [same]
      | some el => simp

/-- The payload of an appended element comes last. -/
theorem Represents.payloads_append (rep : Represents m nodes) (fresh : newEl ∉ nodes)
    (appends : Appends m m' nodes newEl ptr) :
    m'.payloads (nodes ++ [newEl]) = m.payloads nodes ++ [ptr] := by
  have before : m'.heap.contents QueueElement.payload nodes =
      m.heap.contents QueueElement.payload nodes := by
    apply Heap.contents_congr
    intro n member
    obtain ⟨el, live⟩ := rep.chain.live member
    rw [appends.old_live fresh member live, live]
    rfl
  obtain ⟨el, live, -, -, payload, -⟩ := appends.new
  rw [Memory.payloads, Heap.contents, List.filterMap_append]
  refine congrArg₂ (· ++ ·) before ?_
  simp [live, payload]

/-! ## Popping -/

/-- What `queue_pop` does to a queue that is not empty: the first element is freed, and the
following one, if there is one, takes over the pointer to the last. -/
structure Pops (m m' : Memory) (first : Pointer) (el : QueueElement) : Prop where
  queue : m'.queue = el.next
  gone : m'.heap.cells first = none
  old : ∀ a, a ≠ first → m'.heap.cells a = (m.heap.cells a).map fun other =>
    { other with
      prev := if a = el.next then NULL else other.prev
      last := if a = el.next then el.last else other.last }
  number : m'.heap.number = m.heap.number
  allocated : m'.heap.allocated = m.heap.allocated
  freed : m'.heap.freed = m.heap.freed ++ [m.heap.number first]

variable {first : Pointer} {rest : List Pointer}

/-- `queue_pop` on a queue with a single element. -/
theorem Represents.pops_only (rep : Represents m [first]) :
    ∃ el m', m.heap.cells first = some el ∧ queuePop m = some (el.payload, m') ∧
      Pops m m' first el := by
  have notNull : m.queue ≠ NULL := fun null =>
    List.cons_ne_nil first [] (rep.queue_eq_null_iff.mp null)
  obtain ⟨here, el, live, -, ends⟩ := rep.chain
  rw [here] at notNull
  replace ends : el.next = NULL := ends
  refine ⟨el, { queue := el.next, heap := m.heap.drop first }, live, ?_, ?_⟩
  · rw [queuePop, here, if_neg notNull]
    simp only [handOver, live, Option.bind_eq_bind, Option.bind_some, ends, if_true,
      Heap.free_of_live live]
  · refine
      { queue := rfl
        gone := Heap.cells_drop_self ..
        old := fun a other => ?_
        number := rfl
        allocated := rfl
        freed := rfl }
    have dead := rep.dead fun inside => other (List.mem_singleton.mp inside)
    rw [dead]
    exact (Heap.cells_drop_of_ne _ other).trans dead

/-- `queue_pop` on a queue with a following element. -/
theorem Represents.pops_before {second : Pointer} {others : List Pointer}
    (rep : Represents m (first :: second :: others)) :
    ∃ el m', m.heap.cells first = some el ∧ queuePop m = some (el.payload, m') ∧
      Pops m m' first el := by
  have notNull : m.queue ≠ NULL := fun null =>
    List.cons_ne_nil first _ (rep.queue_eq_null_iff.mp null)
  obtain ⟨here, el, live, -, follows, secondEl, secondLive, -⟩ := rep.chain
  rw [here] at notNull
  have secondNotNull : el.next ≠ NULL := by
    rw [follows]
    intro null
    exact rep.notNull (null ▸ List.mem_cons_of_mem _ List.mem_cons_self)
  have distinct : first ≠ second := by
    rintro rfl
    exact (List.nodup_cons.mp rep.once).1 List.mem_cons_self
  rw [← follows] at secondLive distinct
  -- the two assignments to the following element, one after the other
  let unlinked := m.heap.put el.next { secondEl with prev := NULL }
  let handed := unlinked.put el.next { secondEl with prev := NULL, last := el.last }
  have firstUnlinked : unlinked.cells first = some el :=
    (Heap.cells_put_of_ne _ _ distinct).trans live
  have firstHanded : handed.cells first = some el :=
    (Heap.cells_put_of_ne _ _ distinct).trans firstUnlinked
  have handing : handOver m.heap first = some handed := by
    rw [handOver]
    simp only [live, Option.bind_eq_bind, Option.bind_some, secondNotNull, if_false,
      Heap.modify_of_live secondLive]
    exact (congrArg (Option.bind · _) firstUnlinked).trans
      (Heap.modify_of_live (Heap.cells_put_self ..))
  refine ⟨el, { queue := el.next, heap := handed.drop first }, live, ?_, ?_⟩
  · rw [queuePop, here, if_neg notNull]
    simp only [handing, Option.bind_eq_bind, Option.bind_some, firstHanded,
      Heap.free_of_live firstHanded]
  · refine
      { queue := rfl
        gone := Heap.cells_drop_self ..
        old := fun a other => ?_
        number := rfl
        allocated := rfl
        freed := rfl }
    refine (Heap.cells_drop_of_ne _ other).trans ?_
    by_cases following : a = el.next
    · rw [following, secondLive]
      refine (Heap.cells_put_self ..).trans ?_
      simp only [Option.map_some, if_true]
    · simp only [following, if_false]
      refine ((Heap.cells_put_of_ne _ _ following).trans ?_).trans Option.map_id'.symm
      exact Heap.cells_put_of_ne _ _ following

/-- **`queue_pop` on a representation**: it meets no fault, returns the payload of the first
element and takes that element away. -/
theorem Represents.pops (rep : Represents m (first :: rest)) :
    ∃ el m', m.heap.cells first = some el ∧ queuePop m = some (el.payload, m') ∧
      Pops m m' first el := by
  cases rest with
  | nil => exact rep.pops_only
  | cons second others => exact rep.pops_before

/-- What `queue_pop` leaves of another element. -/
theorem Pops.old_live {el other : QueueElement} (pops : Pops m m' first el) {n : Pointer}
    (apart : n ≠ first) (live : m.heap.cells n = some other) :
    m'.heap.cells n = some
      { other with
        prev := if n = el.next then NULL else other.prev
        last := if n = el.next then el.last else other.last } := by
  rw [pops.old n apart, live]
  rfl

/-- The following elements are a representation once the first is gone. -/
theorem Represents.tail {el : QueueElement} (rep : Represents m (first :: rest))
    (live : m.heap.cells first = some el) (pops : Pops m m' first el) : Represents m' rest where
  chain := by
    obtain ⟨-, found, foundLive, -, onward⟩ := rep.chain
    obtain rfl : found = el := Option.some.inj (foundLive.symm.trans live)
    obtain ⟨firstNew, once⟩ := List.nodup_cons.mp rep.once
    rw [pops.queue]
    cases rest with
    | nil => exact onward
    | cons second others =>
        obtain ⟨follows, secondEl, secondLive, -, beyond⟩ := onward
        have apart : second ≠ first := fun same => firstNew (same ▸ List.mem_cons_self)
        refine ⟨follows, _, pops.old_live apart secondLive, if_pos follows.symm, beyond.congr ?_⟩
        intro n member other otherLive
        have notSecond : n ≠ found.next := by
          rw [follows]
          exact ne_of_mem_of_not_mem member (List.nodup_cons.mp once).1
        have notFirst : n ≠ first := fun same => firstNew (same ▸ List.mem_cons_of_mem _ member)
        exact ⟨_, pops.old_live notFirst otherLive, if_neg notSecond, rfl⟩
  once := (List.nodup_cons.mp rep.once).2
  notNull inside := rep.notNull (List.mem_cons_of_mem first inside)
  last := by
    intro nonempty
    obtain ⟨here, found, foundLive, -, onward⟩ := rep.chain
    obtain ⟨head, headLive, last⟩ := rep.last (List.cons_ne_nil first rest)
    rw [here, live] at headLive
    cases headLive
    obtain rfl : found = el := Option.some.inj (foundLive.symm.trans live)
    cases rest with
    | nil => exact absurd rfl nonempty
    | cons second others =>
        obtain ⟨follows, secondEl, secondLive, -⟩ := onward
        have firstNew := (List.nodup_cons.mp rep.once).1
        have apart : second ≠ first := fun same => firstNew (same ▸ List.mem_cons_self)
        rw [pops.queue, follows]
        refine ⟨_, pops.old_live apart secondLive, ?_⟩
        rw [List.getLastD_cons, List.getLastD_cons] at last
        rw [List.getLastD_cons, ← last]
        exact if_pos follows.symm
  live := by
    intro a
    have firstNew := (List.nodup_cons.mp rep.once).1
    by_cases same : a = first
    · subst same
      rw [pops.gone]
      exact iff_of_false (by simp) firstNew
    · have before := rep.live a
      rw [List.mem_cons, or_iff_right same] at before
      rw [← before, pops.old a same]
      cases m.heap.cells a with
      | none => simp
      | some el => simp

/-- The payload of the first element is the one that goes. -/
theorem Represents.payloads_tail {el : QueueElement} (rep : Represents m (first :: rest))
    (live : m.heap.cells first = some el) (pops : Pops m m' first el) :
    m.payloads (first :: rest) = el.payload :: m'.payloads rest := by
  have after : m'.heap.contents QueueElement.payload rest =
      m.heap.contents QueueElement.payload rest := by
    apply Heap.contents_congr
    intro n member
    have apart : n ≠ first := by
      rintro rfl
      exact (List.nodup_cons.mp rep.once).1 member
    obtain ⟨other, otherLive⟩ := rep.chain.live (List.mem_cons_of_mem first member)
    rw [pops.old_live apart otherLive, otherLive]
    rfl
  rw [Memory.payloads, Memory.payloads, after, Heap.contents, List.filterMap_cons, live]
  rfl

/-! ## Runs -/

/-- A call on the queue. `newEl` is the address that `malloc` returns in it. -/
inductive Call where
  | add (newEl ptr : Pointer)
  | pop
  deriving DecidableEq

/-- The payload that a call hands over. -/
def Call.given : Call → List Pointer
  | .add _ ptr => [ptr]
  | .pop => []

/-- A call on the linked elements. `queue_add` returns nothing, for which `NULL` stands. -/
def execute (m : Memory) : Call → Option (Pointer × Memory)
  | .add newEl ptr => (queueAdd m newEl ptr).map fun m' => (NULL, m')
  | .pop => queuePop m

/-- The same call on a list of payloads, which is what a queue is for. -/
def serve (payloads : List Pointer) : Call → Pointer × List Pointer
  | .add _ ptr => (NULL, payloads ++ [ptr])
  | .pop => (payloads.headD NULL, payloads.tail)

/-- The memory, the payloads that went in, and the results other than `NULL` that came out. -/
structure Session where
  memory : Memory
  added : List Pointer
  popped : List Pointer

/-- A call in a session. -/
def step (s : Session) (call : Call) : Option Session :=
  (execute s.memory call).map fun out =>
    { memory := out.2
      added := s.added ++ call.given
      popped := s.popped ++ if out.1 = NULL then [] else [out.1] }

/-- An empty queue. -/
def start : Session where
  memory := { queue := NULL, heap := Heap.empty }
  added := []
  popped := []

/-- `malloc` succeeds, with an address that is not in use, and payloads are not `NULL`. -/
def Allowed (s : Session) : Call → Prop
  | .add newEl ptr => s.memory.heap.cells newEl = none ∧ newEl ≠ NULL ∧ ptr ≠ NULL
  | .pop => True

/-- The represented list has a payload for each element. -/
theorem Represents.payloads_length (rep : Represents m nodes) :
    (m.payloads nodes).length = nodes.length := by
  have each : ∀ n ∈ nodes, ((m.heap.cells n).map QueueElement.payload).isSome := by
    intro n member
    obtain ⟨el, live⟩ := rep.chain.live member
    rw [live]
    rfl
  rw [Memory.payloads, Heap.contents, List.length_filterMap_eq_countP]
  exact List.countP_eq_length.mpr each

/-- **The calls refine the list**: from a representation each allowed call meets no fault, returns
what the list returns, and leaves a representation of what the list becomes. -/
theorem Represents.refines (rep : Represents m nodes) {call : Call}
    (fresh : ∀ newEl ptr, call = .add newEl ptr → m.heap.cells newEl = none ∧ newEl ≠ NULL) :
    ∃ m' nodes', execute m call = some ((serve (m.payloads nodes) call).1, m') ∧
      Represents m' nodes' ∧ m'.payloads nodes' = (serve (m.payloads nodes) call).2 := by
  cases call with
  | add newEl ptr =>
      obtain ⟨dead, notNull⟩ := fresh newEl ptr rfl
      obtain ⟨m', added, appends⟩ := rep.appends dead ptr
      have unused := rep.fresh_not_mem dead
      refine ⟨m', nodes ++ [newEl], ?_, rep.append unused notNull appends,
        rep.payloads_append unused appends⟩
      rw [execute, added]
      rfl
  | pop =>
      cases nodes with
      | nil =>
          have null := rep.queue_eq_null_iff.mpr rfl
          exact ⟨m, [], if_pos null, rep, rfl⟩
      | cons first rest =>
          obtain ⟨el, m', live, popped, pops⟩ := rep.pops
          have payloads := rep.payloads_tail live pops
          refine ⟨m', rest, ?_, rep.tail live pops, ?_⟩
          · rw [payloads]
            exact popped
          · rw [payloads]
            rfl

/-- **The invariant of a session**: the elements represent what went in and has not come out,
and the allocations are numbered as the payloads are, those that came out freed. -/
structure Invariant (s : Session) (nodes : List Pointer) : Prop where
  represents : Represents s.memory nodes
  fifo : s.added = s.popped ++ s.memory.payloads nodes
  notNull : NULL ∉ s.added
  freed : s.memory.heap.freed = List.range s.popped.length
  stored : nodes.map s.memory.heap.number = List.range' s.popped.length nodes.length
  allocated : s.memory.heap.allocated = s.added.length

/-- An empty queue satisfies the invariant. -/
theorem invariant_start : Invariant start [] where
  represents :=
    { chain := rfl
      once := List.nodup_nil
      notNull := List.not_mem_nil
      last := fun nonempty => absurd rfl nonempty
      live := by simp [start, Heap.empty] }
  fifo := rfl
  notNull := List.not_mem_nil
  freed := rfl
  stored := rfl
  allocated := rfl

variable {s s' : Session}

/-- Going in and coming out are counted by the elements between them. -/
theorem Invariant.added_length (holds : Invariant s nodes) :
    s.added.length = s.popped.length + nodes.length := by
  rw [holds.fifo, List.length_append, holds.represents.payloads_length]

/-- An element that is added takes the next number. -/
theorem Invariant.add (holds : Invariant s nodes) {newEl ptr : Pointer}
    (allowed : Allowed s (.add newEl ptr)) (moves : step s (.add newEl ptr) = some s') :
    Invariant s' (nodes ++ [newEl]) := by
  have rep := holds.represents
  obtain ⟨dead, notNull, payloadNotNull⟩ := allowed
  obtain ⟨m', added, appends⟩ := rep.appends dead ptr
  have unused := rep.fresh_not_mem dead
  rw [LinkedQueue.step, execute, added] at moves
  cases moves
  refine
    { represents := rep.append unused notNull appends
      fifo := ?_
      notNull := ?_
      freed := ?_
      stored := ?_
      allocated := ?_ }
  · simp only [Call.given, if_true, List.append_nil]
    rw [rep.payloads_append unused appends, holds.fifo, List.append_assoc]
  · simp only [Call.given, List.mem_append, List.mem_singleton]
    rintro (before | now)
    · exact holds.notNull before
    · exact payloadNotNull now.symm
  · simp only [if_true, List.append_nil]
    exact appends.freed.trans holds.freed
  · simp only [if_true, List.append_nil, List.length_append, List.length_singleton]
    have olds : nodes.map m'.heap.number = nodes.map s.memory.heap.number := by
      apply List.map_congr_left
      intro n member
      rw [appends.number]
      exact Function.update_of_ne (ne_of_mem_of_not_mem member unused) ..
    have new : m'.heap.number newEl = s.popped.length + nodes.length := by
      rw [appends.number, Function.update_self, holds.allocated, holds.added_length]
    rw [List.map_append, olds, holds.stored, List.map_singleton, new, List.range'_1_concat]
  · simp only [Call.given, List.length_append, List.length_singleton]
    rw [appends.allocated, holds.allocated]

/-- The element that is popped has the number of the payload that comes out. -/
theorem Invariant.pop (holds : Invariant s (first :: rest)) (moves : step s .pop = some s') :
    Invariant s' rest := by
  have rep := holds.represents
  obtain ⟨el, m', live, popped, pops⟩ := rep.pops
  have payloads := rep.payloads_tail live pops
  have fifo := holds.fifo
  rw [payloads] at fifo
  have notNull : el.payload ≠ NULL := by
    intro null
    apply holds.notNull
    rw [fifo, null]
    exact List.mem_append_right _ List.mem_cons_self
  have numbers := holds.stored
  rw [List.map_cons, List.length_cons, List.range'_succ] at numbers
  obtain ⟨firstNumber, others⟩ := List.cons.inj numbers
  rw [LinkedQueue.step, execute, popped] at moves
  cases moves
  refine
    { represents := rep.tail live pops
      fifo := ?_
      notNull := ?_
      freed := ?_
      stored := ?_
      allocated := ?_ }
  · simp only [Call.given, notNull, if_false, List.append_nil]
    rw [fifo, List.append_assoc]
    rfl
  · simp only [Call.given, List.append_nil]
    exact holds.notNull
  · simp only [notNull, if_false, List.length_append, List.length_singleton]
    rw [pops.freed, holds.freed, firstNumber, List.range_succ]
  · simp only [notNull, if_false, List.length_append, List.length_singleton]
    rw [pops.number]
    exact others
  · simp only [Call.given, List.append_nil]
    exact pops.allocated.trans holds.allocated

/-- **A call keeps the invariant.** -/
theorem Invariant.step (holds : Invariant s nodes) {call : Call} (allowed : Allowed s call)
    (moves : step s call = some s') : ∃ nodes', Invariant s' nodes' := by
  cases call with
  | add newEl ptr => exact ⟨nodes ++ [newEl], holds.add allowed moves⟩
  | pop =>
      cases nodes with
      | nil =>
          have null := holds.represents.queue_eq_null_iff.mpr rfl
          rw [LinkedQueue.step, execute, queuePop, if_pos null] at moves
          cases moves
          simp only [Call.given, if_true, List.append_nil]
          exact ⟨[], holds⟩
      | cons first rest => exact ⟨rest, holds.pop moves⟩

/-- The invariant holds in every state of a session. -/
theorem reached_invariant (reached : Reach step (· = start) Allowed s) :
    ∃ nodes, Invariant s nodes := by
  refine reached.invariant (I := fun s => ∃ nodes, Invariant s nodes) ?_ ?_
  · rintro _ rfl
    exact ⟨[], invariant_start⟩
  · rintro s call s' ⟨nodes, holds⟩ allowed moves
    exact holds.step allowed moves

instance : DecidableRel Allowed := fun s call =>
  match call with
  | .add newEl ptr =>
      decidable_of_iff ((s.memory.heap.cells newEl).isNone = true ∧ newEl ≠ NULL ∧ ptr ≠ NULL)
        (and_congr_left' Option.isNone_iff_eq_none)
  | .pop => isTrue trivial

/-- **The linked queue refines a list.** -/
theorem queue_refines_list (reached : Reach step (· = start) Allowed s) :
    ∃ nodes,
      -- from the head `next` visits the elements once each and ends at `NULL`
      Chain QueueElement.prev QueueElement.next s.memory.heap.cells NULL NULL s.memory.queue
          nodes ∧
      nodes.Nodup ∧ (∀ a, (∃ el, s.memory.heap.cells a = some el) ↔ a ∈ nodes) ∧
      -- `last` of the head is the final element, and `prev` inverts `next`
      (nodes ≠ [] → ∃ head, s.memory.heap.cells s.memory.queue = some head ∧
        head.last = nodes.getLastD NULL) ∧
      (∀ n ∈ nodes, ∀ el, s.memory.heap.cells n = some el →
        (el.next = NULL ∨ ∃ following, s.memory.heap.cells el.next = some following ∧
          following.prev = n) ∧
        (n = s.memory.queue ∧ el.prev = NULL ∨ ∃ preceding,
          s.memory.heap.cells el.prev = some preceding ∧ preceding.next = n)) ∧
      -- what went in has come out in order or is stored, and what came out is freed once
      s.added = s.popped ++ s.memory.payloads nodes ∧
      s.memory.heap.freed = List.range s.popped.length ∧
      nodes.map s.memory.heap.number = List.range' s.popped.length nodes.length ∧
      -- the next call meets no fault and does what it does to the list
      ∀ call, Allowed s call → ∃ m' nodes',
        execute s.memory call = some ((serve (s.memory.payloads nodes) call).1, m') ∧
        Represents m' nodes' ∧ m'.payloads nodes' = (serve (s.memory.payloads nodes) call).2 ∧
        (call = .pop → ((serve (s.memory.payloads nodes) call).1 = NULL ↔ nodes = [])) := by
  obtain ⟨nodes, holds⟩ := reached_invariant reached
  have rep := holds.represents
  refine ⟨nodes, rep.chain, rep.once, rep.live, rep.last,
    fun n member el live => ⟨rep.chain.prev_next member live, rep.chain.next_prev member live⟩,
    holds.fifo, holds.freed, holds.stored, ?_⟩
  intro call allowed
  have fresh : ∀ newEl ptr, call = .add newEl ptr →
      s.memory.heap.cells newEl = none ∧ newEl ≠ NULL := by
    rintro newEl ptr rfl
    exact ⟨allowed.1, allowed.2.1⟩
  obtain ⟨m', nodes', executed, rep', payloads⟩ := rep.refines fresh
  refine ⟨m', nodes', executed, rep', payloads, ?_⟩
  rintro rfl
  cases nodes with
  | nil => exact iff_of_true rfl rfl
  | cons first rest =>
      obtain ⟨el, m'', live, -, pops⟩ := rep.pops
      rw [rep.payloads_tail live pops]
      refine iff_of_false ?_ (List.cons_ne_nil first rest)
      intro null
      apply holds.notNull
      rw [holds.fifo, rep.payloads_tail live pops]
      exact List.mem_append_right _ (List.mem_cons.mpr (.inl null.symm))

/-- Three payloads go in and two come out. The third element has the address of the first one,
which is free by then. -/
theorem queue_refines_list_reused :
    ∃ s : Session, s.added = [1, 3, 5] ∧ s.popped = [1, 3] ∧ ∃ nodes,
      Chain QueueElement.prev QueueElement.next s.memory.heap.cells NULL NULL s.memory.queue
        nodes ∧ s.memory.heap.freed = [0, 1] := by
  let calls : List Call := [.add 16 1, .add 48 3, .pop, .add 16 5, .pop]
  have replayed : ∃ s, replayWhere step Allowed start calls = some s ∧
      s.added = [1, 3, 5] ∧ s.popped = [1, 3] := ⟨_, rfl, rfl, rfl⟩
  obtain ⟨s, replayed, added, popped⟩ := replayed
  have begins : Reach step (· = start) Allowed start := .start rfl
  obtain ⟨nodes, chain, -, -, -, -, -, freed, -⟩ :=
    queue_refines_list (begins.of_replayWhere calls replayed)
  refine ⟨s, added, popped, nodes, chain, ?_⟩
  rw [freed, popped]
  rfl

end MsiSdrDriver.Server.LinkedQueue
