import Mathlib.Data.List.Nodup
import Mathlib.Data.List.Pairwise
import Mathlib.Data.List.Perm.Basic
import Mathlib.Logic.Function.Basic

/-!
# Tokens in a family of lists

Some lists are indexed by places, and `gather` collects the tokens in all of them. A token that
moves from one place to another leaves the collection as it is up to order (`gather_move`), and
a token that is issued to a place adds itself (`gather_issue`). Where the collection has no
token twice, each of its tokens is in exactly one place (`existsUnique_of_nodup`).
-/

set_option autoImplicit false

namespace MsiSdrDriver.Foundations

open scoped List

universe u v

variable {ι : Type u} {α : Type v}

/-- The tokens in all places. -/
def gather (places : List ι) (lists : ι → List α) : List α :=
  places.flatMap lists

variable {places : List ι} {lists : ι → List α}

@[simp] theorem gather_cons (i : ι) : gather (i :: places) lists = lists i ++ gather places lists :=
  List.flatMap_cons

theorem mem_gather {a : α} : a ∈ gather places lists ↔ ∃ i ∈ places, a ∈ lists i :=
  List.mem_flatMap

/-- Where no token is twice, none is twice in one place. -/
theorem nodup_of_gather (nodup : (gather places lists).Nodup) {i : ι} (place : i ∈ places) :
    (lists i).Nodup := by
  exact (List.nodup_flatMap.mp nodup).1 i place

/-- **Where no token is twice, each is in exactly one place.** -/
theorem existsUnique_of_nodup (nodup : (gather places lists).Nodup) {a : α}
    (somewhere : a ∈ gather places lists) : ∃! i, i ∈ places ∧ a ∈ lists i := by
  obtain ⟨i, place, here⟩ := mem_gather.mp somewhere
  refine ⟨i, ⟨place, here⟩, ?_⟩
  rintro j ⟨otherPlace, there⟩
  by_contra different
  have disjoint := (List.nodup_flatMap.mp nodup).2
  have symmetric : Std.Symm (Function.onFun List.Disjoint lists) :=
    ⟨fun _ _ apart _ first second => apart second first⟩
  exact disjoint.forall otherPlace place different there here

section Moves

variable [DecidableEq ι] {i j : ι}

/-- A list outside the places is not collected. -/
theorem gather_update_of_not_mem {l : List α} (outside : i ∉ places) :
    gather places (Function.update lists i l) = gather places lists := by
  unfold gather
  apply List.flatMap_congr
  intro j place
  exact Function.update_of_ne (ne_of_mem_of_not_mem place outside) ..

/-- Another list at a place exchanges its tokens. -/
theorem gather_update (once : places.Nodup) (place : i ∈ places) (l : List α) :
    (gather places (Function.update lists i l) ++ lists i).Perm (gather places lists ++ l) := by
  induction places with
  | nil => cases place
  | cons j rest ih =>
      obtain ⟨outside, once⟩ := List.nodup_cons.mp once
      rcases List.mem_cons.mp place with rfl | later
      · have others : gather rest (Function.update lists i l) = gather rest lists :=
          gather_update_of_not_mem outside
        rw [gather_cons, others, Function.update_self, gather_cons]
        calc l ++ gather rest lists ++ lists i
          _ ~ lists i ++ (l ++ gather rest lists) := List.perm_append_comm
          _ ~ lists i ++ (gather rest lists ++ l) := List.perm_append_comm.append_left _
          _ = lists i ++ gather rest lists ++ l := (List.append_assoc ..).symm
      · have apart : j ≠ i := fun same => outside (same ▸ later)
        rw [gather_cons, gather_cons, Function.update_of_ne apart, List.append_assoc,
          List.append_assoc]
        exact (ih once later).append_left _

/-- **A token that is issued to a place** joins the collection. -/
theorem gather_issue (once : places.Nodup) (place : i ∈ places) (a : α) :
    (gather places (Function.update lists i (lists i ++ [a]))).Perm
      (gather places lists ++ [a]) := by
  have exchanged : (gather places (Function.update lists i (lists i ++ [a])) ++ lists i).Perm
      (gather places lists ++ (lists i ++ [a])) := gather_update once place _
  refine (List.perm_append_right_iff (lists i)).mp (exchanged.trans ?_)
  rw [List.append_assoc]
  exact List.perm_append_comm.append_left _

/-- A token that is taken from a place leaves the collection. -/
theorem gather_take (once : places.Nodup) (place : i ∈ places) {a : α} {rest : List α}
    (taken : (lists i).Perm (a :: rest)) :
    (gather places (Function.update lists i rest) ++ [a]).Perm (gather places lists) := by
  have exchanged : (gather places (Function.update lists i rest) ++ lists i).Perm
      (gather places lists ++ rest) := gather_update once place rest
  refine (List.perm_append_right_iff rest).mp (List.Perm.trans ?_ exchanged)
  rw [List.append_assoc]
  exact taken.symm.append_left _

/-- **A token that moves** from a place to another one leaves the collection as it is. -/
theorem gather_move (once : places.Nodup) (source : i ∈ places) (target : j ∈ places)
    (apart : j ≠ i) {a : α} {rest : List α} (taken : (lists i).Perm (a :: rest)) :
    (gather places
      (Function.update (Function.update lists i rest) j (lists j ++ [a]))).Perm
      (gather places lists) := by
  have moved : lists j = Function.update lists i rest j := (Function.update_of_ne apart ..).symm
  rw [moved]
  exact (gather_issue once target a).trans (gather_take once source taken)

end Moves

end MsiSdrDriver.Foundations
