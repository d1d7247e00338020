import Mathlib.Data.List.Basic
import Mathlib.Data.List.Nodup
import Mathlib.Data.List.Perm.Basic
import Mathlib.Logic.Function.Basic

/-!
# Lists threaded through their elements

A family of lists in which an element carries its own links and so is in one
list at most. An element enters a list before the first one that is to come
behind it (`insertBefore`; with nothing to come behind it, at the end) and
leaves whatever list it is in (`unlink`).
-/

namespace Queues

variable {α : Type}

/-! ## A place in one list -/

/-- `a` before the first element that is to come behind it. -/
def insertBefore (behind : α → Bool) (a : α) : List α → List α
  | [] => [a]
  | b :: bs => if behind b then a :: b :: bs else b :: insertBefore behind a bs

variable {behind : α → Bool} {a b : α} {l : List α}

theorem insertBefore_perm : (insertBefore behind a l).Perm (a :: l) := by
  induction l with
  | nil => exact List.Perm.refl _
  | cons b bs ih =>
    unfold insertBefore
    split
    · exact List.Perm.refl _
    · exact (ih.cons b).trans (List.Perm.swap a b bs)

@[simp] theorem mem_insertBefore : b ∈ insertBefore behind a l ↔ b = a ∨ b ∈ l := by
  rw [insertBefore_perm.mem_iff, List.mem_cons]

@[simp] theorem insertBefore_ne_nil : insertBefore behind a l ≠ [] := fun h =>
  List.not_mem_nil (h ▸ mem_insertBefore.mpr (.inl rfl) : a ∈ [])

theorem nodup_insertBefore (h : l.Nodup) (ha : a ∉ l) : (insertBefore behind a l).Nodup :=
  insertBefore_perm.nodup_iff.mpr (List.nodup_cons.mpr ⟨ha, h⟩)

/-! ## Many lists -/

variable {H : Type} {list : H → List α} {h h' : H}

/-- No element is in two lists, or twice in one. -/
structure Linked (list : H → List α) : Prop where
  nodup : ∀ h, (list h).Nodup
  once : ∀ {a h h'}, a ∈ list h → a ∈ list h' → h = h'

section Unlink

variable [DecidableEq α]

/-- `a` out of its list. -/
def unlink (a : α) (list : H → List α) : H → List α := fun h => (list h).erase a

theorem Linked.mem_unlink (hl : Linked list) : b ∈ unlink a list h ↔ b ≠ a ∧ b ∈ list h :=
  (hl.nodup h).mem_erase_iff

theorem unlink_subset : ∀ c ∈ unlink a list h, c ∈ list h := fun _ hc => List.mem_of_mem_erase hc

theorem unlink_of_not_mem (ha : a ∉ list h) : unlink a list h = list h := List.erase_of_not_mem ha

theorem Linked.unlink (hl : Linked list) (a : α) : Linked (unlink a list) where
  nodup h := (hl.nodup h).erase a
  once hb hb' := hl.once (unlink_subset _ hb) (unlink_subset _ hb')

end Unlink

section Link

variable [DecidableEq H]

/-- `a` into the list of `h`. -/
def link (behind : α → Bool) (h : H) (a : α) (list : H → List α) : H → List α :=
  Function.update list h (insertBefore behind a (list h))

theorem mem_link : b ∈ link behind h a list h' ↔ (b = a ∧ h' = h) ∨ b ∈ list h' := by
  unfold link
  by_cases hh : h' = h
  · subst hh
    simp
  · simp [hh]

theorem link_of_ne (hne : h' ≠ h) : link behind h a list h' = list h' :=
  Function.update_of_ne hne _ _

@[simp] theorem link_self : link behind h a list h = insertBefore behind a (list h) :=
  Function.update_self _ _ _

theorem Linked.link (hl : Linked list) (hout : ∀ h', a ∉ list h') :
    Linked (link behind h a list) where
  nodup h' := by
    by_cases hh : h' = h
    · subst hh
      rw [link_self]
      exact nodup_insertBefore (hl.nodup h') (hout h')
    · rw [link_of_ne hh]
      exact hl.nodup h'
  once hb hb' := by
    rcases mem_link.mp hb with ⟨rfl, rfl⟩ | hmem
    · rcases mem_link.mp hb' with ⟨-, rfl⟩ | hmem
      · rfl
      · exact absurd hmem (hout _)
    · rcases mem_link.mp hb' with ⟨rfl, rfl⟩ | hmem'
      · exact absurd hmem (hout _)
      · exact hl.once hmem hmem'

end Link

end Queues
