import Mathlib.Data.List.Perm.Basic

/-! # Accounting for a queue

Items enter a queue at its end and leave it anywhere. -/
namespace Fifo

variable {α : Type*}

/-- Every item that entered is queued or has left, and the queue is in the order of entry. -/
structure Accounts (entered queue left : List α) : Prop where
  perm : entered.Perm (queue ++ left)
  order : queue.Sublist entered

variable {entered queue left : List α}

theorem accounts_nil : Accounts ([] : List α) [] [] := ⟨.refl _, .refl _⟩

theorem Accounts.enter (h : Accounts entered queue left) (xs : List α) :
    Accounts (entered ++ xs) (queue ++ xs) left := by
  refine ⟨?_, h.order.append (.refl _)⟩
  refine (h.perm.append_right xs).trans ?_
  rw [List.append_assoc, List.append_assoc]
  exact List.perm_append_comm.append_left queue

/-- Some items leave, the others keep their order. -/
theorem Accounts.leave (h : Accounts entered queue left) {keep out : List α}
    (hsplit : queue.Perm (keep ++ out)) (hkeep : keep.Sublist queue) :
    Accounts entered keep (left ++ out) := by
  refine ⟨h.perm.trans ?_, hkeep.trans h.order⟩
  refine (hsplit.append_right left).trans ?_
  rw [List.append_assoc]
  exact List.perm_append_comm.append_left keep

/-- The items without a property stay, those with it leave in their order. -/
theorem perm_filter_append (p : α → Bool) (queue : List α) :
    queue.Perm (queue.filter (fun x => !p x) ++ queue.filter p) :=
  (List.filter_append_perm p queue).symm.trans List.perm_append_comm

end Fifo
