import HermesEnterprise.RunQueue.Committed

/-! # How long an item waits

Every pass that commits while an item waits sends that item or one in front of it, so no more
passes go by than there are such items.
-/
namespace HermesEnterprise.RunQueue
open Foundation.Runs Foundation.Tables RunLog
variable {w w' : World} {e : Event} {p q : Pass} {i j : Item} {s : Started} {r : RunRow}
  {runId : RunId} {sessionId : SessionId} {itemId : ItemId} {position : ℕ}

section Counting
variable {α : Type} {rows : List α} {f : α → Bool} {g : α → α} {a : α}

end Counting

section Steps

end Steps

theorem Kept.of_reachable (h : Reachable Initial (Guarded Step fun w e => admits w e = true) w) : Kept w :=
  h.invariant (fun _ hw => .initial hw) fun _ _ _ hw hs => hw.step hs.1 hs.2

section Examples

instance (w : World) (itemId : ItemId) (position : ℕ) : Decidable (Waits w itemId position) := by
  unfold Waits
  infer_instance

end Examples

end HermesEnterprise.RunQueue
