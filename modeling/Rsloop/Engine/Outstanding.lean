import Rsloop.Engine.ReadyConservation

/-!
# Outstanding items

What has been scheduled and not been taken out for execution, and what a step
of the loop does to it and to the item that is being executed.
-/

namespace Rsloop.Engine

open Transition List

variable {s next : LoopState}

def Position.item : Position → Option ReadyItem
  | .executing item _ => some item
  | _ => none

/-- What has been scheduled and not been taken out for execution. -/
def LoopState.outstanding (s : LoopState) : List ReadyItem :=
  s.inHand ++ (s.queues.waiting ++ s.queues.localReady)

inductive ItemStep (s next : LoopState) : Prop
  | begins (item : ReadyItem) (idle : s.pc.item = none)
      (executing : next.pc.item = some item)
      (popped : next.queues.popped = s.queues.popped ++ [item])
  | ends (item : ReadyItem) (executing : s.pc.item = some item)
      (idle : next.pc.item = none)
      (popped : next.queues.popped = s.queues.popped)
  | stays (item : next.pc.item = s.pc.item)
      (popped : next.queues.popped = s.queues.popped)

theorem Queues.popped_collect (q : Queues) (count : Nat) :
    (q.collect count).popped = q.popped := by
  induction count generalizing q with
  | zero => rfl
  | succ count ih => exact ih _

theorem Continues.item_eq_none {stopping : Bool} {processed : Nat}
    {after : Position} (continues : Continues stopping processed after) :
    after.item = none := by
  cases continues <;> rfl

theorem RunStep.itemStep {reply : LoopReply} (step : RunStep s reply next) :
    ItemStep s next := by
  have other {pc : Position} (here : s.pc = pc)
      (before : pc.item = none) (after : next.pc.item = none)
      (popped : next.queues.popped = s.queues.popped) :
      ItemStep s next :=
    .stays (by rw [after, here, before]) popped
  cases step with
  | collects here => exact other here rfl rfl (s.queues.popped_collect _)
  | pops here batch =>
    refine .begins _ (by rw [here]; rfl) rfl ?_
    simp [Queues.pop, batch]
  | swaps => exact .stays rfl rfl
  | passes here pass =>
    cases pass with
    | executes _ _ continues => exact .ends _ (by rw [here]; rfl) continues.item_eq_none rfl
    | raises => exact .ends _ (by rw [here]; rfl) rfl rfl
    | _ => exact other here rfl rfl rfl
  | merges here arrives => exact other here rfl (by rcases arrives with rfl | rfl <;> rfl) rfl
  | stops here _ continues => exact .ends _ (by rw [here]; rfl) continues.item_eq_none rfl
  | abandons here => exact .ends _ (by rw [here]; rfl) rfl rfl
  | endsTurn here ends => exact other here rfl (by cases ends <;> rfl) rfl
  | clears here | publishes here | announces here | installs here | signals here
  | cleans here | leaves here | releases here | retires here | finishes here
  | returns here | timesOut here => exact other here rfl rfl rfl

theorem itemStep_loopStep {action : LoopAction}
    (moved : loopStep s action = some next) : ItemStep s next := by
  cases loopStep_cases moved with
  | calls | enqueues | refuses => exact .stays rfl rfl
  | produces step => cases step <;> exact .stays rfl rfl
  | dispatches step =>
    have frame := step.frame
    exact .stays (by rw [frame.pc]) frame.popped
  | begins isOver =>
    refine .stays ?_ rfl
    rcases isOver with here | here <;> rw [here] <;> rfl
  | runs step => exact step.itemStep

theorem Conserving.countP_outstanding (inv : Conserving s)
    (p : ReadyItem → Bool) :
    s.outstanding.countP p + s.queues.popped.countP p =
      (s.queues.enqueued ++ s.inHand).countP p := by
  have held := inv.holds.countP_eq p
  unfold Queues.held at held
  unfold LoopState.outstanding
  simp only [countP_append] at held ⊢
  omega

theorem ItemsMove.countP {fresh dropped : List ReadyItem}
    (moves : ItemsMove s next fresh dropped) (p : ReadyItem → Bool)
    (others : ∀ item, item.kind.runsOnDispatcher → p item = false) :
    (next.queues.enqueued ++ next.inHand).countP p =
      (s.queues.enqueued ++ s.inHand).countP p + fresh.countP p := by
  have all := moves.all.countP_eq p
  have none : dropped.countP p = 0 := by
    rw [countP_eq_zero]
    intro item mem selected
    cases (others item (moves.served item mem)).symm.trans selected
  simp only [countP_append] at all ⊢
  omega

theorem Conserving.popped_subset (inv : Conserving s) :
    s.queues.popped ⊆ s.queues.enqueued := fun _ mem =>
  inv.holds.subset (mem_append_left _ mem)

theorem Conserving.position_ne_leftEarly (inv : Conserving s) :
    s.pc ≠ .leftEarly := by
  intro pc
  obtain ⟨last, runs⟩ := inv.runs
  have sent := runs.sent
  rw [pc] at sent
  exact inv.cleanup sent.1

end Rsloop.Engine
