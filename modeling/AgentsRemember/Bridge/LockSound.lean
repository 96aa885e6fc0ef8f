import AgentsRemember.Bridge.Tasks

/-!
# No await under the lock

No body under the authority's lock awaits anything, in the event task, in the
dispatcher or in any call. So the lock is free whenever a task is suspended, and
taking it suspends nobody.
-/

namespace AgentsRemember.Bridge

open Lib Coroutine
open Harness (Authority OperationRecord)

theorem guarded_failEvents (detail : String) : Guarded false (failEvents detail) := guarded_update rfl

theorem guarded_handleEvent (c : Config) (event : AdapterEvent) (emitted taken : Nat) :
    Guarded false (handleEvent c event emitted taken) := by
  refine guarded_get fun s => guarded_put ?_
  split
  · exact guarded_failEvents _
  split
  · exact guarded_failEvents _
  refine guarded_locked fun b => ?_
  split
  · exact guarded_failEvents _
  refine guarded_get fun s => guarded_put ?_
  split
  · exact guarded_failEvents _
  · exact guarded_update rfl

theorem guarded_runEvents (c : Config) : Guarded false (runEvents c) := by
  refine guarded_await fun a => ?_
  split
  · exact guarded_handleEvent c _ _ _
  · exact guarded_update rfl
  · exact guarded_update rfl
  · exact rfl
  · exact rfl

theorem guarded_lockedDispatch (f : Authority → Authority) : Guarded false (lockedDispatch f) := guarded_locked fun _ => rfl

theorem guarded_rest : Guarded false rest := guarded_update rfl

theorem guarded_runDispatcher : Guarded false runDispatcher := by
  refine guarded_await fun a => ?_
  cases a with
  | false => exact rfl
  | true => exact guarded_update (guarded_lockedDispatch _)

theorem guarded_afterPreflight (c : Config) (r : OperationRecord) (at' : String) (outcome : Harness.PreflightOutcome) :
    Guarded false (afterPreflight c r at' outcome) := by
  cases outcome with
  | clear =>
    refine guarded_locked fun b => ?_
    cases b with
    | false => exact guarded_lockedDispatch _
    | true =>
      dsimp only
      split
      · exact guarded_update rfl
      · exact guarded_locked fun _ => guarded_rest
  | busy detail => exact guarded_locked fun _ => guarded_rest
  | disconnected detail mayHaveSent vendorCorrelationId =>
    cases mayHaveSent <;> exact guarded_locked fun _ => guarded_rest
  | failed => exact guarded_update rfl

theorem guarded_preflighting (c : Config) : Guarded false (preflighting c) := by
  refine guarded_await fun a => ?_
  split
  · exact rfl
  refine guarded_get fun s => ?_
  split
  · exact rfl
  · exact guarded_afterPreflight c _ _ _

theorem guarded_afterSend (c : Config) (r : OperationRecord) (at' : String) (outcome : Harness.SendOutcome) :
    Guarded false (afterSend c r at' outcome) := by
  cases outcome with
  | returned result =>
    refine guarded_locked fun b => ?_
    split
    · exact guarded_lockedDispatch _
    · exact guarded_lockedDispatch _
    · exact guarded_rest
  | busy detail => exact guarded_lockedDispatch _
  | disconnected detail mayHaveSent vendorCorrelationId =>
    cases mayHaveSent with
    | true => exact guarded_locked fun _ => guarded_rest
    | false => exact guarded_lockedDispatch _
  | failed detail => exact guarded_locked fun _ => guarded_rest

theorem guarded_sending (c : Config) : Guarded false (sending c) := by
  refine guarded_await fun a => ?_
  split
  · exact rfl
  refine guarded_get fun s => ?_
  split
  · exact rfl
  · exact guarded_afterSend c _ _ _

theorem guarded_program (c : Config) : ∀ p, Guarded false (program c p)
  | .events => guarded_runEvents c
  | .dispatching => guarded_runDispatcher
  | .preflighting => guarded_preflighting c
  | .sending => guarded_sending c

theorem guarded_cancelEventTask : Guarded false cancelEventTask := by
  refine guarded_get fun s => ?_
  split
  · exact rfl
  · exact guarded_put ⟨rfl, fun _ => rfl⟩

theorem guarded_stopAdapter (forced : Bool) : Guarded false (stopAdapter forced) := by
  refine guarded_update (guarded_await fun _ => guarded_locked fun _ => guarded_await fun a => ?_)
  cases a with
  | none => exact guarded_update rfl
  | some error => exact guarded_update rfl

theorem guarded_stopAuthority (forced : Bool) : Guarded false (stopAuthority forced) := by
  refine guarded_get fun s => ?_
  split
  · exact rfl
  refine guarded_put (Guarded.bind (fun _ => guarded_stopAdapter forced) ?_)
  simp only [awaitDispatch]
  split
  · exact rfl
  refine guarded_locked fun b => ?_
  split
  · exact ⟨rfl, fun _ => rfl⟩
  · exact rfl

theorem guarded_stop (mode : ShutdownMode) : Guarded false (stop mode) := by
  have hend (clean : Bool) : Guarded false (if clean then pure none else .raised : Task) := by
    cases clean <;> exact rfl
  refine guarded_get fun s => ?_
  split
  · exact rfl
  cases mode with
  | forced =>
    exact guarded_put (Guarded.bind (fun _ => Guarded.bind hend (guarded_stopAuthority true)) guarded_cancelEventTask)
  | graceful =>
    dsimp only
    split
    · exact rfl
    · exact guarded_put (Guarded.bind (fun clean => Guarded.bind (fun _ => hend clean) guarded_cancelEventTask)
        (guarded_stopAuthority false))

theorem guarded_start (c : Config) : Guarded false (start c) := by
  have hcleanup : Guarded false (Script.bind (ask (.adapterStop true)) fun _ => .raised : Task) :=
    guarded_await fun _ => rfl
  refine guarded_get fun s => ?_
  split
  · exact rfl
  refine guarded_await fun a => ?_
  cases a with
  | none => exact hcleanup
  | some handshake =>
    dsimp only
    split
    · exact hcleanup
    · exact guarded_update rfl

theorem guarded_underLock (f : Authority → Authority) : Guarded false (underLock f) := by
  refine guarded_get fun s => ?_
  split
  · exact rfl
  · exact guarded_locked fun _ => rfl

theorem guarded_respond (response : InteractionResponse) (answered : Bool) : Guarded false (respond response answered) := by
  refine guarded_get fun s => ?_
  split
  · exact rfl
  refine guarded_locked fun b => ?_
  split
  · exact rfl
  refine guarded_await fun a => ?_
  cases a with
  | false => exact guarded_locked fun _ => rfl
  | true =>
    refine guarded_await fun answer => guarded_get fun s => ?_
    split
    · exact rfl
    · exact guarded_update rfl

theorem guarded_entry (c : Config) : ∀ call, Guarded false (entry c call)
  | .start => guarded_start c
  | .markFailed detail => by
    refine guarded_get fun s => ?_
    split
    · exact rfl
    · exact guarded_update rfl
  | .stop mode => guarded_stop mode
  | .submit _ => guarded_underLock _
  | .setModel _ _ => guarded_underLock _
  | .setEffort _ _ => guarded_underLock _
  | .withdraw _ _ _ _ => guarded_underLock _
  | .resolveOperation _ _ _ _ _ => guarded_underLock _
  | .ledger => guarded_underLock _
  | .reconcile requestId epoch => by
    refine guarded_get fun s => ?_
    split
    · exact rfl
    refine guarded_locked fun b => ?_
    split
    · exact rfl
    · exact rfl
    · exact guarded_await fun _ => guarded_locked fun _ => rfl
  | .respond response answered => guarded_respond response answered
  | .emit _ => guarded_update rfl

end AgentsRemember.Bridge
