import TestRig.Phase.Status

/-!
# Waiting for a phase

A waiter looks at its condition when it starts and then only after it was notified. Every change
of state notifies those who wait for a state. Those who wait for the phase to be idle are notified
when a context ends and at most one was outstanding.
-/

namespace TestRig

/-- What a waiter waits for. -/
inductive Awaited where
  | idle
  | state (s : PhaseState)
  deriving DecidableEq, Repr

/-- Whether the condition of a wait holds. -/
def Awaited.holds : Awaited → PhaseStatus → Bool
  | idle, s => s.isIdle
  | state st, s => s.hasReached st

/-- A waiter, whether a notification is pending for it, and whether it has returned. -/
structure Waiter where
  awaited : Awaited
  notified : Bool := true
  returned : Bool := false
  deriving DecidableEq, Repr

namespace Waiter

/-- Notify a waiter for a state. -/
def onState (w : Waiter) : Waiter :=
  match w.awaited with
  | .state _ => { w with notified := true }
  | .idle => w

/-- Notify a waiter for the phase to be idle. -/
def onIdle (w : Waiter) : Waiter :=
  match w.awaited with
  | .idle => { w with notified := true }
  | .state _ => w

/-- Let a waiter run: if it was notified it looks at its condition and returns or waits on. -/
def poll (s : PhaseStatus) (w : Waiter) : Waiter :=
  if w.returned || !w.notified then w
  else { w with notified := false, returned := w.awaited.holds s }

end Waiter

/-- A phase with those who wait for it. -/
structure WatchedPhase where
  status : PhaseStatus := {}
  waiters : List Waiter := []
  deriving DecidableEq, Repr, Inhabited

namespace WatchedPhase

/-- Enter a state. -/
def setState (p : WatchedPhase) (s : PhaseState) : WatchedPhase :=
  { status := p.status.setState s, waiters := p.waiters.map Waiter.onState }

/-- A context was spawned. -/
def contextSpawned (p : WatchedPhase) : WatchedPhase :=
  { p with status := p.status.contextSpawned }

/-- A context ended. -/
def contextFinished (p : WatchedPhase) : WatchedPhase :=
  { status := p.status.contextFinished
    waiters := if p.status.outstanding ≤ 1 then p.waiters.map Waiter.onIdle else p.waiters }

/-- A context was killed. -/
def contextKilled (p : WatchedPhase) : WatchedPhase :=
  { p with status := p.status.contextKilled }

/-- Forget the last run. -/
def reset (p : WatchedPhase) : WatchedPhase :=
  { status := p.status.reset, waiters := p.waiters.map Waiter.onState }

/-- Start to wait. -/
def await (p : WatchedPhase) (a : Awaited) : WatchedPhase :=
  { p with waiters := p.waiters ++ [{ awaited := a }] }

/-- Let one waiter run. -/
def poll (p : WatchedPhase) (i : Nat) : WatchedPhase :=
  { p with waiters := p.waiters.modify i (Waiter.poll p.status) }

/-- Let every waiter run. -/
def pollAll (p : WatchedPhase) : WatchedPhase :=
  { p with waiters := p.waiters.map (Waiter.poll p.status) }

end WatchedPhase

end TestRig
