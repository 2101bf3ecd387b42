import Stk.Model.LinkedList
import Stk.Model.Monitor

/-!
# Waits in a release build

`IKernelService::Wait` with the wait lists as they lie in memory and the assertions compiled out.  `SetupWait`
asserts that the task is not linked to a sync object (stk.h:516-525); in a release build the `Wait` of a task that
still is links its wait object a second time.  What that does to the list is not told by the sequences of
`Kernel.waitList`, so that the lists are the pointers here.

The slots are all bound to tasks that run or sleep, and which of the runnable ones the strategy picks is left open.
An operation gives `none` where a null pointer is dereferenced or a loop over a list does not end.
-/

set_option autoImplicit false

namespace Stk.Model

/-- The wait objects, the sleep counters, the wait list of every sync object and `m_sync_list`. -/
structure ReleaseWaits (n : ℕ) where
  waitObj : Fin n → WaitObject
  timeSleep : Fin n → ℤ
  lists : DLists (Fin n) SyncId
  syncList : List SyncId
  ticks : ℤ

namespace ReleaseWaits

variable {n : ℕ}

def initial : ReleaseWaits n where
  waitObj := fun _ => ⟨none, false, 0⟩
  timeSleep := fun _ => noWait
  lists := DLists.initial
  syncList := []
  ticks := 0

/-- `SetupWait` (stk.h:516-525) and the rest of `OnTaskWait` up to the spin (stk.h:1808-1832). -/
def onTaskWait (k : ReleaseWaits n) (i : Fin n) (o : SyncId) (timeout : ℤ) : Option (ReleaseWaits n) :=
  (k.lists.linkBackUnchecked false o i).map fun lists =>
    { k with
      waitObj := Function.update k.waitObj i ⟨some o, false, timeout⟩
      timeSleep := Function.update k.timeSleep i (-waitInfinite)
      lists := lists
      syncList := if o ∈ k.syncList then k.syncList else k.syncList ++ [o] }

/-- `WaitObject::Wake` (stk.h:472-483); `m_sync_obj` is dereferenced. -/
def wake (k : ReleaseWaits n) (i : Fin n) (timeout : Bool) : Option (ReleaseWaits n) :=
  match (k.waitObj i).syncObj with
  | none => none
  | some o => (k.lists.unlinkUnchecked false o (some i)).map fun lists =>
    { k with
      waitObj := Function.update k.waitObj i ⟨none, timeout, 0⟩
      timeSleep := Function.update k.timeSleep i (-1)
      lists := lists }

/-- `ResumeTask` and `OnTaskSleepCancel` (stk.h:1181-1195, 1777-1789): the wait object stays as it is. -/
def wakeTask (k : ReleaseWaits n) (i : Fin n) : ReleaseWaits n :=
  if k.timeSleep i < 0 then { k with timeSleep := Function.update k.timeSleep i (-1) } else k

/-- `ISyncObject::WakeOne` (stk_common.h:537-543). -/
def wakeOne (k : ReleaseWaits n) (o : SyncId) : Option (ReleaseWaits n) :=
  match (k.lists.head o).first with
  | none => some k
  | some i => k.wake i false

/-- The loop of `ISyncObject::WakeAll` (stk_common.h:551-557), `fuel` times round at most. -/
def wakeAllFrom (o : SyncId) : ℕ → ReleaseWaits n → Option (ReleaseWaits n)
  | 0, k => if (k.lists.head o).first = none then some k else none
  | fuel + 1, k =>
    match (k.lists.head o).first with
    | none => some k
    | some i => (k.wake i false).bind (wakeAllFrom o fuel)

/-- `ISyncObject::WakeAll`; every round takes one off `m_count`, and at zero the list is emptied. -/
def wakeAll (k : ReleaseWaits n) (o : SyncId) : Option (ReleaseWaits n) :=
  wakeAllFrom o (k.lists.head o).count k

/-- `NotifyOne_CS` and `NotifyAll_CS` (stk_sync_cv.h:157-179). -/
def notify (k : ReleaseWaits n) : Mesa.Notify SyncId → Option (ReleaseWaits n)
  | .one cv => k.wakeOne cv
  | .all cv => k.wakeAll cv

/-- `WaitObject::Tick` (stk.h:491-507). -/
def tickWaitObj (w : WaitObject) (elapsed : ℤ) : WaitObject :=
  if w.timeWait ≠ waitInfinite then
    if !w.timeout then
      let timeWait := w.timeWait - elapsed
      { w with timeWait := timeWait, timeout := if timeWait ≤ 0 then true else w.timeout }
    else w
  else w

/-- The loop of `ISyncObject::Tick` (stk_helper.h:175-205), `fuel` times round at most. -/
def tickFrom (elapsed : ℤ) : ℕ → Option (Fin n) → ReleaseWaits n → Option (ReleaseWaits n)
  | _, none, k => some k
  | 0, some _, _ => none
  | fuel + 1, some i, k =>
    let next := (k.lists.entry i).next
    let k := { k with waitObj := Function.update k.waitObj i (tickWaitObj (k.waitObj i) elapsed) }
    if (k.waitObj i).timeout then (k.wake i true).bind (tickFrom elapsed fuel next)
    else tickFrom elapsed fuel next k

/-- `UpdateSyncObjects` (stk.h:2043-2058). -/
def updateSyncObjects (elapsed : ℤ) : List SyncId → ReleaseWaits n → Option (ReleaseWaits n)
  | [], k => some k
  | o :: os, k =>
    (tickFrom elapsed (k.lists.head o).count (k.lists.head o).first k).bind fun k =>
      updateSyncObjects elapsed os
        (if (k.lists.head o).count = 0 then { k with syncList := k.syncList.erase o } else k)

/-- `OnTick` (stk.h:1691-1716): `m_ticks`, the sync objects and the sleep counters (stk.h:1985-1996). -/
def onTick (k : ReleaseWaits n) (elapsed : ℤ) : Option (ReleaseWaits n) :=
  (updateSyncObjects elapsed k.syncList { k with ticks := k.ticks + elapsed }).map fun k =>
    { k with timeSleep := fun i => if k.timeSleep i < 0 then k.timeSleep i + elapsed else k.timeSleep i }

end ReleaseWaits

/-- The tasks with one object of a class; `pending` holds the frames of the calls inside `Wait`. -/
structure ReleaseSystem (n : ℕ) (μ φ : Type) where
  waits : ReleaseWaits n
  state : μ
  pending : Fin n → Option φ

/-- A call into the system. -/
inductive ReleaseEvent (n : ℕ) (α : Type) where
  | call (caller : Fin n) (op : α)
  | resume (caller : Fin n)
  | isr (op : α)
  | wakeTask (task : Fin n)
  | onTick (elapsed : ℤ)
deriving DecidableEq

namespace ReleaseSystem

variable {n : ℕ} {μ α φ ρ : Type} [Monitor μ α φ ρ]

def initial (state : μ) : ReleaseSystem n μ φ := ⟨.initial, state, fun _ => none⟩

/-- The notifications of a stretch. -/
def notifyAll (ms : List (Mesa.Notify SyncId)) (k : ReleaseWaits n) : Option (ReleaseWaits n) :=
  ms.foldlM ReleaseWaits.notify k

/-- The task in slot `i` runs the stretch `t`, up to the spin or the return. -/
def follow (s : ReleaseSystem n μ φ) (i : Fin n) (t : Mesa.Stretch SyncId μ φ ρ) :
    Option (ReleaseSystem n μ φ × Option ρ) :=
  (notifyAll t.notify s.waits).bind fun k =>
    match t.next with
    | .done r => some (⟨k, t.state, Function.update s.pending i none⟩, some r)
    | .wait f => (k.onTaskWait i (Monitor.waitsFor μ f) (Monitor.timeout μ f)).map fun k =>
      (⟨k, t.state, Function.update s.pending i (some f)⟩, none)

/-- One call into the system, with the result of a method that returns in it.  A task makes a call when it is not
inside one, and leaves `Wait` when it does not sleep any more; other events are none. -/
def stepResult (s : ReleaseSystem n μ φ) : ReleaseEvent n α → Option (ReleaseSystem n μ φ × Option ρ)
  | .call i op =>
    if s.pending i = none then s.follow i (Monitor.call s.waits.ticks s.state op) else some (s, none)
  | .resume i =>
    match s.pending i with
    | none => some (s, none)
    | some f =>
      if s.waits.timeSleep i < 0 then some (s, none)
      else s.follow i (Monitor.resume s.waits.ticks s.state f
        (if (s.waits.waitObj i).timeout then .timeout else .signal))
  | .isr op =>
    let t := Monitor.call s.waits.ticks s.state op
    match t.next with
    | .done r => (notifyAll t.notify s.waits).map fun k => ({ s with waits := k, state := t.state }, some r)
    | .wait _ => some (s, none)
  | .wakeTask i => some ({ s with waits := s.waits.wakeTask i }, none)
  | .onTick elapsed => (s.waits.onTick elapsed).map fun k => ({ s with waits := k }, none)

def step (s : ReleaseSystem n μ φ) (e : ReleaseEvent n α) : Option (ReleaseSystem n μ φ) :=
  (s.stepResult e).map Prod.fst

/-- The system after a sequence of calls, for an object constructed as `state`. -/
def run (state : μ) (es : List (ReleaseEvent n α)) : Option (ReleaseSystem n μ φ) :=
  es.foldlM step (initial state)

end ReleaseSystem

end Stk.Model
