import Stk.Model.FrtosTask
import Stk.Model.TimerHost

/-!
# Control blocks that are destroyed

`vTaskDelete` (freertos_stk.cpp:1209-1225) destroys the control block of a task in the call that schedules its
removal.  `xTimerDelete` (freertos_stk.cpp:2658-2670) and `osTimerDelete` (cmsis_os2_stk.cpp:1553-1586) destroy
the block of a timer once their `Stop` has returned: the first in any case, the second if `Stop` has succeeded.
A block is its identifier; an identifier is not used again, and no call is made with the handle of a block that
has been destroyed.
-/

set_option autoImplicit false

namespace Stk.Model

/-! ## Tasks -/

/-- A FreeRTOS kernel and the tasks that `vTaskDelete` has destroyed. -/
structure TaskBlocks (n : ℕ) (σ : Type) where
  tasks : FrtosKernel n σ
  destroyed : TId → Bool

namespace TaskBlocks

variable {n : ℕ} {σ : Type} [SwitchStrategy (Fin n) σ]

def initial : TaskBlocks n σ := ⟨.initial, fun _ => false⟩

/-- A new block has a new identifier. -/
def permits (s : TaskBlocks n σ) : FrtosEvent n → Bool
  | .xTaskCreate _ u | .kernel (.addTask u) | .kernel (.requestAddTask _ u) => !s.destroyed u
  | _ => true

def step (cfg : Config) (s : TaskBlocks n σ) (e : FrtosEvent n) : TaskBlocks n σ :=
  if s.permits e then
    { tasks := s.tasks.step cfg e
      destroyed := match e with
        | .vTaskDelete u => if (s.tasks.state u).isSome then Function.update s.destroyed u true else s.destroyed
        | _ => s.destroyed }
  else s

end TaskBlocks

/-! ## Timers -/

/-- Whose function deletes a timer. -/
inductive TimerApi where
  /-- `xTimerDelete`. -/
  | freertos
  /-- `osTimerDelete`. -/
  | cmsis
deriving DecidableEq

/-- A deletion that has yet to destroy the block; `stopped` is what `Stop` has returned. -/
structure TimerDeletion (τ : Type) where
  timer : τ
  stopped : Bool
deriving DecidableEq

/-- A timer host, the timers that have been destroyed, and the deletions under way. -/
structure TimerBlocks (τ ι : Type) (threads : ℕ) where
  timers : TimerSystem τ ι threads
  destroyed : τ → Bool
  deleting : ι → Option (TimerDeletion τ)

inductive TimerBlockEvent (τ ι : Type) (threads : ℕ) where
  | timer (e : TimerEvent τ ι threads)
  /-- A caller begins to delete a timer. -/
  | delete (i : ι) (t : τ)
  /-- `ObjFree` or `ObjDestroy`, and the return. -/
  | destroy (i : ι)
deriving DecidableEq

namespace TimerBlocks

variable {τ ι : Type} {threads : ℕ} [DecidableEq τ] [DecidableEq ι]

def initial : TimerBlocks τ ι threads := ⟨.initial, fun _ => false, fun _ => none⟩

/-- A caller in a deletion makes no other call. -/
def permits (s : TimerBlocks τ ι threads) : TimerEvent τ ι threads → Bool
  | .call i t _ => (s.deleting i).isNone && !s.destroyed t
  | .shutdown i => (s.deleting i).isNone
  | _ => true

/-- A step of the host; the write of `Stop` tells the deletion its result. -/
def timerStep (countMax : ℕ) (s : TimerBlocks τ ι threads) (e : TimerEvent τ ι threads) : TimerBlocks τ ι threads :=
  let r := s.timers.stepResult countMax e
  { s with
    timers := r.1
    deleting := match e, r.2 with
      | .write i, some success => Function.update s.deleting i
          ((s.deleting i).map fun d => { d with stopped := success })
      | _, _ => s.deleting }

/-- The deletion up to the `Write` of `Stop`, which is called for an active timer only. -/
def delete (s : TimerBlocks τ ι threads) (i : ι) (t : τ) : TimerBlocks τ ι threads :=
  { s with
    timers := if (s.timers.host.timer t).active then (s.timers.callAt i (s.timers.host.stop t)).1 else s.timers
    deleting := Function.update s.deleting i (some ⟨t, true⟩) }

/-- The deletion destroys the block. -/
def destroys (api : TimerApi) (d : TimerDeletion τ) : Bool :=
  match api with
  | .freertos => true
  | .cmsis => d.stopped

/-- The end of a deletion. -/
def destroy (api : TimerApi) (s : TimerBlocks τ ι threads) (i : ι) : TimerBlocks τ ι threads :=
  match s.deleting i with
  | none => s
  | some d =>
    { s with
      destroyed := if destroys api d then Function.update s.destroyed d.timer true else s.destroyed
      deleting := Function.update s.deleting i none }

def step (api : TimerApi) (countMax : ℕ) (s : TimerBlocks τ ι threads) :
    TimerBlockEvent τ ι threads → TimerBlocks τ ι threads
  | .timer e => if s.permits e then s.timerStep countMax e else s
  | .delete i t =>
    if (s.timers.caller i).isNone && (s.deleting i).isNone && !s.destroyed t then s.delete i t else s
  | .destroy i => if (s.timers.caller i).isNone then s.destroy api i else s

end TimerBlocks

/-! ## The system -/

/-- The tasks and the timers of a system. -/
structure ControlBlocks (n : ℕ) (σ τ ι : Type) (threads : ℕ) where
  tasks : TaskBlocks n σ
  timers : TimerBlocks τ ι threads

inductive BlockEvent (n : ℕ) (τ ι : Type) (threads : ℕ) where
  | task (e : FrtosEvent n)
  | timer (e : TimerBlockEvent τ ι threads)
deriving DecidableEq

namespace ControlBlocks

variable {n : ℕ} {σ τ ι : Type} {threads : ℕ} [SwitchStrategy (Fin n) σ] [DecidableEq τ] [DecidableEq ι]

def initial : ControlBlocks n σ τ ι threads := ⟨.initial, .initial⟩

def step (cfg : Config) (api : TimerApi) (countMax : ℕ) (s : ControlBlocks n σ τ ι threads) :
    BlockEvent n τ ι threads → ControlBlocks n σ τ ι threads
  | .task e => { s with tasks := s.tasks.step cfg e }
  | .timer e => { s with timers := s.timers.step api countMax e }

def run (cfg : Config) (api : TimerApi) (countMax : ℕ) (es : List (BlockEvent n τ ι threads)) :
    ControlBlocks n σ τ ι threads :=
  es.foldl (step cfg api countMax) initial

end ControlBlocks

end Stk.Model
