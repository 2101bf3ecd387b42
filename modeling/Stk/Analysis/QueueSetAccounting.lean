import Mathlib.Algebra.Order.BigOperators.Group.Finset
import Mathlib.Algebra.BigOperators.Group.Finset.Basic
import Stk.Foundation.Census
import Stk.Foundation.Runs
import Stk.Model.QueueSet

/-!
# The tokens of a queue set

For each member, the tokens in the set, the selections that have yet to receive and the sends that have yet to
notify add up to the items of the member (`Accounts`).  If the set has room for all that its members can have,
no token is dropped for that reason, and the receive that follows a selection finds an item.
-/

set_option autoImplicit false

namespace Stk.Analysis

open Stk.Model

variable {μ α ι : Type} [DecidableEq μ] {s s' : QueueSetSystem μ α ι} {i : ι} {handle m : μ}

/-! ## The accounts -/

/-- The call has selected the member, and has yet to receive. -/
def isSelected (m : μ) : Option (SetCall μ α) → Bool
  | some (.selected handle) => decide (handle = m)
  | _ => false

/-- The call has stored an item in the member, and has yet to notify. -/
def isNotifying (m : μ) : Option (SetCall μ α) → Bool
  | some (.notifying handle) => decide (handle = m)
  | _ => false

/-- The accounts of every member are balanced. -/
def Accounts [Fintype ι] (s : QueueSetSystem μ α ι) : Prop :=
  ∀ m, s.tokens.count m + census (isSelected m) s.calls + census (isNotifying m) s.calls = (s.member m).itemCount

/-- The token of a call that notifies finds room. -/
def NotifiesFit (s : QueueSetSystem μ α ι) : Prop :=
  ∀ i handle, s.calls i = some (.notifying handle) → s.tokens.length < s.eventQueueLength

/-- The receive of a call that has selected a member succeeds. -/
def ReceivesSucceed (s : QueueSetSystem μ α ι) : Prop :=
  ∀ i handle, s.calls i = some (.selected handle) → (s.member handle).receive.2.success = true

/-- A semaphore is given below its maximum count. -/
def GivesBelowMax (s : QueueSetSystem μ α ι) : QueueSetEvent μ α ι → Prop
  | .proceed i =>
    match s.calls i with
    | some (.giving handle) => (s.member handle).itemCount < (s.member handle).capacity
    | _ => True
  | _ => True

instance (s : QueueSetSystem μ α ι) (e : QueueSetEvent μ α ι) : Decidable (GivesBelowMax s e) := by
  unfold GivesBelowMax
  split
  · split <;> infer_instance
  · infer_instance

/-! ## What a step does -/

/-- The call counts in no account. -/
def Uncounted (call : Option (SetCall μ α)) : Prop := ∀ m, isSelected m call = false ∧ isNotifying m call = false

variable [DecidableEq ι]

/-- What a step can do to the accounts. -/
inductive SetStep (s : QueueSetSystem μ α ι) : QueueSetSystem μ α ι → Prop where
  | stays : SetStep s s
  | goes {i : ι} {call : Option (SetCall μ α)} (hbefore : Uncounted (s.calls i)) (hafter : Uncounted call) :
      SetStep s (s.goto i call)
  | stores {i : ι} {handle : μ} {x : SetMember α} (hbefore : Uncounted (s.calls i))
      (hroom : (s.member handle).itemCount ≠ (s.member handle).capacity)
      (hcount : x.itemCount = (s.member handle).itemCount + 1) (hcapacity : x.capacity = (s.member handle).capacity) :
      SetStep s ((s.setMember handle x).goto i (some (.notifying handle)))
  | notifies {i : ι} {handle : μ} (hcall : s.calls i = some (.notifying handle)) :
      SetStep s ((s.queueSetNotify handle).goto i none)
  | selects {i : ι} {handle : μ} {tokens : List μ} (hbefore : Uncounted (s.calls i))
      (htokens : s.tokens = handle :: tokens) :
      SetStep s ({ s with tokens := tokens }.goto i (some (.selected handle)))
  | receives {i : ι} {handle : μ} (hcall : s.calls i = some (.selected handle)) :
      SetStep s ((s.setMember handle (s.member handle).receive.1).goto i none)

omit [DecidableEq μ] [DecidableEq ι] in
/-- A `Put` that goes through. -/
theorem put_spec {x x' : SetMember α} {item : α} {front : Bool} (h : x.put item front = some x') :
    x.itemCount ≠ x.capacity ∧ x'.itemCount = x.itemCount + 1 ∧ x'.capacity = x.capacity := by
  cases x with
  | queue q =>
    unfold SetMember.put at h
    dsimp only at h
    split at h
    · cases h
    · next hroom =>
      cases h
      refine ⟨hroom, ?_, rfl⟩
      cases front with
      | false => exact List.length_append
      | true => rfl
  | semaphore sem => cases h

omit [DecidableEq μ] [DecidableEq ι] in
theorem receive_spec (x : SetMember α) :
    x.receive.1.capacity = x.capacity ∧ (x.receive.2.success = true ↔ x.itemCount ≠ 0) ∧
      x.receive.1.itemCount = x.itemCount - 1 := by
  cases x with
  | queue q =>
    unfold SetMember.receive
    dsimp only
    split
    · next hempty => simp [SetMember.itemCount, SetMember.capacity, hempty]
    · next item items hitems => simp [SetMember.itemCount, SetMember.capacity, hitems]
  | semaphore sem =>
    unfold SetMember.receive Semaphore.wait
    dsimp only
    by_cases hzero : sem.count = 0
    · simp [SetMember.itemCount, SetMember.capacity, hzero]
    · simp [SetMember.itemCount, SetMember.capacity, hzero]

theorem put_step {item : α} {front waits : Bool} (hbefore : Uncounted (s.calls i)) :
    SetStep s (s.put i handle item front waits) := by
  unfold QueueSetSystem.put
  split
  · next x hput =>
    obtain ⟨hroom, hcount, hcapacity⟩ := put_spec hput
    exact .stores hbefore hroom hcount hcapacity
  · refine .goes hbefore fun m => ?_
    split
    · exact ⟨rfl, rfl⟩
    · exact ⟨rfl, rfl⟩

theorem get_step {waits : Bool} (hbefore : Uncounted (s.calls i)) : SetStep s (s.get i waits) := by
  unfold QueueSetSystem.get
  split
  · next htokens => exact .selects hbefore htokens
  · refine .goes hbefore fun m => ?_
    split
    · exact ⟨rfl, rfl⟩
    · exact ⟨rfl, rfl⟩

/-- **The step lemma.** -/
theorem set_step {e : QueueSetEvent μ α ι} (he : GivesBelowMax s e) : SetStep s (s.step e) := by
  unfold QueueSetSystem.step
  cases e with
  | send i handle item front waits =>
    dsimp only
    split
    · next hcall _ =>
      refine put_step ?_
      rw [hcall]
      exact fun _ => ⟨rfl, rfl⟩
    · exact .stays
  | give i handle =>
    dsimp only
    split
    · next hcall _ =>
      split
      · exact .stays
      · refine .goes ?_ fun _ => ⟨rfl, rfl⟩
        rw [hcall]
        exact fun _ => ⟨rfl, rfl⟩
    · exact .stays
  | select i waits =>
    dsimp only
    split
    · next hcall =>
      refine get_step ?_
      rw [hcall]
      exact fun _ => ⟨rfl, rfl⟩
    · exact .stays
  | proceed i =>
    dsimp only
    split
    · next call hcall =>
      have hbefore : Uncounted (some call) → Uncounted (s.calls i) := by
        rw [hcall]
        exact id
      unfold QueueSetSystem.proceed
      cases call with
      | putting handle item front => exact put_step (hbefore fun _ => ⟨rfl, rfl⟩)
      | giving handle =>
        unfold GivesBelowMax at he
        simp only [hcall] at he
        unfold QueueSetSystem.signal
        dsimp only
        split
        · next sem hmember =>
          rw [hmember] at he
          have hsignal : sem.signal true = some ⟨{ sem with count := sem.count + 1 }, .none, id, .returns .void⟩ :=
            if_pos he
          rw [hsignal]
          refine .stores (hbefore fun _ => ⟨rfl, rfl⟩) ?_ ?_ ?_
          · rw [hmember]
            exact Nat.ne_of_lt he
          · rw [hmember]
            rfl
          · rw [hmember]
            rfl
        · exact .stays
      | notifying handle => exact .notifies hcall
      | selecting => exact get_step (hbefore fun _ => ⟨rfl, rfl⟩)
      | selected handle => exact .receives hcall
    · exact .stays
  | expire i =>
    dsimp only
    split
    · next hcall =>
      refine .goes ?_ fun _ => ⟨rfl, rfl⟩
      rw [hcall]
      exact fun _ => ⟨rfl, rfl⟩
    · next hcall =>
      refine .goes ?_ fun _ => ⟨rfl, rfl⟩
      rw [hcall]
      exact fun _ => ⟨rfl, rfl⟩
    · exact .stays

/-! ## Runs -/

section Runs

variable [Fintype ι] [Fintype μ] {member : μ → SetMember α} {eventQueueLength : ℕ}

/-- INTERNAL: the invariant. -/
structure SetOk (member : μ → SetMember α) (eventQueueLength : ℕ) (s : QueueSetSystem μ α ι) : Prop where
  accounts : Accounts s
  capacity : ∀ m, (s.member m).capacity = (member m).capacity
  within : ∀ m, (s.member m).itemCount ≤ (member m).capacity
  length : s.eventQueueLength = eventQueueLength

omit [DecidableEq ι] [Fintype μ] in
/-- A member with a call that has selected it or notifies it has an item. -/
theorem Accounts.item (h : Accounts s) (hcall : isSelected handle (s.calls i) = true ∨
    isNotifying handle (s.calls i) = true) : s.tokens.count handle < (s.member handle).itemCount := by
  have hbalance := h handle
  obtain hcall | hcall := hcall
  · have := Census.pos hcall
    omega
  · have := Census.pos hcall
    omega

omit [DecidableEq ι] in
/-- **There is room for the token**, since its item has none in the set yet. -/
theorem SetOk.room (h : SetOk member eventQueueLength s) (hsize : ∑ m, (member m).capacity ≤ eventQueueLength)
    (hcall : s.calls i = some (.notifying handle)) : s.tokens.length < s.eventQueueLength := by
  have htokens : ∑ m, s.tokens.count m = s.tokens.length := by
    have hcard := Multiset.sum_count_eq_card (s := Finset.univ) (m := (s.tokens : Multiset μ))
      fun m _ => Finset.mem_univ m
    simpa only [Multiset.coe_count, Multiset.coe_card] using hcard
  have hle : ∀ m ∈ Finset.univ, s.tokens.count m ≤ (member m).capacity := by
    intro m _
    have hbalance := h.accounts m
    have hwithin := h.within m
    omega
  have hlt : s.tokens.count handle < (member handle).capacity := by
    have hcounted : isNotifying handle (s.calls i) = true := by
      rw [hcall]
      exact decide_eq_true rfl
    exact (h.accounts.item (.inr hcounted)).trans_le (h.within handle)
  have hsum := Finset.sum_lt_sum hle ⟨handle, Finset.mem_univ handle, hlt⟩
  rw [h.length]
  omega

omit [Fintype μ] in
/-- INTERNAL: the accounts after a step that moves one call and one member. -/
theorem Accounts.move (h : Accounts s) (i : ι) (handle : μ) (call : Option (SetCall μ α)) (x : SetMember α)
    (tokens : List μ)
    (hother : ∀ m, m ≠ handle → tokens.count m = s.tokens.count m ∧
      isSelected m call = isSelected m (s.calls i) ∧ isNotifying m call = isNotifying m (s.calls i))
    (hself : tokens.count handle + (isSelected handle call).toNat + (isNotifying handle call).toNat +
        (s.member handle).itemCount =
      s.tokens.count handle + (isSelected handle (s.calls i)).toNat + (isNotifying handle (s.calls i)).toNat +
        x.itemCount) :
    Accounts ({ s with tokens := tokens, member := Function.update s.member handle x }.goto i call) := by
  intro m
  have hbalance := h m
  have hselected := Census.move (isSelected m) s.calls i call
  have hnotifying := Census.move (isNotifying m) s.calls i call
  unfold QueueSetSystem.goto
  dsimp only
  by_cases hm : m = handle
  · subst hm
    rw [Function.update_self]
    omega
  · obtain ⟨hcount, hsel, hnot⟩ := hother m hm
    rw [Function.update_of_ne hm]
    rw [hsel] at hselected
    rw [hnot] at hnotifying
    omega

theorem SetOk.step (h : SetOk member eventQueueLength s) (hsize : ∑ m, (member m).capacity ≤ eventQueueLength)
    {e : QueueSetEvent μ α ι} (he : GivesBelowMax s e) : SetOk member eventQueueLength (s.step e) := by
  have hne : ∀ {m handle : μ}, m ≠ handle → decide (handle = m) = false := fun hm => decide_eq_false (Ne.symm hm)
  have hstep := set_step he
  generalize s.step e = s' at hstep
  cases hstep with
  | stays => exact h
  | @goes i call hbefore hafter =>
    refine ⟨fun m => ?_, h.capacity, h.within, h.length⟩
    have hbalance := h.accounts m
    have hselected := Census.move (isSelected m) s.calls i call
    have hnotifying := Census.move (isNotifying m) s.calls i call
    rw [(hbefore m).1, (hafter m).1] at hselected
    rw [(hbefore m).2, (hafter m).2] at hnotifying
    unfold QueueSetSystem.goto
    dsimp only
    omega
  | @stores i handle x hbefore hroom hcount hcapacity =>
    refine ⟨?_, ?_, ?_, h.length⟩
    · refine h.accounts.move i handle _ _ s.tokens (fun m hm => ⟨rfl, ?_, ?_⟩) ?_
      · rw [(hbefore m).1]
        rfl
      · rw [(hbefore m).2]
        exact hne hm
      · rw [(hbefore handle).1, (hbefore handle).2, hcount]
        simp only [isSelected, isNotifying, decide_true, Bool.toNat_true, Bool.toNat_false]
        omega
    · exact (Function.forall_update_iff s.member fun m y => y.capacity = (member m).capacity).mpr
        ⟨hcapacity.trans (h.capacity handle), fun m _ => h.capacity m⟩
    · refine (Function.forall_update_iff s.member fun m y => y.itemCount ≤ (member m).capacity).mpr
        ⟨?_, fun m _ => h.within m⟩
      have hwithin := h.within handle
      rw [h.capacity handle] at hroom
      rw [hcount]
      omega
  | @notifies i handle hcall =>
    have hroom := h.room hsize hcall
    have hnotify : s.queueSetNotify handle = { s with tokens := s.tokens ++ [handle] } := if_pos hroom
    rw [hnotify]
    refine ⟨?_, h.capacity, h.within, h.length⟩
    have hmoved := h.accounts.move i handle none (s.member handle) (s.tokens ++ [handle])
      (fun m hm => ⟨?_, ?_, ?_⟩) ?_
    · rw [Function.update_eq_self] at hmoved
      exact hmoved
    · simp [List.count_append, hm.symm]
    · rw [hcall]
      rfl
    · rw [hcall]
      exact (hne hm).symm
    · rw [hcall]
      simp only [isSelected, isNotifying, List.count_append, List.count_singleton_self, decide_true, Bool.toNat_true,
        Bool.toNat_false]
  | @selects i handle tokens hbefore htokens =>
    refine ⟨?_, h.capacity, h.within, h.length⟩
    have hmoved := h.accounts.move i handle (some (.selected handle)) (s.member handle) tokens
      (fun m hm => ⟨?_, ?_, ?_⟩) ?_
    · rw [Function.update_eq_self] at hmoved
      exact hmoved
    · rw [htokens]
      exact (List.count_cons_of_ne (Ne.symm hm)).symm
    · rw [(hbefore m).1]
      exact hne hm
    · rw [(hbefore m).2]
      rfl
    · rw [(hbefore handle).1, (hbefore handle).2, htokens, List.count_cons_self]
      simp only [isSelected, isNotifying, decide_true, Bool.toNat_true, Bool.toNat_false]
  | @receives i handle hcall =>
    obtain ⟨hcapacity, -, hcount⟩ := receive_spec (s.member handle)
    have hcounted : isSelected handle (s.calls i) = true := by
      rw [hcall]
      exact decide_eq_true rfl
    have hitem := h.accounts.item (.inl hcounted)
    refine ⟨?_, ?_, ?_, h.length⟩
    · refine h.accounts.move i handle _ _ s.tokens (fun m hm => ⟨rfl, ?_, ?_⟩) ?_
      · rw [hcall]
        exact (hne hm).symm
      · rw [hcall]
        rfl
      · rw [hcall, hcount]
        simp only [isSelected, isNotifying, decide_true, Bool.toNat_true, Bool.toNat_false]
        omega
    · exact (Function.forall_update_iff s.member fun m y => y.capacity = (member m).capacity).mpr
        ⟨hcapacity.trans (h.capacity handle), fun m _ => h.capacity m⟩
    · refine (Function.forall_update_iff s.member fun m y => y.itemCount ≤ (member m).capacity).mpr
        ⟨?_, fun m _ => h.within m⟩
      have hwithin := h.within handle
      rw [hcount]
      omega

omit [DecidableEq ι] [Fintype μ] in
theorem SetOk.initial (hempty : ∀ m, (member m).itemCount = 0) :
    SetOk member eventQueueLength (QueueSetSystem.initial member eventQueueLength : QueueSetSystem μ α ι) where
  accounts m := by
    have hselected : census (isSelected m) (fun _ : ι => (none : Option (SetCall μ α))) = 0 := Census.eq_zero fun _ => rfl
    have hnotifying : census (isNotifying m) (fun _ : ι => (none : Option (SetCall μ α))) = 0 :=
      Census.eq_zero fun _ => rfl
    unfold QueueSetSystem.initial
    dsimp only
    rw [hselected, hnotifying, hempty m]
    rfl
  capacity _ := rfl
  within m := (hempty m).trans_le (Nat.zero_le _)
  length := rfl

/-- **Queue sets.**  If the set has room for all that its members can have, and they are empty when they are
added, then in every run whose gives are below the maximum count the accounts of every member are balanced, no
token is dropped, and the receive that follows a selection succeeds. -/
theorem run_queueSet (hsize : ∑ m, (member m).capacity ≤ eventQueueLength) (hempty : ∀ m, (member m).itemCount = 0)
    {es : List (QueueSetEvent μ α ι)}
    (hes : Runs.Along QueueSetSystem.step GivesBelowMax (QueueSetSystem.initial member eventQueueLength) es) :
    ∀ ds, ds <+: es →
      let s : QueueSetSystem μ α ι := QueueSetSystem.run member eventQueueLength ds
      Accounts s ∧ NotifiesFit s ∧ ReceivesSucceed s := by
  rintro ds ⟨rest, rfl⟩
  have hok : SetOk member eventQueueLength (QueueSetSystem.run member eventQueueLength ds : QueueSetSystem μ α ι) :=
    Runs.Along.invariant (I := SetOk member eventQueueLength) (fun _ _ h he => h.step hsize he) (.initial hempty)
      (Runs.along_append.mp hes).1
  refine ⟨hok.accounts, fun i handle hcall => hok.room hsize hcall, fun i handle hcall => ?_⟩
  rw [(receive_spec _).2.1]
  have hcounted : isSelected handle
      ((QueueSetSystem.run member eventQueueLength ds : QueueSetSystem μ α ι).calls i) = true := by
    rw [hcall]
    exact decide_eq_true rfl
  have hitem := hok.accounts.item (.inl hcounted)
  omega

end Runs

/-- A queue of two messages and a binary semaphore. -/
def twoMembers : Bool → SetMember ℕ
  | false => .queue ⟨[], 2⟩
  | true => .semaphore ⟨0, 1⟩

/-- Caller 0 fills the queue, and waits to send a third message; callers 1 and 2 select both members while the
semaphore is given, and receive; caller 0 goes on. -/
def fullQueueEvents : List (QueueSetEvent Bool ℕ (Fin 3)) :=
  [.send 0 false 5 false true, .proceed 0, .send 0 false 6 true true, .give 1 true, .proceed 0, .proceed 1,
    .send 0 false 7 false true, .select 2 true, .proceed 1, .select 1 false, .proceed 2, .proceed 0, .proceed 1,
    .proceed 0, .select 2 false, .proceed 2]

theorem fullQueueEvents_balanced :
    let s : QueueSetSystem Bool ℕ (Fin 3) := QueueSetSystem.run twoMembers 3 fullQueueEvents
    Accounts s ∧ NotifiesFit s ∧ ReceivesSucceed s :=
  run_queueSet (by decide) (by decide) (by decide +kernel) fullQueueEvents List.prefix_rfl

end Stk.Analysis
