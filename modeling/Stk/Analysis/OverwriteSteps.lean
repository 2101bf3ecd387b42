import Stk.Model.QueueOverwrite
import Stk.Analysis.MessageQueueRefinement

/-!
# The steps of a mailbox

What one critical section does to a queue of length one, and from it what a step of a task, of an
interrupt handler or of the kernel does to the item in the queue, to the overwrites under way and to
the history (`Acts`).
-/

set_option autoImplicit false

namespace Stk.Analysis

open Stk.Model

variable {n msgSize : ℕ}

/-! ## One slot -/

theorem front_eq_none {capacity : ℕ} (q : MessageQueue capacity msgSize) : q.front = none ↔ q.count = 0 := by
  unfold MessageQueue.front
  split <;> simp [*]

@[simp] theorem front_reset {capacity : ℕ} (q : MessageQueue capacity msgSize) : q.reset.front = none :=
  (front_eq_none _).mpr rfl

theorem front_put {q : MessageQueue 1 msgSize} (h : QueueWf q) (hq : q.front = none) (item : Message msgSize) :
    (q.put item).front = some item := by
  have hcount := (front_eq_none q).mp hq
  obtain ⟨hwf, hcontents⟩ := h.put (by omega) item
  have hone : (q.put item).count ≠ 0 := Nat.succ_ne_zero q.count
  have hnil : contents q = [] := List.length_eq_zero_iff.mp (by rw [length_contents, hcount])
  rw [hnil, hwf.contents_eq_cons hone] at hcontents
  unfold MessageQueue.front
  rw [if_neg hone]
  exact congrArg some (List.cons.inj hcontents).1

/-- INTERNAL: the one slot is taken. -/
theorem count_eq_one {q : MessageQueue 1 msgSize} (h : QueueWf q) (hq : q.front ≠ none) : q.count = 1 := by
  have hcount := mt (front_eq_none q).mpr hq
  have hle := h.count_le
  omega

variable {σ : Type} [SwitchStrategy (Fin n) σ] {s : QueueSystem n 1 msgSize σ} {item : Message msgSize}

omit [SwitchStrategy (Fin n) σ] in
/-- INTERNAL: a put into the empty queue. -/
theorem attempt_put (hq : s.queue.front = none) :
    s.attempt (.put item) =
      some ({ s with queue := s.queue.put item, kernel := s.kernel.wakeOne cvNotEmpty }, ⟨true, none⟩) := by
  have hcount := (front_eq_none _).mp hq
  have hready : (QueueOp.put item).isBlocked s.queue = false := by
    simp [QueueOp.isBlocked, hcount]
  unfold QueueSystem.attempt
  rw [hready]
  rfl

omit [SwitchStrategy (Fin n) σ] in
/-- INTERNAL: a put into the full queue. -/
theorem attempt_put_full (h : QueueWf s.queue) (hq : s.queue.front ≠ none) :
    s.attempt (.put item) = none := by
  have hcount := count_eq_one h hq
  have hfull : (QueueOp.put item).isBlocked s.queue = true := by
    simp [QueueOp.isBlocked, hcount]
  unfold QueueSystem.attempt
  rw [hfull]
  rfl

/-- INTERNAL: a call without a wait runs the part behind its wait loop, or fails. -/
theorem stepResult_tryCall {cfg : Config} {user : QueueUser n} {op : QueueOp msgSize}
    (huser : ∀ i, user = .task i → s.kernel.canCall i = true) :
    s.stepResult cfg (Mailbox.tryCall user op) =
      match s.attempt op with
      | some (s', r) => (s', some r)
      | none => (s, some ⟨false, none⟩) := by
  cases user with
  | handler id =>
    simp only [Mailbox.tryCall, QueueSystem.stepResult]
    cases s.attempt op <;> rfl
  | task i =>
    have hcall := huser i rfl
    have hcond : (s.kernel.canCall i && decide ((0 : ℤ) ≤ waitInfinite)) = true := by
      rw [hcall]
      decide
    have hstep : s.stepResult cfg (Mailbox.tryCall (.task i) op) = s.enter cfg i op 0 := if_pos hcond
    rw [hstep]
    unfold QueueSystem.enter
    cases s.attempt op with
    | some r => rfl
    | none => exact if_neg (fun h => h rfl)

/-- INTERNAL: `TryPut`. -/
theorem tryPut_queue (cfg : Config) (item : Message msgSize) {user : QueueUser n} (h : QueueWf s.queue)
    (huser : ∀ i, user = .task i → s.kernel.canCall i = true) :
    (s.step cfg (Mailbox.tryCall user (.put item))).pending = s.pending ∧
      (s.step cfg (Mailbox.tryCall user (.put item))).queue.front =
        some (s.queue.front.getD item) := by
  unfold QueueSystem.step
  rw [stepResult_tryCall huser]
  cases hq : s.queue.front with
  | none =>
    rw [attempt_put hq]
    exact ⟨rfl, front_put h hq item⟩
  | some found =>
    rw [attempt_put_full h (by rw [hq]; exact Option.some_ne_none found)]
    exact ⟨rfl, hq⟩

/-- INTERNAL: a peek without a wait. -/
theorem peek_result (cfg : Config) {user : QueueUser n} (huser : ∀ i, user = .task i → s.kernel.canCall i = true) :
    ∃ r : QueueReturn msgSize, s.stepResult cfg (Mailbox.tryCall user .peek) = (s, some r) ∧
      r.msg = s.queue.front := by
  rw [stepResult_tryCall huser]
  unfold QueueSystem.attempt MessageQueue.front QueueOp.isBlocked
  by_cases hcount : s.queue.count = 0
  · refine ⟨⟨false, none⟩, ?_, by rw [if_pos hcount]⟩
    simp [hcount]
  · refine ⟨⟨true, some s.queue.peek⟩, ?_, by rw [if_neg hcount]⟩
    simp [hcount, QueueOp.perform, QueueOp.notify]

/-- What a stretch of a send does.  If it tries to put its item, it puts it into the empty queue and returns, or finds
the queue full and waits or fails; a send whose wait has not ended in a signal does not try. -/
inductive SendStretch (s : QueueSystem n 1 msgSize σ) (i : Fin n) (item : Message msgSize) :
    Bool → QueueSystem n 1 msgSize σ × Option (QueueReturn msgSize) → Prop where
  | put {s' r} (hfront : s.queue.front = none) (hfront' : s'.queue.front = some item)
      (hpending : ∀ j, s'.pending j = s.pending j ∨ s'.pending j = none) :
      SendStretch s i item true (s', some ⟨true, r⟩)
  | wait {s' r} (hfront : s.queue.front ≠ none) (hfront' : s'.queue.front = s.queue.front)
      (hr : ∀ msg, r ≠ some ⟨true, msg⟩)
      (hpending : ∀ j, s'.pending j = s.pending j ∨ s'.pending j = none ∨ j = i) :
      SendStretch s i item true (s', r)
  | leave {s' r} (hfront' : s'.queue.front = s.queue.front) (hr : ∀ msg, r ≠ some ⟨true, msg⟩)
      (hpending : ∀ j, s'.pending j = s.pending j ∨ s'.pending j = none) : SendStretch s i item false (s', r)

/-- INTERNAL: a send from the head of its loop. -/
theorem enter_put (cfg : Config) (h : QueueWf s.queue) (i : Fin n) (timeout : ℤ) :
    SendStretch s i item true (s.enter cfg i (.put item) timeout) := by
  by_cases hq : s.queue.front = none
  · unfold QueueSystem.enter
    rw [attempt_put hq]
    exact .put hq (front_put h hq item) (fun j => .inl rfl)
  · unfold QueueSystem.enter
    rw [attempt_put_full h hq]
    dsimp only
    split
    · split
      · split
        · exact .wait hq rfl (fun msg => by simp) (fun j => .inl rfl)
        · refine .wait hq rfl (fun msg => by simp) (fun j => ?_)
          by_cases hj : j = i
          · exact .inr (.inr hj)
          · exact .inl (Function.update_of_ne hj _ _)
      · exact .wait hq rfl (fun msg => by simp) (fun j => .inl rfl)
    · exact .wait hq rfl (fun msg => by simp) (fun j => .inl rfl)

omit [SwitchStrategy (Fin n) σ] in
/-- INTERNAL: the stretch of a send that has only left its wait before. -/
theorem SendStretch.of_eq {s' : QueueSystem n 1 msgSize σ} {i : Fin n}
    {r : QueueSystem n 1 msgSize σ × Option (QueueReturn msgSize)} (h : SendStretch s' i item true r)
    (hqueue : s'.queue = s.queue) (hpending : ∀ j, s'.pending j = s.pending j ∨ s'.pending j = none) :
    SendStretch s i item true r := by
  cases h with
  | put hfront hfront' hkept =>
    rw [hqueue] at hfront
    refine .put hfront hfront' (fun j => ?_)
    rcases hkept j with heq | hnone
    · rw [heq]
      exact hpending j
    · exact .inr hnone
  | wait hfront hfront' hr hkept =>
    rw [hqueue] at hfront hfront'
    refine .wait hfront hfront' hr (fun j => ?_)
    rcases hkept j with heq | hlast
    · rw [heq]
      exact (hpending j).imp_right .inl
    · exact .inr hlast

/-- INTERNAL: a send that goes on after its wait. -/
theorem resume_put (cfg : Config) (h : QueueWf s.queue) (i : Fin n) {timeout : ℤ}
    (hpending : s.pending i = some ⟨.put item, timeout⟩) :
    SendStretch s i item (decide (s.kernel.waitResult i = some .signal)) (s.stepResult cfg (.resume i)) := by
  simp only [QueueSystem.stepResult, hpending]
  cases hresult : s.kernel.waitResult i with
  | none => exact .leave rfl (fun msg => by simp) (fun j => .inl rfl)
  | some result =>
    have hcleared (j : Fin n) :
        Function.update s.pending i none j = s.pending j ∨ Function.update s.pending i none j = none := by
      by_cases hj : j = i
      · subst hj
        exact .inr (Function.update_self _ _ _)
      · exact .inl (Function.update_of_ne hj _ _)
    cases result with
    | timeout => exact .leave rfl (fun msg => by simp) hcleared
    | signal =>
      simp only [QueueSystem.resume]
      generalize hs' : ({ s with
        kernel := { s.kernel with call := Function.update s.kernel.call i none }
        pending := Function.update s.pending i none } : QueueSystem n 1 msgSize σ) = s'
      have hqueue : s'.queue = s.queue := by rw [← hs']
      have hpending' : ∀ j, s'.pending j = s.pending j ∨ s'.pending j = none := by
        rw [← hs']
        exact hcleared
      have hwf : QueueWf s'.queue := hqueue ▸ h
      exact (enter_put cfg hwf i timeout).of_eq hqueue hpending'

/-! ## The mailbox -/

/-- The step looks into the queue, for a peek or for the put of a send. -/
def attempts (s : Mailbox n msgSize σ) : MailboxEvent n msgSize → Bool
  | .peek user => s.isFree user
  | .send i _ timeout => s.isFree (.task i) && decide (timeout ≤ waitInfinite)
  | .resume i =>
    match s.system.pending i with
    | some ⟨.put _, _⟩ => decide (s.system.kernel.waitResult i = some .signal)
    | _ => false
  | .reset _ _ | .tryPut _ | .kernel _ => false

/-- What one step does to the item, to the overwrites under way and to the history. -/
inductive Acts (s : Mailbox n msgSize σ) (e : MailboxEvent n msgSize) (s' : Mailbox n msgSize σ) : Prop where
  | idle (hattempts : attempts s e = true → s.box ≠ none)
      (hputs : ∀ user, e = .tryPut user → s.canCall user = true → s.overwriting user = none)
      (hbox : s'.box = s.box) (hover : s'.overwriting = s.overwriting) (hhistory : s'.history = s.history)
  | reset (user : QueueUser n) (item : Message msgSize) (he : e = .reset user item) (hbox : s'.box = none)
      (hover : s'.overwriting = Function.update s.overwriting user (some (s.clock, item)))
      (hhistory : s'.history = s.history)
  | tryPut (user : QueueUser n) (start : ℕ) (item : Message msgSize) (he : e = .tryPut user)
      (huser : s.canCall user = true) (hpending : s.overwriting user = some (start, item))
      (hbox : s'.box = some (s.box.getD item)) (hover : s'.overwriting = Function.update s.overwriting user none)
      (hhistory : s'.history = s.history ++ [⟨start, s.clock, .overwrite item⟩])
  | peek (hattempts : attempts s e = true) (hbox : s'.box = s.box) (hover : s'.overwriting = s.overwriting)
      (hhistory : s'.history = s.history ++ [⟨s.clock, s.clock, .peek s.box⟩])
  | send (start : ℕ) (item : Message msgSize) (hattempts : attempts s e = true)
      (hstart : start = s.clock ∨ ∃ i, s.system.pending i ≠ none ∧ start = s.sendingSince i)
      (hempty : s.box = none) (hbox : s'.box = some item) (hover : s'.overwriting = s.overwriting)
      (hhistory : s'.history = s.history ++ [⟨start, s.clock, .send item⟩])

/-- A send that waits after the step has waited before, or has found the queue full in this step. -/
def SendsKept (s s' : Mailbox n msgSize σ) : Prop :=
  ∀ i, s'.system.pending i ≠ none →
    s.system.pending i ≠ none ∧ s'.sendingSince i = s.sendingSince i ∨
      (s.system.pending i ≠ none ∨ s.box ≠ none) ∧ s'.sendingSince i = s.clock

variable {m : Mailbox n msgSize σ}

omit [SwitchStrategy (Fin n) σ] in
/-- INTERNAL: a step that does nothing but count. -/
theorem idle_step {e : MailboxEvent n msgSize} (hattempts : attempts m e = true → m.box ≠ none)
    (hputs : ∀ user, e = .tryPut user → m.canCall user = true → m.overwriting user = none) :
    Acts m e { m with clock := m.clock + 1 } ∧ SendsKept m { m with clock := m.clock + 1 } :=
  ⟨.idle hattempts hputs rfl rfl rfl, fun _ hi => .inl ⟨hi, rfl⟩⟩

/-- INTERNAL: `Reset`. -/
theorem reset_step {cfg : Config} {user : QueueUser n} :
    Acts m (.reset user item) (m.step cfg (.reset user item)) ∧ SendsKept m (m.step cfg (.reset user item)) := by
  unfold Mailbox.step Mailbox.act
  dsimp only
  split
  · refine ⟨.reset user item rfl (front_reset _) rfl rfl, fun i hi => .inl ⟨hi, rfl⟩⟩
  · apply idle_step
    · intro hattempts
      contradiction
    · intro user he
      contradiction

omit [SwitchStrategy (Fin n) σ] in
/-- INTERNAL: the user of a call that is made runs. -/
theorem runs_of_canCall {user : QueueUser n} (h : m.canCall user = true) (i : Fin n) (hi : user = .task i) :
    m.system.kernel.canCall i = true := by
  subst hi
  exact h

/-- INTERNAL: `TryPut`. -/
theorem tryPut_step {cfg : Config} (h : QueueWf m.system.queue) {user : QueueUser n} :
    Acts m (.tryPut user) (m.step cfg (.tryPut user)) ∧ SendsKept m (m.step cfg (.tryPut user)) := by
  have hattempts : attempts m (.tryPut user) = true → m.box ≠ none := by
    intro hattempts
    contradiction
  unfold Mailbox.step Mailbox.act
  dsimp only
  cases hpending : m.overwriting user with
  | none =>
    apply idle_step hattempts
    rintro user' ⟨⟩ -
    exact hpending
  | some p =>
    obtain ⟨start, item⟩ := p
    dsimp only
    split
    · next huser =>
      obtain ⟨hsends, hfront⟩ := tryPut_queue cfg item h (runs_of_canCall huser)
      refine ⟨.tryPut user start item rfl huser hpending hfront rfl rfl, fun i hi => ?_⟩
      exact .inl ⟨fun hnone => hi ((congrFun hsends i).trans hnone), rfl⟩
    · next huser =>
      apply idle_step hattempts
      rintro user' ⟨⟩ huser'
      contradiction

/-- INTERNAL: a peek. -/
theorem peek_step {cfg : Config} {user : QueueUser n} :
    Acts m (.peek user) (m.step cfg (.peek user)) ∧ SendsKept m (m.step cfg (.peek user)) := by
  unfold Mailbox.step Mailbox.act
  dsimp only
  split
  · next hfree =>
    have huser : m.canCall user = true := (Bool.and_eq_true _ _ ▸ hfree).1
    obtain ⟨r, hresult, hmsg⟩ := peek_result cfg (runs_of_canCall huser)
    rw [hresult]
    refine ⟨.peek hfree rfl rfl ?_, fun i hi => .inl ⟨hi, rfl⟩⟩
    dsimp only [Mailbox.record]
    rw [hmsg]
    rfl
  · next hfree =>
    apply idle_step
    · intro hattempts
      exact absurd hattempts hfree
    · intro user he
      contradiction

omit [SwitchStrategy (Fin n) σ] in
/-- INTERNAL: what a stretch of a send leaves behind. -/
theorem afterSend_step {e : MailboxEvent n msgSize} {i : Fin n} {start : ℕ} {since : Fin n → ℕ} {r}
    (hstretch : SendStretch m.system i item (attempts m e) r) (he : ∀ user, e ≠ .tryPut user)
    (hstart : start = m.clock ∨ ∃ i, m.system.pending i ≠ none ∧ start = m.sendingSince i)
    (hsince : ∀ j, since j = m.sendingSince j ∨ since j = m.clock)
    (hi : m.system.pending i ≠ none ∨ since i = m.clock) :
    let m' := { m with sendingSince := since }.afterSend start item r
    Acts m e { m' with clock := m.clock + 1 } ∧ SendsKept m { m' with clock := m.clock + 1 } := by
  have hkept {j : Fin n} (hj : m.system.pending j ≠ none) :
      m.system.pending j ≠ none ∧ since j = m.sendingSince j ∨
        (m.system.pending j ≠ none ∨ m.box ≠ none) ∧ since j = m.clock := by
    rcases hsince j with hsame | hnow
    · exact .inl ⟨hj, hsame⟩
    · exact .inr ⟨.inl hj, hnow⟩
  have hnotPut (user : QueueUser n) (heq : e = .tryPut user) (_ : m.canCall user = true) :
      m.overwriting user = none := absurd heq (he user)
  have hidle {s' result} (hresult : ∀ msg, result ≠ some ⟨true, msg⟩) :
      { m with sendingSince := since }.afterSend start item (s', result) =
        { m with sendingSince := since, system := s' } := by
    unfold Mailbox.afterSend
    dsimp only
    split
    · exact absurd rfl (hresult _)
    · rfl
  generalize hattempts : attempts m e = tried at hstretch
  cases hstretch with
  | put hfront hfront' hpending =>
    refine ⟨.send start item hattempts hstart hfront hfront' rfl rfl, fun j hj => hkept ?_⟩
    rcases hpending j with heq | hnone
    · rwa [← heq]
    · exact absurd hnone hj
  | wait hfront hfront' hresult hpending =>
    rw [hidle hresult]
    refine ⟨.idle (fun _ => hfront) hnotPut hfront' rfl rfl, fun j hj => ?_⟩
    rcases hpending j with heq | hnone | rfl
    · apply hkept
      rwa [← heq]
    · exact absurd hnone hj
    · rcases hi with hbefore | hnow
      · exact hkept hbefore
      · exact .inr ⟨.inr hfront, hnow⟩
  | leave hfront' hresult hpending =>
    rw [hidle hresult]
    refine ⟨.idle (fun htried => ?_) hnotPut hfront' rfl rfl, fun j hj => hkept ?_⟩
    · rw [hattempts] at htried
      contradiction
    · rcases hpending j with heq | hnone
      · rwa [← heq]
      · exact absurd hnone hj

/-- INTERNAL: a send that is called. -/
theorem send_step {cfg : Config} (h : QueueWf m.system.queue) {i : Fin n} {timeout : ℤ} :
    Acts m (.send i item timeout) (m.step cfg (.send i item timeout)) ∧
      SendsKept m (m.step cfg (.send i item timeout)) := by
  by_cases hfree : m.isFree (.task i) = true
  · have hcall : m.system.kernel.canCall i = true := (Bool.and_eq_true _ _ ▸ hfree).1
    have hstretch : SendStretch m.system i item (attempts m (.send i item timeout))
        (m.system.stepResult cfg (.call i (.put item) timeout)) := by
      simp only [QueueSystem.stepResult, hcall, attempts, hfree, Bool.true_and, decide_eq_true_eq]
      by_cases htimeout : timeout ≤ waitInfinite
      · rw [if_pos htimeout, decide_eq_true htimeout]
        exact enter_put cfg h i timeout
      · rw [if_neg htimeout, decide_eq_false htimeout]
        exact .leave rfl (fun msg => by simp) (fun j => .inl rfl)
    have hstep : m.step cfg (.send i item timeout) =
        { { m with sendingSince := Function.update m.sendingSince i m.clock }.afterSend m.clock item
            (m.system.stepResult cfg (.call i (.put item) timeout)) with clock := m.clock + 1 } := by
      unfold Mailbox.step Mailbox.act
      dsimp only
      rw [if_pos hfree]
    rw [hstep]
    refine afterSend_step hstretch (fun user => by simp) (.inl rfl) (fun j => ?_) (.inr (Function.update_self _ _ _))
    by_cases hj : j = i
    · subst hj
      exact .inr (Function.update_self _ _ _)
    · exact .inl (Function.update_of_ne hj _ _)
  · have hstep : m.step cfg (.send i item timeout) = { m with clock := m.clock + 1 } := by
      unfold Mailbox.step Mailbox.act
      dsimp only
      rw [if_neg hfree]
    rw [hstep]
    apply idle_step
    · intro hattempts
      exact absurd (Bool.and_eq_true _ _ ▸ hattempts).1 hfree
    · intro user he
      contradiction

/-- INTERNAL: a send that goes on. -/
theorem resume_step {cfg : Config} (h : QueueWf m.system.queue) {i : Fin n} :
    Acts m (.resume i) (m.step cfg (.resume i)) ∧ SendsKept m (m.step cfg (.resume i)) := by
  unfold Mailbox.step Mailbox.act
  dsimp only
  split
  · next item timeout hpending =>
    have hwaits : m.system.pending i ≠ none := by
      rw [hpending]
      exact Option.some_ne_none _
    have hstretch : SendStretch m.system i item (attempts m (.resume i)) (m.system.stepResult cfg (.resume i)) := by
      simp only [attempts, hpending]
      exact resume_put cfg h i hpending
    exact afterSend_step hstretch (fun user => by simp) (.inr ⟨i, hwaits, rfl⟩) (fun j => .inl rfl) (.inl hwaits)
  · next hother =>
    apply idle_step
    · intro hattempts
      -- `attempts` is false where `hother` rules out a pending `Put`
      simp only [attempts] at hattempts
      contradiction
    · intro user he
      contradiction

/-- INTERNAL: a kernel call leaves the queue and its calls alone. -/
theorem kernel_queue (cfg : Config) (s : QueueSystem n 1 msgSize σ) (e : KernelEvent n) :
    (s.step cfg (.kernel e)).queue = s.queue ∧ (s.step cfg (.kernel e)).pending = s.pending := by
  unfold QueueSystem.step
  cases e <;> simp only [QueueSystem.stepResult] <;> split <;> exact ⟨rfl, rfl⟩

/-- **The steps of a mailbox.** -/
theorem step_acts (cfg : Config) (h : QueueWf m.system.queue) (e : MailboxEvent n msgSize) :
    Acts m e (m.step cfg e) ∧ SendsKept m (m.step cfg e) := by
  cases e with
  | reset user item => exact reset_step
  | tryPut user => exact tryPut_step h
  | peek user => exact peek_step
  | send i item timeout => exact send_step h
  | resume i => exact resume_step h
  | kernel e =>
    obtain ⟨hqueue, hpending⟩ := kernel_queue cfg m.system e
    refine ⟨.idle ?_ ?_ (congrArg MessageQueue.front hqueue) rfl rfl, fun i hi => .inl ⟨?_, rfl⟩⟩
    · intro hattempts
      contradiction
    · intro user he
      contradiction
    · intro hnone
      exact hi ((congrFun hpending i).trans hnone)

omit [SwitchStrategy (Fin n) σ] in
@[simp] theorem afterSend_system (start : ℕ) (r : QueueSystem n 1 msgSize σ × Option (QueueReturn msgSize)) :
    (m.afterSend start item r).system = r.1 := by
  unfold Mailbox.afterSend
  dsimp only
  split <;> rfl

/-- INTERNAL: a step makes at most one call into the queue or the kernel. -/
theorem step_system (cfg : Config) (e : MailboxEvent n msgSize) :
    (m.step cfg e).system = m.system ∨ ∃ f, (m.step cfg e).system = m.system.step cfg f := by
  unfold Mailbox.step Mailbox.act
  cases e with
  | reset user item =>
    dsimp only
    split
    · exact .inr ⟨_, rfl⟩
    · exact .inl rfl
  | tryPut user =>
    dsimp only
    split
    · split
      · exact .inr ⟨_, rfl⟩
      · exact .inl rfl
    · exact .inl rfl
  | peek user =>
    dsimp only
    split
    · split
      · next hresult => exact .inr ⟨_, (congrArg Prod.fst hresult).symm⟩
      · next hresult => exact .inr ⟨_, (congrArg Prod.fst hresult).symm⟩
    · exact .inl rfl
  | send i item timeout =>
    dsimp only
    split
    · exact .inr ⟨_, afterSend_system _ _⟩
    · exact .inl rfl
  | resume i =>
    dsimp only
    split
    · exact .inr ⟨_, afterSend_system _ _⟩
    · exact .inl rfl
  | kernel e => exact .inr ⟨_, rfl⟩

/-- INTERNAL: the indices of the queue agree. -/
theorem step_wf (cfg : Config) (h : QueueWf m.system.queue) (e : MailboxEvent n msgSize) :
    QueueWf (m.step cfg e).system.queue := by
  rcases step_system (m := m) cfg e with heq | ⟨f, heq⟩
  · rw [heq]
    exact h
  · rw [heq]
    exact (Refines.step cfg Nat.one_pos h f).wf

end Stk.Analysis
