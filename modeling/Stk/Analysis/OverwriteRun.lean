import Stk.Analysis.OverwriteSteps

/-!
# Overwrites in any order

The steps of overwrites, peeks and sends come in any order.  In a run that meets `Uncrossed` the
calls that have returned have a linear order (`MailboxAtomic`).  The order grows at its end, but for an
overwrite whose `TryPut` finds the slot taken: it takes effect just before the overwrite that has
filled the slot, which had not put its item yet when the slot was emptied (`Covered`).
-/

set_option autoImplicit false

namespace Stk.Analysis

open Stk.Model Linearization

variable {n msgSize : ℕ} {σ : Type} {s : Mailbox n msgSize σ}

/-! ## The claim and its condition -/

/-- A call that has returned has stored an item. -/
def Stored (s : Mailbox n msgSize σ) : Prop := ∃ x ∈ s.history, x.op.stores = true

/-- An overwrite has returned. -/
def Overwritten (s : Mailbox n msgSize σ) : Prop := ∃ x ∈ s.history, x.op.isOverwrite = true

/-- An overwrite has emptied the queue, and no item has been put since. -/
def Cleared (s : Mailbox n msgSize σ) : Prop := s.box = none ∧ ∃ user, s.overwriting user ≠ none

/-- **The mailbox is atomic.**  The calls that have returned have a linear order consistent with real time in which
each peek finds what the latest overwrite or send before it has stored, and the last of them has stored what the queue
holds, unless an overwrite is about to put its item; no peek that starts after an overwrite has returned finds the
queue empty. -/
structure MailboxAtomic (s : Mailbox n msgSize σ) : Prop where
  linearizable : ∃ final, Linearizable MailboxOp.apply none s.history final ∧ (¬ Cleared s → final = s.box)
  nonempty : ∀ x ∈ s.history, ∀ y ∈ s.history, x.op.isOverwrite = true → y.op = .peek none → y.start ≤ x.stop

/-- The step finds no queue that an overwrite has emptied of a stored item, and if it is a `TryPut`, no item in its place
before the first overwrite has returned. -/
structure Uncrossed (s : Mailbox n msgSize σ) (e : MailboxEvent n msgSize) : Prop where
  looks : attempts s e = true → s.box = none → ¬ Stored s
  puts : ∀ user start item, e = .tryPut user → s.canCall user = true → s.overwriting user = some (start, item) →
    s.box = none ∨ s.box = some item ∨ Overwritten s

/-! ## Times -/

/-- The records of a mailbox are of earlier steps. -/
structure Dated (s : Mailbox n msgSize σ) : Prop where
  wf : QueueWf s.system.queue
  stored : s.box ≠ none → Stored s
  past : ∀ x ∈ s.history, x.start < s.clock ∧ x.stop < s.clock
  reset_lt : ∀ user start item, s.overwriting user = some (start, item) → start < s.clock
  sends : ∀ i, s.system.pending i ≠ none →
    s.sendingSince i < s.clock ∧ ∃ x ∈ s.history, x.op.stores = true ∧ x.stop < s.sendingSince i

/-- INTERNAL: what a step adds to the history. -/
theorem Acts.history {e : MailboxEvent n msgSize} {s' : Mailbox n msgSize σ} (h : Acts s e s') (hs : Dated s) :
    s'.history = s.history ∨
      ∃ x : Interval (MailboxOp msgSize), s'.history = s.history ++ [x] ∧ x.start ≤ s.clock ∧ x.stop = s.clock := by
  cases h with
  | idle _ _ _ _ hhistory => exact .inl hhistory
  | reset _ _ _ _ _ hhistory => exact .inl hhistory
  | tryPut user start item _ _ hpending _ _ hhistory =>
    exact .inr ⟨_, hhistory, (hs.reset_lt user start item hpending).le, rfl⟩
  | peek _ _ _ hhistory => exact .inr ⟨_, hhistory, le_rfl, rfl⟩
  | send start item _ hstart _ _ _ hhistory =>
    refine .inr ⟨_, hhistory, ?_, rfl⟩
    rcases hstart with rfl | ⟨i, hi, rfl⟩
    · exact le_rfl
    · exact (hs.sends i hi).1.le

/-- INTERNAL: an overwrite under way has been so before, or has made its `Reset` in this step. -/
theorem Acts.overwriting {e : MailboxEvent n msgSize} {s' : Mailbox n msgSize σ} (h : Acts s e s')
    {user : QueueUser n} {start : ℕ} {item : Message msgSize} (huser : s'.overwriting user = some (start, item)) :
    s.overwriting user = some (start, item) ∨ start = s.clock := by
  cases h with
  | idle _ _ _ hover _ => rw [← hover]; exact .inl huser
  | peek _ _ hover _ => rw [← hover]; exact .inl huser
  | send _ _ _ _ _ _ hover _ => rw [← hover]; exact .inl huser
  | reset user' item' _ _ hover _ =>
    rw [hover] at huser
    by_cases heq : user = user'
    · subst heq
      rw [Function.update_self, Option.some.injEq, Prod.mk.injEq] at huser
      exact .inr huser.1.symm
    · rw [Function.update_of_ne heq] at huser
      exact .inl huser
  | tryPut user' _ _ _ _ _ _ hover _ =>
    rw [hover] at huser
    by_cases heq : user = user'
    · subst heq
      rw [Function.update_self] at huser
      contradiction
    · rw [Function.update_of_ne heq] at huser
      exact .inl huser

/-- INTERNAL: what has been stored before a step has been stored after it. -/
theorem mem_history_step {e : MailboxEvent n msgSize} {s' : Mailbox n msgSize σ} (h : Acts s e s') (hs : Dated s)
    {x : Interval (MailboxOp msgSize)} (hx : x ∈ s.history) : x ∈ s'.history := by
  rcases h.history hs with heq | ⟨y, heq, -⟩
  · rwa [heq]
  · rw [heq]
    exact List.mem_append_left _ hx

/-- INTERNAL: an item in the queue has been stored. -/
theorem Acts.stored {e : MailboxEvent n msgSize} {s' : Mailbox n msgSize σ} (h : Acts s e s') (hs : Dated s)
    (hbox' : s'.box ≠ none) : Stored s' := by
  have hkept (hbox : s.box ≠ none) : Stored s' := by
    obtain ⟨x, hx, hstores⟩ := hs.stored hbox
    exact ⟨x, mem_history_step h hs hx, hstores⟩
  cases h with
  | idle _ _ hbox _ _ => exact hkept (hbox ▸ hbox')
  | peek _ hbox _ _ => exact hkept (hbox ▸ hbox')
  | reset _ _ _ hbox _ _ => exact absurd hbox hbox'
  | tryPut _ _ _ _ _ _ _ _ hhistory =>
    exact ⟨_, hhistory ▸ List.mem_append_right _ (List.mem_singleton_self _), rfl⟩
  | send _ _ _ _ _ _ _ hhistory =>
    exact ⟨_, hhistory ▸ List.mem_append_right _ (List.mem_singleton_self _), rfl⟩

theorem Dated.step [SwitchStrategy (Fin n) σ] (cfg : Config) (hs : Dated s) (e : MailboxEvent n msgSize) : Dated (s.step cfg e) := by
  obtain ⟨hacts, hsends⟩ := step_acts cfg hs.wf e
  have hclock : (s.step cfg e).clock = s.clock + 1 := rfl
  refine ⟨step_wf cfg hs.wf e, hacts.stored hs, fun x hx => ?_, fun user start item huser => ?_, fun i hi => ?_⟩
  · rw [hclock]
    have hbefore (hx : x ∈ s.history) : x.start < s.clock + 1 ∧ x.stop < s.clock + 1 := by
      have hpast := hs.past x hx
      omega
    rcases hacts.history hs with heq | ⟨y, heq, hstart, hstop⟩
    · exact hbefore (heq ▸ hx)
    · rw [heq] at hx
      rcases List.mem_append.mp hx with hx | hx
      · exact hbefore hx
      · rw [List.mem_singleton.mp hx]
        omega
  · rw [hclock]
    rcases hacts.overwriting huser with hbefore | rfl
    · have hlt := hs.reset_lt user start item hbefore
      omega
    · omega
  · rw [hclock]
    rcases hsends i hi with ⟨hbefore, hsame⟩ | ⟨hreason, hnow⟩
    · rw [hsame]
      obtain ⟨hlt, x, hx, hstores, hstop⟩ := hs.sends i hbefore
      exact ⟨by omega, x, mem_history_step hacts hs hx, hstores, hstop⟩
    · rw [hnow]
      have hbefore : Stored s := by
        rcases hreason with hwaits | hfull
        · obtain ⟨-, x, hx, hstores, -⟩ := hs.sends i hwaits
          exact ⟨x, hx, hstores⟩
        · exact hs.stored hfull
      obtain ⟨x, hx, hstores⟩ := hbefore
      exact ⟨by omega, x, mem_history_step hacts hs hx, hstores, (hs.past x hx).2⟩

/-! ## The order -/

/-- An order of the history has an overwrite after which no overwrite under way has made its `Reset`; what comes after
it has stopped later, too. -/
def Covered (s : Mailbox n msgSize σ) (order : List (Interval (MailboxOp msgSize))) : Prop :=
  ∃ before f after item, order = before ++ f :: after ∧ f.op = .overwrite item ∧
    ∀ user start item', s.overwriting user = some (start, item') → ∀ y ∈ f :: after, start ≤ y.stop

/-- The invariant of the runs that meet `Uncrossed`.  The item of the queue is that of an overwrite that covers all
overwrites under way, or no overwrite has returned. -/
structure Ordered (s : Mailbox n msgSize σ) : Prop where
  dated : Dated s
  order : ∃ order final, Linearizes MailboxOp.apply none s.history order final ∧
    (¬ Cleared s → final = s.box) ∧ (s.box ≠ none → Covered s order ∨ ¬ Overwritten s)

theorem apply_overwrite {item : Message msgSize} {box box' : Option (Message msgSize)} :
    (MailboxOp.overwrite item).apply box = some box' ↔ box' = some item := by
  unfold MailboxOp.apply
  rw [Option.some.injEq]
  exact eq_comm

theorem apply_send {item : Message msgSize} {box box' : Option (Message msgSize)} :
    (MailboxOp.send item).apply box = some box' ↔ box = none ∧ box' = some item := by
  change (if box = none then some (some item) else none) = some box' ↔ _
  split <;> simp [*, eq_comm]

theorem apply_peek {found box box' : Option (Message msgSize)} :
    (MailboxOp.peek found).apply box = some box' ↔ found = box ∧ box' = box := by
  change (if found = box then some box else none) = some box' ↔ _
  split <;> simp [*, eq_comm]

theorem stores_of_isOverwrite {o : MailboxOp msgSize} (h : o.isOverwrite = true) : o.stores = true := by
  cases o with
  | overwrite item => rfl
  | _ => contradiction

/-- INTERNAL: as long as nothing has been stored the mailbox is empty. -/
theorem final_eq_none {h order : List (Interval (MailboxOp msgSize))} {final : Option (Message msgSize)}
    (hl : Linearizes MailboxOp.apply none h order final) (hstored : ¬ ∃ x ∈ h, x.op.stores = true) :
    final = none := by
  refine hl.keeps (P := fun box => box = none) (fun x hx box box' hbox happly => ?_) rfl
  cases hop : x.op with
  | overwrite item => exact absurd ⟨x, hx, by rw [hop]; rfl⟩ hstored
  | send item => exact absurd ⟨x, hx, by rw [hop]; rfl⟩ hstored
  | peek found =>
    rw [hop, apply_peek] at happly
    rw [happly.2]
    exact hbox

/-- INTERNAL: a full mailbox stays full. -/
theorem apply_full (o : MailboxOp msgSize) (box box' : Option (Message msgSize)) (hbox : box ≠ none)
    (happly : o.apply box = some box') : box' ≠ none := by
  cases o with
  | overwrite item =>
    rw [apply_overwrite.mp happly]
    exact Option.some_ne_none item
  | send item => exact absurd (apply_send.mp happly).1 hbox
  | peek found =>
    rw [(apply_peek.mp happly).2]
    exact hbox

/-- INTERNAL: a call that has stored an item leaves the mailbox full. -/
theorem apply_stores {o : MailboxOp msgSize} (ho : o.stores = true) (box box' : Option (Message msgSize))
    (happly : o.apply box = some box') : box' ≠ none := by
  cases o with
  | overwrite item =>
    rw [apply_overwrite.mp happly]
    exact Option.some_ne_none item
  | send item =>
    rw [(apply_send.mp happly).2]
    exact Option.some_ne_none item
  | peek found => contradiction

/-- INTERNAL: a call that a full mailbox refuses does not start after one that has stored an item. -/
theorem start_le_of_refused {final : Option (Message msgSize)}
    (hl : Linearizable MailboxOp.apply none s.history final) {x y : Interval (MailboxOp msgSize)}
    (hx : x ∈ s.history) (hy : y ∈ s.history) (hstores : x.op.stores = true) (hne : y ≠ x)
    (hrefused : ∀ box, box ≠ none → y.op.apply box = none) : y.start ≤ x.stop := by
  obtain ⟨order, hl⟩ := hl
  exact hl.start_le_stop hx hy hne apply_full (apply_stores hstores) hrefused

theorem Ordered.atomic (h : Ordered s) : MailboxAtomic s := by
  obtain ⟨order, final, hl, hfinal, -⟩ := h.order
  refine ⟨⟨final, ⟨order, hl⟩, hfinal⟩, fun x hx y hy hoverwrite hpeek => ?_⟩
  have hstores := stores_of_isOverwrite hoverwrite
  apply start_le_of_refused ⟨order, hl⟩ hx hy hstores
  · intro heq
    rw [← heq, hpeek] at hstores
    contradiction
  · intro box hbox
    rw [hpeek]
    exact if_neg hbox.symm

/-- INTERNAL: a step that looks into the queue finds what the order ends in. -/
theorem final_eq_box {e : MailboxEvent n msgSize} (he : Uncrossed s e) (hattempts : attempts s e = true)
    {order : List (Interval (MailboxOp msgSize))} {final : Option (Message msgSize)}
    (hl : Linearizes MailboxOp.apply none s.history order final) (hfinal : ¬ Cleared s → final = s.box) :
    final = s.box := by
  cases hbox : s.box with
  | none => exact final_eq_none hl (he.looks hattempts hbox)
  | some item =>
    rw [← hbox]
    apply hfinal
    rintro ⟨hnone, -⟩
    rw [hbox] at hnone
    contradiction

/-- INTERNAL: all calls that have returned have started before now. -/
theorem Dated.start_le (h : Dated s) (x : Interval (MailboxOp msgSize)) (hx : x ∈ s.history) : x.start ≤ s.clock :=
  (h.past x hx).1.le

section

variable {s' : Mailbox n msgSize σ} {order : List (Interval (MailboxOp msgSize))} {final : Option (Message msgSize)}

/-- INTERNAL: after a `Reset` the order ends in what the queue no longer holds. -/
theorem ordered_of_reset (hdated : Dated s') (hl : Linearizes MailboxOp.apply none s'.history order final)
    (hbox : s'.box = none) {user : QueueUser n} (huser : s'.overwriting user ≠ none) : Ordered s' :=
  ⟨hdated, order, final, hl, fun hcleared => absurd ⟨hbox, user, huser⟩ hcleared, absurd hbox⟩

/-- INTERNAL: an order that ends in the item of the queue. -/
theorem ordered_of_box (hdated : Dated s') (hl : Linearizes MailboxOp.apply none s'.history order final)
    (hbox : s'.box = final) (hcovered : s'.box ≠ none → Covered s' order ∨ ¬ Overwritten s') : Ordered s' :=
  ⟨hdated, order, final, hl, fun _ => hbox.symm, hcovered⟩

/-- INTERNAL: the last call of the order covers the overwrites under way. -/
theorem covered_concat {start stop : ℕ} {item : Message msgSize}
    (hstop : ∀ user start' item', s'.overwriting user = some (start', item') → start' ≤ stop) :
    Covered s' (order ++ [⟨start, stop, .overwrite item⟩]) := by
  refine ⟨order, ⟨start, stop, .overwrite item⟩, [], item, rfl, rfl, fun user start' item' huser y hy => ?_⟩
  rw [List.mem_singleton.mp hy]
  exact hstop user start' item' huser

/-- INTERNAL: a call that stops after all overwrites under way have started leaves them covered. -/
theorem Covered.concat (h : Covered s order) (hover : s'.overwriting = s.overwriting)
    {x : Interval (MailboxOp msgSize)}
    (hstop : ∀ user start item, s.overwriting user = some (start, item) → start ≤ x.stop) :
    Covered s' (order ++ [x]) := by
  obtain ⟨before, f, after, item, rfl, hf, hcovers⟩ := h
  refine ⟨before, f, after ++ [x], item, by simp, hf, fun user start item' huser y hy => ?_⟩
  rw [hover] at huser
  rcases List.mem_append.mp (List.cons_append ▸ hy) with hy | hy
  · exact hcovers user start item' huser y hy
  · rw [List.mem_singleton.mp hy]
    exact hstop user start item' huser

/-- INTERNAL: an overwrite returns. -/
theorem Ordered.tryPut {e : MailboxEvent n msgSize} (h : Ordered s) (he : Uncrossed s e) (hdated : Dated s')
    {user : QueueUser n} {start : ℕ} {item : Message msgSize} (heq : e = .tryPut user)
    (huser : s.canCall user = true) (hpending : s.overwriting user = some (start, item))
    (hbox : s'.box = some (s.box.getD item)) (hhistory : s'.history = s.history ++ [⟨start, s.clock, .overwrite item⟩])
    (hover : s'.overwriting = Function.update s.overwriting user none) : Ordered s' := by
  obtain ⟨order, final, hl, hfinal, hcovered⟩ := h.order
  have hbefore {user' : QueueUser n} {start' : ℕ} {item' : Message msgSize}
      (huser' : s'.overwriting user' = some (start', item')) : s.overwriting user' = some (start', item') := by
    rw [hover] at huser'
    by_cases hsame : user' = user
    · subst hsame
      rw [Function.update_self] at huser'
      contradiction
    · rwa [Function.update_of_ne hsame] at huser'
  by_cases hcover : s.box ≠ none ∧ Covered s order
  · -- the slot is taken: the overwrite comes just before the one that has filled it
    obtain ⟨hfull, before, f, after, last, rfl, hf, hcovers⟩ := hcover
    obtain ⟨found, hfound⟩ := Option.ne_none_iff_exists'.mp hfull
    have hkept : s'.box = s.box := by rw [hbox, hfound]; rfl
    have hends : final = s.box := hfinal (fun hcleared => hfull hcleared.1)
    have hinsert := hl.insert (x := ⟨start, s.clock, .overwrite item⟩) h.dated.start_le
      (hcovers user start item hpending) (fun t t' hlast => ⟨some item, rfl, by rw [hf] at hlast ⊢; exact hlast⟩)
    rw [← hhistory] at hinsert
    refine ordered_of_box hdated hinsert (hkept.trans hends.symm) (fun _ => .inl ?_)
    refine ⟨before ++ [⟨start, s.clock, .overwrite item⟩], f, after, last, by simp, hf, ?_⟩
    intro user' start' item' huser'
    exact hcovers user' start' item' (hbefore huser')
  · -- the overwrite has put its item
    have hputs : s'.box = some item := by
      cases hfound : s.box with
      | none => rw [hbox, hfound]; rfl
      | some found =>
        have hfull : s.box ≠ none := by rw [hfound]; exact Option.some_ne_none found
        rcases he.puts user start item heq huser hpending with hnone | hsame | hreturned
        · exact absurd hnone hfull
        · rw [hbox, hsame]
          rfl
        · rcases hcovered hfull with hcovered | hnever
          · exact absurd ⟨hfull, hcovered⟩ hcover
          · exact absurd hreturned hnever
    have hconcat := hl.concat (x := ⟨start, s.clock, .overwrite item⟩) h.dated.start_le
      (apply_overwrite.mpr rfl)
    rw [← hhistory] at hconcat
    refine ordered_of_box hdated hconcat hputs (fun _ => .inl (covered_concat fun user' start' item' huser' => ?_))
    exact (h.dated.reset_lt user' start' item' (hbefore huser')).le

/-- INTERNAL: a peek returns. -/
theorem Ordered.peek {e : MailboxEvent n msgSize} (h : Ordered s) (he : Uncrossed s e) (hdated : Dated s')
    (hattempts : attempts s e = true) (hbox : s'.box = s.box) (hover : s'.overwriting = s.overwriting)
    (hhistory : s'.history = s.history ++ [⟨s.clock, s.clock, .peek s.box⟩]) : Ordered s' := by
  obtain ⟨order, final, hl, hfinal, hcovered⟩ := h.order
  have hends := final_eq_box he hattempts hl hfinal
  have hconcat := hl.concat (x := ⟨s.clock, s.clock, .peek s.box⟩) h.dated.start_le
    (apply_peek.mpr ⟨hends.symm, rfl⟩)
  rw [← hhistory] at hconcat
  refine ordered_of_box hdated hconcat (hbox.trans hends.symm) (fun hfull => ?_)
  rw [hbox] at hfull
  rcases hcovered hfull with hcovered | hnever
  · refine .inl (hcovered.concat hover fun user start item huser => ?_)
    exact (h.dated.reset_lt user start item huser).le
  · refine .inr (fun hreturned => hnever ?_)
    obtain ⟨x, hx, hoverwrite⟩ := hreturned
    rw [hhistory] at hx
    rcases List.mem_append.mp hx with hx | hx
    · exact ⟨x, hx, hoverwrite⟩
    · rw [List.mem_singleton.mp hx] at hoverwrite
      contradiction

/-- INTERNAL: a send puts its item. -/
theorem Ordered.send {e : MailboxEvent n msgSize} (h : Ordered s) (he : Uncrossed s e) (hdated : Dated s')
    (hattempts : attempts s e = true) {start : ℕ} {item : Message msgSize} (hempty : s.box = none)
    (hbox : s'.box = some item) (hhistory : s'.history = s.history ++ [⟨start, s.clock, .send item⟩]) :
    Ordered s' := by
  obtain ⟨order, final, hl, hfinal, -⟩ := h.order
  have hends := final_eq_box he hattempts hl hfinal
  have hconcat := hl.concat (x := ⟨start, s.clock, .send item⟩) h.dated.start_le
    (apply_send.mpr ⟨hends.trans hempty, rfl⟩)
  rw [← hhistory] at hconcat
  refine ordered_of_box hdated hconcat hbox (fun _ => .inr ?_)
  rintro ⟨x, hx, hoverwrite⟩
  rw [hhistory] at hx
  rcases List.mem_append.mp hx with hx | hx
  · exact he.looks hattempts hempty ⟨x, hx, stores_of_isOverwrite hoverwrite⟩
  · rw [List.mem_singleton.mp hx] at hoverwrite
    contradiction

end

/-- A step that meets the condition keeps the invariant. -/
theorem Ordered.step [SwitchStrategy (Fin n) σ] (cfg : Config) (h : Ordered s) {e : MailboxEvent n msgSize} (he : Uncrossed s e) :
    Ordered (s.step cfg e) := by
  have hdated := h.dated.step cfg e
  obtain ⟨hacts, -⟩ := step_acts cfg h.dated.wf e
  cases hacts with
  | idle _ _ hbox hover hhistory =>
    obtain ⟨order, final, hl, hfinal, hcovered⟩ := h.order
    refine ⟨hdated, order, final, hhistory ▸ hl, ?_, ?_⟩
    · unfold Cleared
      rw [hbox, hover]
      exact hfinal
    · unfold Covered Overwritten
      rw [hbox, hover, hhistory]
      exact hcovered
  | reset user item heq hbox hover hhistory =>
    subst heq
    obtain ⟨order, final, hl, -⟩ := h.order
    have huser : (s.step cfg (.reset user item)).overwriting user ≠ none := by
      rw [hover, Function.update_self]
      exact Option.some_ne_none _
    exact ordered_of_reset hdated (hhistory ▸ hl) hbox huser
  | tryPut user start item heq huser hpending hbox hover hhistory =>
    exact h.tryPut he hdated heq huser hpending hbox hhistory hover
  | peek hattempts hbox hover hhistory => exact h.peek he hdated hattempts hbox hover hhistory
  | send start item hattempts _ hempty hbox _ hhistory => exact h.send he hdated hattempts hempty hbox hhistory

/-! ## The condition is exact -/

/-- INTERNAL: a look into a queue that an overwrite has emptied has no place in the order. -/
theorem not_linearizable_of_look {s' : Mailbox n msgSize σ} {e : MailboxEvent n msgSize} (h : Dated s)
    (hacts : Acts s e s') (hattempts : attempts s e = true) (hempty : s.box = none) (hstored : Stored s)
    (final : Option (Message msgSize)) : ¬ Linearizable MailboxOp.apply none s'.history final := by
  intro hl
  have hadded {x y : Interval (MailboxOp msgSize)} (hhistory : s'.history = s.history ++ [y]) (hx : x ∈ s.history)
      (hstores : x.op.stores = true) (hlt : x.stop < y.start) (hstop : y.stop = s.clock)
      (hrefused : ∀ box, box ≠ none → y.op.apply box = none) : False := by
    have hx' : x ∈ s'.history := hhistory ▸ List.mem_append_left [y] hx
    have hy : y ∈ s'.history := hhistory ▸ List.mem_append_right s.history (List.mem_singleton_self y)
    have hne : y ≠ x := by
      rintro rfl
      have hpast := h.past y hx
      omega
    have hle := start_le_of_refused hl hx' hy hstores hne hrefused
    omega
  obtain ⟨x, hx, hstores⟩ := hstored
  cases hacts with
  | idle hfull _ _ _ _ => exact hfull hattempts hempty
  | reset user item he _ _ _ =>
    subst he
    contradiction
  | tryPut user start item he _ _ _ _ _ =>
    subst he
    contradiction
  | peek _ _ _ hhistory =>
    refine hadded hhistory hx hstores (h.past x hx).2 rfl (fun box hbox => ?_)
    rw [hempty]
    exact if_neg hbox.symm
  | send start item _ hstart _ _ _ hhistory =>
    have hrefused (box : Option (Message msgSize)) (hbox : box ≠ none) : (MailboxOp.send item).apply box = none :=
      if_neg hbox
    rcases hstart with rfl | ⟨i, hi, rfl⟩
    · exact hadded hhistory hx hstores (h.past x hx).2 rfl hrefused
    · obtain ⟨-, z, hz, hzstores, hlt⟩ := h.sends i hi
      exact hadded hhistory hz hzstores hlt rfl hrefused

/-- INTERNAL: the first overwrite to return has stored nothing, and no later one takes its place. -/
theorem not_atomic_of_put {s' : Mailbox n msgSize σ} {start : ℕ} {item : Message msgSize}
    (hfull : s.box ≠ none) (hother : s.box ≠ some item) (hnever : ¬ Overwritten s)
    (hbox : s'.box = some (s.box.getD item))
    (hhistory : s'.history = s.history ++ [⟨start, s.clock, .overwrite item⟩]) : ¬ MailboxAtomic s' := by
  intro hatomic
  obtain ⟨final, ⟨order, hl⟩, hfinal⟩ := hatomic.linearizable
  obtain ⟨found, hfound⟩ := Option.ne_none_iff_exists'.mp hfull
  have hkept : s'.box = s.box := by rw [hbox, hfound]; rfl
  have hends : final = s.box := by
    rw [← hkept]
    apply hfinal
    rintro ⟨hnone, -⟩
    exact hfull (hkept ▸ hnone)
  have hx : (⟨start, s.clock, .overwrite item⟩ : Interval (MailboxOp msgSize)) ∈ s'.history :=
    hhistory ▸ List.mem_append_right _ (List.mem_singleton_self _)
  apply hother
  rw [← hends]
  -- no other call of the history replaces the item of the overwrite
  refine hl.established (P := fun box => box = some item) hx (fun y hy box box' hitem happly => ?_)
    (fun box box' happly => apply_overwrite.mp happly)
  cases hop : y.op with
  | overwrite item' =>
    rw [hhistory] at hy
    rcases List.mem_append.mp hy with hy | hy
    · exact absurd ⟨y, hy, by rw [hop]; rfl⟩ hnever
    · rw [List.mem_singleton.mp hy] at happly
      exact apply_overwrite.mp happly
  | send item' =>
    rw [hop, apply_send, hitem] at happly
    exact absurd happly.1 (Option.some_ne_none item)
  | peek found' =>
    rw [hop, apply_peek] at happly
    rw [happly.2]
    exact hitem

/-- A step that does not meet the condition breaks the order. -/
theorem Ordered.not_atomic [SwitchStrategy (Fin n) σ] (cfg : Config) (h : Ordered s) {e : MailboxEvent n msgSize}
    (he : ¬ Uncrossed s e) :
    ¬ MailboxAtomic (s.step cfg e) := by
  obtain ⟨hacts, -⟩ := step_acts cfg h.dated.wf e
  intro hatomic
  apply he
  constructor
  · intro hattempts hempty hstored
    obtain ⟨final, hl, -⟩ := hatomic.linearizable
    exact not_linearizable_of_look h.dated hacts hattempts hempty hstored final hl
  · intro user start item heq huser hpending
    by_contra hneither
    push Not at hneither
    obtain ⟨hfull, hother, hnever⟩ := hneither
    subst heq
    cases hacts with
    | idle _ hputs _ _ _ =>
      rw [hputs user rfl huser] at hpending
      contradiction
    | reset _ _ heq _ _ _ => contradiction
    | tryPut user' start' item' heq _ hpending' hbox _ hhistory =>
      obtain rfl : user = user' := MailboxEvent.tryPut.inj heq
      rw [hpending] at hpending'
      obtain ⟨rfl, rfl⟩ := Prod.mk.inj (Option.some.inj hpending')
      exact not_atomic_of_put hfull hother hnever hbox hhistory hatomic
    | peek hattempts _ _ _ => contradiction
    | send _ _ hattempts _ _ _ _ _ => contradiction

theorem Ordered.initial [SwitchStrategy (Fin n) σ] (buffer : ℕ → UInt8) :
    Ordered (Mailbox.initial buffer : Mailbox n msgSize σ) where
  dated :=
    { wf := ⟨Nat.zero_le _, Nat.one_pos, rfl⟩
      stored := fun hbox => absurd rfl hbox
      past := fun _ hx => nomatch hx
      reset_lt := fun _ _ _ h => nomatch h
      sends := fun _ h => absurd rfl h }
  order := ⟨[], none, .nil, fun _ => rfl, fun hbox => absurd rfl hbox⟩

/-- **Overwrites in any order.**  Every state of a run is that of an atomic mailbox if and only if no step of the run
crosses an overwrite: no peek and no send finds the queue emptied of a stored item, and no `TryPut` finds another item
in its place before the first overwrite has returned. -/
theorem queueOverwrite [SwitchStrategy (Fin n) σ] (cfg : Config) (buffer : ℕ → UInt8) (es : List (MailboxEvent n msgSize)) :
    (∀ ds, ds <+: es → MailboxAtomic (Mailbox.run cfg buffer ds : Mailbox n msgSize σ)) ↔
      Runs.Along (Mailbox.step cfg) Uncrossed (Mailbox.initial buffer : Mailbox n msgSize σ) es := by
  have hordered (ds : List (MailboxEvent n msgSize))
      (h : Runs.Along (Mailbox.step cfg) Uncrossed (Mailbox.initial buffer : Mailbox n msgSize σ) ds) :
      Ordered (Mailbox.run cfg buffer ds : Mailbox n msgSize σ) :=
    h.invariant (I := Ordered) (fun s e hs he => hs.step cfg he) (.initial buffer)
  constructor
  · intro h
    induction es using List.reverseRecOn with
    | nil => trivial
    | append_singleton es e ih =>
      have hes := ih (fun ds hds => h ds (hds.trans (List.prefix_append es [e])))
      rw [Runs.along_append]
      refine ⟨hes, ?_, trivial⟩
      by_contra he
      apply (hordered es hes).not_atomic cfg he
      have hall := h (es ++ [e]) (List.prefix_refl _)
      unfold Mailbox.run at hall
      rwa [List.foldl_append] at hall
  · rintro h ds ⟨rest, rfl⟩
    rw [Runs.along_append] at h
    exact (hordered ds h.1).atomic

/-- Task 0 overwrites twice; a handler peeks while the second overwrite is between its `Reset` and its `TryPut`. -/
def peekedOverwrite : List (MailboxEvent 2 1) :=
  [.kernel (.addTask 0), .kernel (.addTask 1), .kernel .onStart, .reset (.task 0) (fun _ => 1), .tryPut (.task 0),
    .reset (.task 0) (fun _ => 2), .peek (.handler 0), .tryPut (.task 0)]

/-- Task 1 waits to send to the full queue; the `Reset` of an overwrite wakes it, and it puts its item before the
`TryPut`. -/
def lostOverwrite : List (MailboxEvent 2 1) :=
  [.kernel (.addTask 0), .kernel (.addTask 1), .kernel .onStart, .reset (.task 0) (fun _ => 1), .tryPut (.task 0),
    .send 1 (fun _ => 9) 10, .kernel (.onTick 1), .reset (.task 0) (fun _ => 2), .kernel (.onTick 1), .resume 1,
    .tryPut (.task 0)]

/-- The peek fails although an overwrite has returned; the second overwrite has returned, and the queue holds the item
of the send, for which there was no space at any time from its call to the `Reset`. -/
theorem crossedOverwrites :
    ¬ MailboxAtomic (Mailbox.run syncConfig (fun _ => 0) peekedOverwrite : Mailbox 2 1 (RoundRobin (Fin 2))) ∧
    (Mailbox.run syncConfig (fun _ => 0) lostOverwrite : Mailbox 2 1 (RoundRobin (Fin 2))).history =
      [⟨3, 4, .overwrite (fun _ => 1)⟩, ⟨5, 9, .send (fun _ => 9)⟩, ⟨7, 10, .overwrite (fun _ => 2)⟩] ∧
    (Mailbox.run syncConfig (fun _ => 0) lostOverwrite : Mailbox 2 1 (RoundRobin (Fin 2))).box = some (fun _ => 9) ∧
    ¬ MailboxAtomic (Mailbox.run syncConfig (fun _ => 0) lostOverwrite : Mailbox 2 1 (RoundRobin (Fin 2))) := by
  have hpeeked : (Mailbox.run syncConfig (fun _ => 0) peekedOverwrite : Mailbox 2 1 (RoundRobin (Fin 2))).history =
      [⟨3, 4, .overwrite (fun _ => 1)⟩, ⟨6, 6, .peek none⟩, ⟨5, 7, .overwrite (fun _ => 2)⟩] := by
    decide +kernel
  have hlost : (Mailbox.run syncConfig (fun _ => 0) lostOverwrite : Mailbox 2 1 (RoundRobin (Fin 2))).history =
      [⟨3, 4, .overwrite (fun _ => 1)⟩, ⟨5, 9, .send (fun _ => 9)⟩, ⟨7, 10, .overwrite (fun _ => 2)⟩] := by
    decide +kernel
  refine ⟨fun hatomic => ?_, hlost, by decide +kernel, fun hatomic => ?_⟩
  · have hle := hatomic.nonempty ⟨3, 4, .overwrite (fun _ => 1)⟩ (by rw [hpeeked]; decide)
      ⟨6, 6, .peek none⟩ (by rw [hpeeked]; decide) rfl rfl
    exact absurd hle (by decide)
  · obtain ⟨final, hl, -⟩ := hatomic.linearizable
    have hle := start_le_of_refused hl (x := ⟨3, 4, .overwrite (fun _ => 1)⟩) (y := ⟨5, 9, .send (fun _ => 9)⟩)
      (by rw [hlost]; decide) (by rw [hlost]; decide) rfl (by decide) (fun box hbox => if_neg hbox)
    exact absurd hle (by decide)

end Stk.Analysis
