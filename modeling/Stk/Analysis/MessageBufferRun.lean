import Mathlib.Tactic.DeriveFintype
import Stk.Analysis.MessageBuffer
import Stk.Foundation.Runs

/-!
# Runs of a message buffer

The blocks that are out stay with the envelope queue and the calls exactly in the runs in which each reset finds
the queue as its last `TryGet` has left it; a `Put` of a call that has a block never fails there.  If also no
envelope is taken while one is to be put back, and a task puts one back into an empty queue only, the messages
leave in the order in which they were put, and each receive returns the message that it took.
-/

set_option autoImplicit false

namespace Stk.Analysis

open Stk.Model

variable {p : ℕ} {ι : Type} {m : FrtosMessageBuffer p} {s : BufferSystem p ι} {i : ι}

/-! ## The conditions -/

/-- A reset calls `m_eq.Reset()` on a queue that is still empty. -/
def ResetsEmpty (s : BufferSystem p ι) : BufferEvent ι → Prop
  | .proceed i => s.calls i = some .resetting → s.buffer.eq = []
  | _ => True

instance (s : BufferSystem p ι) (e : BufferEvent ι) : Decidable (ResetsEmpty s e) :=
  match e with
  | .proceed _ => inferInstanceAs (Decidable (_ → _))
  | .send _ _ | .receive _ _ _ | .reset _ => .isTrue trivial

/-- The envelope that a call is about to put back. -/
def rejectionOf : BufferCall → Option MsgEnvelope
  | .rejected _ env => some env
  | _ => none

def rejectedBy (s : BufferSystem p ι) (i : ι) : Option MsgEnvelope := (s.calls i).bind rejectionOf

/-- Nobody takes an envelope while another is to be put back. -/
def TakesAlone (s : BufferSystem p ι) : Prop := s.buffer.eq ≠ [] → ∀ j, rejectedBy s j = none

instance [Fintype ι] (s : BufferSystem p ι) : Decidable (TakesAlone s) := inferInstanceAs (Decidable (_ → _))

/-- What keeps the sequence of the messages. -/
def Sequential (s : BufferSystem p ι) : BufferEvent ι → Prop
  | .receive i _ bufferLength => s.calls i = none → bufferLength ≠ 0 → TakesAlone s
  | .proceed i =>
    match s.calls i with
    | some .draining => TakesAlone s
    | some (.rejected false _) | some .resetting => s.buffer.eq = []
    | _ => True
  | _ => True

instance [Fintype ι] (s : BufferSystem p ι) (e : BufferEvent ι) : Decidable (Sequential s e) := by
  unfold Sequential
  split
  · infer_instance
  · split <;> infer_instance
  · infer_instance

theorem Sequential.resetsEmpty {e : BufferEvent ι} (h : Sequential s e) : ResetsEmpty s e := by
  cases e with
  | proceed i =>
    intro hi
    unfold Sequential at h
    dsimp only at h
    rw [hi] at h
    exact h
  | _ => trivial

/-! ## Conservation -/

/-- The `Put` of a call that has a block finds room. -/
def PutsFit (s : BufferSystem p ι) : Prop :=
  ∀ i data blk, s.calls i = some (.filled data blk) → s.buffer.eq.length < s.buffer.capacity

theorem BufferOk.putsFit (h : BufferOk s) : PutsFit s := fun _ _ _ hi => h.room (BufferOk.held_of_calls hi)

variable [DecidableEq ι]

/-- INTERNAL: a step in which the caller stays the custodian of what it has. -/
theorem BufferOk.stay {m' : FrtosMessageBuffer p} {b : Option ℕ} {x : Option BufferCall} (h : BufferOk s)
    (ht : Touches b s.buffer m') (hb : b = none ∨ held s i = b)
    (hout : m'.pool.outstanding = s.buffer.pool.outstanding) (heq : m'.eq = s.buffer.eq)
    (hx : x.bind blockOf = held s i) (hcall : ∀ call ∈ x, CallOk m' call) : BufferOk (s.goto i m' x) := by
  refine h.goto ht hb ?_ ?_ hcall
  · rw [hx, Function.update_eq_self, hout, heq]
    exact h.custody
  · rw [heq]
    exact h.queued

/-- INTERNAL: a call frees its block. -/
theorem BufferOk.free (h : BufferOk s) {blk : ℕ} {x : Option BufferCall} (hi : held s i = some blk)
    (hx : x.bind blockOf = none) (hcall : ∀ m', ∀ call ∈ x, CallOk (p := p) m' call) :
    BufferOk (s.goto i (s.buffer.free blk) x) := by
  obtain ⟨ht, heq, hout⟩ := free_spec h.pool (h.mem_of_held hi)
  refine h.goto ht (.inr hi) ?_ ?_ (hcall _)
  · rw [heq, hout, hx]
    exact h.custody.drop hi
  · rw [heq]
    exact h.queued

/-- INTERNAL: an idle or draining call takes the first envelope. -/
theorem BufferOk.take (h : BufferOk s) {env : MsgEnvelope} {rest : List MsgEnvelope} {call : BufferCall}
    (heq : s.buffer.eq = env :: rest) (hi : held s i = none) (hblock : blockOf call = some env.blk)
    (hcall : CallOk { s.buffer with eq := rest } call) :
    BufferOk (s.goto i { s.buffer with eq := rest } (some call)) := by
  refine h.goto (.queue h.pool rest) (.inl rfl) ?_ ?_ ?_
  · have hcustody := h.custody
    rw [heq, List.map_cons] at hcustody
    have hget := hcustody.get hi
    rw [Option.bind_some, hblock]
    exact hget
  · intro env' henv'
    exact h.queued env' (heq ▸ List.mem_cons_of_mem env henv')
  · intro call' hcall'
    cases hcall'
    exact hcall

/-- INTERNAL: a call puts its envelope into the queue. -/
theorem BufferOk.put (h : BufferOk s) (env : MsgEnvelope) {l : List MsgEnvelope} (hi : held s i = some env.blk)
    (hl : l.Perm (env :: s.buffer.eq)) (hlen : env.len ≤ s.buffer.pool.pool.blockSize) :
    BufferOk (s.goto i { s.buffer with eq := l } none) := by
  refine h.goto (.queue h.pool l) (.inl rfl) ((h.custody.put hi).perm (hl.map MsgEnvelope.blk)) ?_ nofun
  intro env' henv'
  obtain rfl | henv' := List.mem_cons.mp (hl.mem_iff.mp henv')
  · exact hlen
  · exact h.queued env' henv'

omit [DecidableEq ι] in
/-- INTERNAL: a put of a call that has the envelope does not fail. -/
theorem BufferOk.tryPut (h : BufferOk s) (env : MsgEnvelope) (hi : held s i = some env.blk) :
    s.buffer.tryPut env = ({ s.buffer with eq := s.buffer.eq ++ [env] }, true) ∧
      s.buffer.tryPutFront env = ({ s.buffer with eq := env :: s.buffer.eq }, true) :=
  ⟨if_pos (h.room hi), if_pos (h.room hi)⟩

/-- **A step keeps every block in one custody.** -/
theorem BufferOk.proceed (h : BufferOk s) {call : BufferCall} (hi : s.calls i = some call)
    (he : ResetsEmpty s (.proceed i)) : BufferOk (s.proceed i call) := by
  have hheld : held s i = blockOf call := BufferOk.held_of_calls hi
  have hcallOk := h.calls i call hi
  cases call with
  | allocated data blk =>
    obtain ⟨ht, hpayload⟩ := copyIn_spec h.pool (h.mem_of_held hheld) hcallOk
    refine h.stay ht (.inr hheld) rfl rfl hheld.symm ?_
    intro call' hcall'
    cases hcall'
    refine ⟨?_, hpayload⟩
    rw [ht.blockSize]
    exact hcallOk
  | filled data blk =>
    have hput := (h.tryPut ⟨data.length, blk⟩ hheld).1
    unfold BufferSystem.proceed
    dsimp only
    rw [hput]
    exact h.put ⟨data.length, blk⟩ hheld (List.perm_append_singleton _ _) hcallOk.1
  | unsent blk => exact h.free hheld rfl nofun
  | accepted env =>
    refine h.stay (.queue h.pool s.buffer.eq) (.inl rfl) rfl rfl hheld.symm ?_
    intro call' hcall'
    cases hcall'
    trivial
  | copied data blk => exact h.free hheld rfl nofun
  | rejected fromIsr env =>
    obtain ⟨hput, hputFront⟩ := h.tryPut _ hheld
    unfold BufferSystem.proceed
    dsimp only
    rw [hput, hputFront]
    cases fromIsr with
    | false => exact h.put _ hheld (List.perm_append_singleton _ _) hcallOk
    | true => exact h.put _ hheld (List.Perm.refl _) hcallOk
  | draining =>
    unfold BufferSystem.proceed
    dsimp only
    split
    · refine h.stay (.queue h.pool s.buffer.eq) (.inl rfl) rfl rfl hheld.symm ?_
      intro call' hcall'
      cases hcall'
      trivial
    · next env rest heq =>
      have hne : env.blk ≠ 0 :=
        h.pool.placed.pos (h.pool.mem_of_outstanding (h.mem_of_queued (heq ▸ List.mem_cons_self)))
      rw [if_pos hne]
      exact h.take heq hheld rfl trivial
  | drained blk =>
    refine h.free hheld rfl fun m' call' hcall' => ?_
    cases hcall'
    trivial
  | resetting =>
    exact h.stay (.queue h.pool []) (.inl rfl) rfl (he hi).symm hheld.symm nofun

theorem BufferOk.step (h : BufferOk s) {e : BufferEvent ι} (he : ResetsEmpty s e) : BufferOk (s.step e) := by
  have hidle : ∀ {j : ι}, s.calls j = none → held s j = none := by
    intro j hj
    unfold held
    rw [hj]
    rfl
  unfold BufferSystem.step
  cases e with
  | send i data =>
    dsimp only
    split
    · next hfree =>
      unfold BufferSystem.send
      split
      · exact h
      · next hsize =>
        obtain ⟨-, hle⟩ := not_or.mp hsize
        have hmax := h.maxMsgSize
        dsimp only
        obtain ⟨hzero, hsame⟩ | ⟨hne, hnot, ht, heq, hout⟩ := alloc_spec h.pool
        · rw [if_pos hzero, hsame]
          exact h.stay (.queue h.pool s.buffer.eq) (.inl rfl) rfl rfl (hidle hfree).symm nofun
        · rw [if_neg hne]
          refine h.goto ht (.inl rfl) ?_ ?_ ?_
          · rw [hout, heq]
            exact h.custody.take (hidle hfree) hnot
          · rw [heq]
            exact h.queued
          · intro call hcall
            cases hcall
            unfold CallOk
            dsimp only
            rw [ht.blockSize]
            omega
    · exact h
  | receive i fromIsr bufferLength =>
    dsimp only
    split
    · next hfree =>
      unfold BufferSystem.receive
      split
      · exact h
      · split
        · exact h
        · next env rest heq =>
          have hlen := h.queued env (heq ▸ List.mem_cons_self)
          split
          · exact h.take heq (hidle hfree) rfl hlen
          · exact h.take heq (hidle hfree) rfl hlen
    · exact h
  | reset i =>
    dsimp only
    split
    · next hfree =>
      refine h.stay (.queue h.pool s.buffer.eq) (.inl rfl) rfl rfl (hidle hfree).symm ?_
      intro call hcall
      cases hcall
      trivial
    · exact h
  | proceed i =>
    dsimp only
    split
    · next call hi => exact h.proceed hi he
    · exact h

/-! ## The sequence of the messages -/

omit [DecidableEq ι] in
/-- The message that a step puts. -/
def putIn (s : BufferSystem p ι) : BufferEvent ι → Option (List UInt8)
  | .proceed i =>
    match s.calls i with
    | some (.filled data blk) => if (s.buffer.tryPut ⟨data.length, blk⟩).2 then some data else none
    | _ => none
  | _ => none

/-- The message that leaves in a step: a receive takes it, or a reset. -/
def leftIn (s : BufferSystem p ι) : BufferEvent ι → Option (List UInt8)
  | .receive i _ bufferLength =>
    if s.calls i = none ∧ bufferLength ≠ 0 then
      (s.buffer.eq.head?.filter fun env => decide (env.len ≤ bufferLength)).map s.buffer.payload
    else none
  | .proceed i => if s.calls i = some .draining then s.buffer.eq.head?.map s.buffer.payload else none
  | _ => none

/-- The message that a receive of `i` takes in a step. -/
def takenBy (i : ι) (s : BufferSystem p ι) : BufferEvent ι → Option (List UInt8)
  | .receive j fromIsr bufferLength => if j = i then leftIn s (.receive j fromIsr bufferLength) else none
  | _ => none

/-- The message that a receive of `i` returns in a step. -/
def returnedBy (i : ι) (s : BufferSystem p ι) : BufferEvent ι → Option (List UInt8)
  | .proceed j =>
    if j = i then
      match s.calls j with
      | some (.copied data _) => some data
      | _ => none
    else none
  | _ => none

omit [DecidableEq ι] in
/-- The message of a receive of `i` that has yet to return. -/
def inDelivery (s : BufferSystem p ι) (i : ι) : List (List UInt8) :=
  match s.calls i with
  | some (.accepted env) => [s.buffer.payload env]
  | some (.copied data _) => [data]
  | _ => []

/-- The messages in the buffer, with the one that is to be put back. -/
def stored (m : FrtosMessageBuffer p) (o : Option (ι × MsgEnvelope)) : List (List UInt8) :=
  ((o.map Prod.snd).toList ++ m.eq).map m.payload

/-- `o` is the one envelope that is to be put back, with its caller. -/
def RejectedIs (s : BufferSystem p ι) (o : Option (ι × MsgEnvelope)) : Prop :=
  ∀ j env, rejectedBy s j = some env ↔ o = some (j, env)

/-- INTERNAL: the messages in the buffer are those of `l`. -/
def Stores (s : BufferSystem p ι) (l : List (List UInt8)) : Prop := ∃ o, RejectedIs s o ∧ l = stored s.buffer o

omit [DecidableEq ι] in
theorem RejectedIs.of_none {o : Option (ι × MsgEnvelope)} (ho : RejectedIs s o) (h : ∀ j, rejectedBy s j = none) :
    o = none := by
  cases o with
  | none => rfl
  | some q =>
    have hq := (ho q.1 q.2).mpr rfl
    rw [h q.1] at hq
    cases hq

theorem rejectedBy_goto (m' : FrtosMessageBuffer p) (x : Option BufferCall) :
    rejectedBy (s.goto i m' x) = Function.update (rejectedBy s) i (x.bind rejectionOf) := by
  funext j
  unfold rejectedBy BufferSystem.goto
  by_cases hj : j = i
  · subst hj
    simp
  · simp [hj]

/-- INTERNAL: a caller that has nothing to put back has nothing to put back after its step. -/
theorem RejectedIs.goto {o : Option (ι × MsgEnvelope)} (ho : RejectedIs s o) (hi : rejectedBy s i = none)
    (m' : FrtosMessageBuffer p) {x : Option BufferCall} (hx : x.bind rejectionOf = none) :
    RejectedIs (s.goto i m' x) o := by
  intro j env
  rw [rejectedBy_goto, hx, ← hi, Function.update_eq_self]
  exact ho j env

/-- INTERNAL: a step of a caller at its own block keeps the messages. -/
theorem Stores.stay {l : List (List UInt8)} {m' : FrtosMessageBuffer p} {b : Option ℕ} {x : Option BufferCall}
    (hl : Stores s l) (h : BufferOk s) (ht : Touches b s.buffer m') (hb : b = none ∨ held s i = b)
    (heq : m'.eq = s.buffer.eq) (hi : rejectedBy s i = none) (hx : x.bind rejectionOf = none) :
    Stores (s.goto i m' x) l := by
  obtain ⟨o, ho, rfl⟩ := hl
  refine ⟨o, ho.goto hi m' hx, ?_⟩
  unfold stored
  change _ = List.map m'.payload (_ ++ m'.eq)
  rw [heq]
  apply List.map_congr_left
  intro env henv
  symm
  obtain henv | henv := List.mem_append.mp henv
  · -- the envelope that another caller is to put back
    obtain ⟨q, hq, rfl⟩ := Option.map_eq_some_iff.mp (Option.mem_toList.mp henv)
    have hrejected : rejectedBy s q.1 = some q.2 := (ho q.1 q.2).mpr hq
    obtain ⟨call, hcall, hcalls⟩ := Option.bind_eq_some_iff.mp hrejected
    have hheld : held s q.1 = some q.2.blk := by
      rw [BufferOk.held_of_calls hcall]
      cases call <;> cases hcalls
      rfl
    have hlen : q.2.len ≤ s.buffer.pool.pool.blockSize := by
      have hok := h.calls q.1 call hcall
      cases call <;> cases hcalls
      exact hok
    refine ht.payload _ (h.mem_of_held hheld) ?_ hlen
    obtain rfl | hb := hb
    · exact nofun
    · intro hbq
      rw [h.custody.heldOnce q.1 i q.2.blk hheld (hb.trans hbq), hi] at hrejected
      cases hrejected
  · refine ht.payload _ (h.mem_of_queued henv) ?_ (h.queued env henv)
    obtain rfl | hb := hb
    · exact nofun
    · intro hbq
      exact h.custody.apart i env.blk (hb.trans hbq) (List.mem_map_of_mem henv)

/-- INTERNAL: an envelope joins the queue. -/
theorem Stores.put {l : List (List UInt8)} (hl : Stores s l) (env : MsgEnvelope) (hi : rejectedBy s i = none) :
    Stores (s.goto i { s.buffer with eq := s.buffer.eq ++ [env] } none) (l ++ [s.buffer.payload env]) := by
  obtain ⟨o, ho, rfl⟩ := hl
  refine ⟨o, ho.goto hi _ rfl, ?_⟩
  unfold stored
  change _ = List.map s.buffer.payload (_ ++ (s.buffer.eq ++ [env]))
  rw [← List.append_assoc]
  change _ ++ List.map s.buffer.payload [env] = _
  exact List.map_append.symm

/-- INTERNAL: the first envelope is taken for good. -/
theorem Stores.take {l : List (List UInt8)} {env : MsgEnvelope} {rest : List MsgEnvelope} {x : Option BufferCall}
    (hl : Stores s l) (heq : s.buffer.eq = env :: rest) (halone : ∀ j, rejectedBy s j = none)
    (hx : x.bind rejectionOf = none) :
    ∃ l', Stores (s.goto i { s.buffer with eq := rest } x) l' ∧ l = s.buffer.payload env :: l' := by
  obtain ⟨o, ho, rfl⟩ := hl
  obtain rfl := ho.of_none halone
  refine ⟨_, ⟨none, ho.goto (halone i) _ hx, rfl⟩, ?_⟩
  unfold stored
  rw [heq]
  rfl

/-- INTERNAL: the first envelope is taken to be put back. -/
theorem Stores.reject {l : List (List UInt8)} {env : MsgEnvelope} {rest : List MsgEnvelope} {fromIsr : Bool}
    (hl : Stores s l) (heq : s.buffer.eq = env :: rest) (halone : ∀ j, rejectedBy s j = none) :
    Stores (s.goto i { s.buffer with eq := rest } (some (.rejected fromIsr env))) l := by
  obtain ⟨o, ho, rfl⟩ := hl
  obtain rfl := ho.of_none halone
  refine ⟨some (i, env), ?_, ?_⟩
  · intro j env'
    rw [rejectedBy_goto]
    by_cases hj : j = i
    · subst hj
      simp [rejectionOf]
    · simp [hj, halone, Ne.symm hj]
  · unfold stored
    rw [heq]
    rfl

/-- INTERNAL: the envelope is put back, to the front. -/
theorem Stores.putBack {l : List (List UInt8)} {env : MsgEnvelope} (hl : Stores s l)
    (hi : rejectedBy s i = some env) : Stores (s.goto i { s.buffer with eq := env :: s.buffer.eq } none) l := by
  obtain ⟨o, ho, rfl⟩ := hl
  have hone := (ho i env).mp hi
  subst hone
  refine ⟨none, ?_, rfl⟩
  intro j env'
  rw [rejectedBy_goto]
  by_cases hj : j = i
  · subst hj
    simp
  · have hother := ho j env'
    simp only [Option.some.injEq, Prod.mk.injEq, Ne.symm hj, false_and, iff_false] at hother
    simp [hj, hother]

/-- **What a step does to the sequence**, in a call: it lets in what it puts, and lets out what leaves. -/
theorem Stores.proceed {l : List (List UInt8)} {call : BufferCall} (hl : Stores s l) (h : BufferOk s)
    (hi : s.calls i = some call) (he : Sequential s (.proceed i)) :
    ∃ l', Stores (s.proceed i call) l' ∧ l ++ (putIn s (.proceed i)).toList = (leftIn s (.proceed i)).toList ++ l' := by
  have hheld : held s i = blockOf call := BufferOk.held_of_calls hi
  have hrejected : rejectedBy s i = rejectionOf call := by
    unfold rejectedBy
    rw [hi]
    rfl
  unfold Sequential at he
  simp only [hi] at he
  unfold putIn leftIn
  simp only [hi]
  cases call with
  | allocated data blk =>
    have hlen := h.calls i _ hi
    obtain ⟨ht, -⟩ := copyIn_spec h.pool (h.mem_of_held hheld) hlen
    exact ⟨l, hl.stay h ht (.inr hheld) rfl hrejected rfl, List.append_nil l⟩
  | filled data blk =>
    obtain ⟨-, hpayload⟩ := h.calls i _ hi
    have hput := (h.tryPut ⟨data.length, blk⟩ hheld).1
    unfold BufferSystem.proceed
    dsimp only
    rw [hput]
    have hnext := hl.put ⟨data.length, blk⟩ hrejected
    rw [hpayload] at hnext
    exact ⟨_, hnext, rfl⟩
  | unsent blk =>
    obtain ⟨ht, heq, -⟩ := free_spec h.pool (h.mem_of_held hheld)
    exact ⟨l, hl.stay h ht (.inr hheld) heq hrejected rfl, List.append_nil l⟩
  | accepted env =>
    exact ⟨l, hl.stay h (.queue h.pool s.buffer.eq) (.inl rfl) rfl hrejected rfl, List.append_nil l⟩
  | copied data blk =>
    obtain ⟨ht, heq, -⟩ := free_spec h.pool (h.mem_of_held hheld)
    exact ⟨l, hl.stay h ht (.inr hheld) heq hrejected rfl, List.append_nil l⟩
  | rejected fromIsr env =>
    refine ⟨l, ?_, List.append_nil l⟩
    obtain ⟨hput, hputFront⟩ := h.tryPut _ hheld
    have hback := hl.putBack hrejected
    unfold BufferSystem.proceed
    dsimp only
    rw [hput, hputFront]
    cases fromIsr with
    | false =>
      -- the queue is empty: its back is its front
      dsimp only at he
      rw [he] at hback ⊢
      exact hback
    | true => exact hback
  | draining =>
    dsimp only at he
    unfold BufferSystem.proceed
    dsimp only
    split
    · next heq =>
      refine ⟨l, hl.stay h (.queue h.pool s.buffer.eq) (.inl rfl) rfl hrejected rfl, ?_⟩
      rw [heq]
      exact List.append_nil l
    · next env rest heq =>
      have halone : ∀ j, rejectedBy s j = none := he (by rw [heq]; exact List.cons_ne_nil env rest)
      obtain ⟨l', hnext, hfront⟩ := hl.take (i := i)
        (x := some (if env.blk ≠ 0 then .drained env.blk else .draining)) heq halone (by split <;> rfl)
      refine ⟨l', hnext, ?_⟩
      rw [heq, hfront]
      exact List.append_nil _
  | drained blk =>
    obtain ⟨ht, heq, -⟩ := free_spec h.pool (h.mem_of_held hheld)
    exact ⟨l, hl.stay h ht (.inr hheld) heq hrejected rfl, List.append_nil l⟩
  | resetting =>
    dsimp only at he
    exact ⟨l, hl.stay h (.queue h.pool []) (.inl rfl) he.symm hrejected rfl, List.append_nil l⟩

/-- **What a step does to the sequence.** -/
theorem Stores.step {l : List (List UInt8)} {e : BufferEvent ι} (hl : Stores s l) (h : BufferOk s)
    (he : Sequential s e) :
    ∃ l', Stores (s.step e) l' ∧ l ++ (putIn s e).toList = (leftIn s e).toList ++ l' := by
  have hidle : ∀ {j : ι}, s.calls j = none → rejectedBy s j = none := by
    intro j hj
    unfold rejectedBy
    rw [hj]
    rfl
  unfold BufferSystem.step
  cases e with
  | send i data =>
    refine ⟨l, ?_, List.append_nil l⟩
    dsimp only
    split
    · next hfree =>
      unfold BufferSystem.send
      split
      · exact hl
      · dsimp only
        obtain ⟨hzero, hsame⟩ | ⟨hne, -, ht, heq, -⟩ := alloc_spec h.pool
        · rw [if_pos hzero, hsame]
          exact hl.stay h (.queue h.pool s.buffer.eq) (.inl rfl) rfl (hidle hfree) rfl
        · rw [if_neg hne]
          exact hl.stay h ht (.inl rfl) heq (hidle hfree) rfl
    · exact hl
  | receive i fromIsr bufferLength =>
    dsimp only [putIn, leftIn]
    by_cases hcall : s.calls i = none ∧ bufferLength ≠ 0
    · rw [if_pos hcall.1, if_pos hcall]
      unfold BufferSystem.receive
      rw [if_neg hcall.2]
      cases heq : s.buffer.eq with
      | nil => exact ⟨l, hl, List.append_nil l⟩
      | cons env rest =>
        have halone := he hcall.1 hcall.2 (by rw [heq]; exact List.cons_ne_nil env rest)
        dsimp only
        by_cases hfits : bufferLength < env.len
        · rw [if_pos hfits]
          refine ⟨l, hl.reject heq halone, ?_⟩
          simp [hfits]
        · have hle := Nat.not_lt.mp hfits
          rw [if_neg hfits]
          obtain ⟨l', hnext, hfront⟩ := hl.take (i := i) (x := some (.accepted env)) heq halone rfl
          refine ⟨l', hnext, ?_⟩
          simp [Option.filter, hle, hfront]
    · rw [if_neg hcall]
      refine ⟨l, ?_, List.append_nil l⟩
      split
      · next hfree =>
        have hzero : bufferLength = 0 := by
          by_contra hne
          exact hcall ⟨hfree, hne⟩
        unfold BufferSystem.receive
        rw [if_pos hzero]
        exact hl
      · exact hl
  | reset i =>
    refine ⟨l, ?_, List.append_nil l⟩
    dsimp only
    split
    · next hfree => exact hl.stay h (.queue h.pool s.buffer.eq) (.inl rfl) rfl (hidle hfree) rfl
    · exact hl
  | proceed i =>
    dsimp only
    split
    · next call hi => exact hl.proceed h hi he
    · next hi =>
      refine ⟨l, hl, ?_⟩
      simp [putIn, leftIn, hi]

/-! ## What a receive returns -/

omit [DecidableEq ι] in
/-- INTERNAL: what is under way is kept by the others. -/
theorem inDelivery_touches (h : BufferOk s) {j : ι} (hji : j ≠ i) {m' : FrtosMessageBuffer p} {b : Option ℕ}
    (ht : Touches b s.buffer m') (hb : b = none ∨ held s i = b) {calls : ι → Option BufferCall}
    (hcalls : calls j = s.calls j) : inDelivery ⟨m', calls⟩ j = inDelivery s j := by
  unfold inDelivery
  dsimp only
  rw [hcalls]
  split
  · next env hj =>
    have hheld : held s j = some env.blk := BufferOk.held_of_calls hj
    have hpayload := ht.payload env (h.mem_of_held hheld) ?_ (h.calls j _ hj)
    · rw [hpayload]
    · obtain rfl | hb := hb
      · exact nofun
      · exact fun hbj => hji (h.custody.heldOnce j i env.blk hheld (hb.trans hbj))
  · rfl
  · rfl

/-- A step is one of its caller, at a block of its caller. -/
def callerOf : BufferEvent ι → ι
  | .send i _ | .receive i _ _ | .reset i | .proceed i => i

/-- INTERNAL: what a step touches. -/
theorem step_touches (h : BufferOk s) (e : BufferEvent ι) :
    ∃ b, Touches b s.buffer (s.step e).buffer ∧ (b = none ∨ held s (callerOf e) = b) ∧
      ∀ j, j ≠ callerOf e → (s.step e).calls j = s.calls j := by
  have hsame : ∀ {m' : FrtosMessageBuffer p} {x : Option BufferCall} {i j : ι}, j ≠ i →
      (s.goto i m' x).calls j = s.calls j := fun hj => Function.update_of_ne hj _ _
  have hstay : Touches none s.buffer s.buffer := .queue h.pool s.buffer.eq
  unfold BufferSystem.step callerOf
  cases e with
  | send i data =>
    dsimp only
    split
    · unfold BufferSystem.send
      split
      · exact ⟨none, hstay, .inl rfl, fun _ _ => rfl⟩
      · dsimp only
        obtain ⟨hzero, heq⟩ | ⟨hne, -, ht, -, -⟩ := alloc_spec h.pool
        · rw [if_pos hzero, heq]
          exact ⟨none, hstay, .inl rfl, fun j hj => hsame hj⟩
        · rw [if_neg hne]
          exact ⟨none, ht, .inl rfl, fun j hj => hsame hj⟩
    · exact ⟨none, hstay, .inl rfl, fun _ _ => rfl⟩
  | receive i fromIsr bufferLength =>
    dsimp only
    split
    · unfold BufferSystem.receive
      split
      · exact ⟨none, hstay, .inl rfl, fun _ _ => rfl⟩
      · split
        · exact ⟨none, hstay, .inl rfl, fun _ _ => rfl⟩
        · exact ⟨none, .queue h.pool _, .inl rfl, fun j hj => hsame hj⟩
    · exact ⟨none, hstay, .inl rfl, fun _ _ => rfl⟩
  | reset i =>
    dsimp only
    split
    · exact ⟨none, hstay, .inl rfl, fun j hj => hsame hj⟩
    · exact ⟨none, hstay, .inl rfl, fun _ _ => rfl⟩
  | proceed i =>
    dsimp only
    split
    · next call hi =>
      have hheld : held s i = blockOf call := BufferOk.held_of_calls hi
      have hfree : ∀ {blk : ℕ}, held s i = some blk → Touches (some blk) s.buffer (s.buffer.free blk) := fun hblk =>
        (free_spec h.pool (h.mem_of_held hblk)).1
      unfold BufferSystem.proceed
      cases call with
      | allocated data blk =>
        obtain ⟨ht, -⟩ := copyIn_spec h.pool (h.mem_of_held hheld) (h.calls i _ hi)
        exact ⟨some blk, ht, .inr hheld, fun j hj => hsame hj⟩
      | filled data blk =>
        have hput := (h.tryPut ⟨data.length, blk⟩ hheld).1
        dsimp only
        rw [hput]
        exact ⟨none, .queue h.pool _, .inl rfl, fun j hj => hsame hj⟩
      | unsent blk => exact ⟨some blk, hfree hheld, .inr hheld, fun j hj => hsame hj⟩
      | accepted env => exact ⟨none, hstay, .inl rfl, fun j hj => hsame hj⟩
      | copied data blk => exact ⟨some blk, hfree hheld, .inr hheld, fun j hj => hsame hj⟩
      | rejected fromIsr env =>
        obtain ⟨hput, hputFront⟩ := h.tryPut _ hheld
        dsimp only
        rw [hput, hputFront]
        cases fromIsr with
        | false => exact ⟨none, .queue h.pool _, .inl rfl, fun j hj => hsame hj⟩
        | true => exact ⟨none, .queue h.pool _, .inl rfl, fun j hj => hsame hj⟩
      | draining =>
        dsimp only
        split
        · exact ⟨none, hstay, .inl rfl, fun j hj => hsame hj⟩
        · exact ⟨none, .queue h.pool _, .inl rfl, fun j hj => hsame hj⟩
      | drained blk => exact ⟨some blk, hfree hheld, .inr hheld, fun j hj => hsame hj⟩
      | resetting => exact ⟨none, .queue h.pool [], .inl rfl, fun j hj => hsame hj⟩
    · exact ⟨none, hstay, .inl rfl, fun _ _ => rfl⟩

/-- **What a receive takes is what it returns**, a step of it. -/
theorem inDelivery_step (h : BufferOk s) (i : ι) (e : BufferEvent ι) :
    inDelivery s i ++ (takenBy i s e).toList = (returnedBy i s e).toList ++ inDelivery (s.step e) i := by
  by_cases hi : i = callerOf e
  · cases e with
    | send j data =>
      obtain rfl : i = j := hi
      simp only [takenBy, returnedBy, BufferSystem.step]
      split
      · next hfree =>
        have hidle : inDelivery s i = [] := by simp [inDelivery, hfree]
        rw [hidle]
        unfold BufferSystem.send
        split
        · rw [hidle]
          rfl
        · dsimp only
          split <;> simp [inDelivery, BufferSystem.goto]
      · simp
    | receive j fromIsr bufferLength =>
      obtain rfl : i = j := hi
      simp only [takenBy, returnedBy, BufferSystem.step, leftIn, if_pos]
      by_cases hfree : s.calls i = none
      · have hidle : inDelivery s i = [] := by simp [inDelivery, hfree]
        rw [if_pos hfree, hidle]
        unfold BufferSystem.receive
        by_cases hzero : bufferLength = 0
        · simp [hzero, hidle]
        · cases heq : s.buffer.eq with
          | nil => simp [hidle]
          | cons env rest =>
            by_cases hfits : bufferLength < env.len
            · simp [hfree, hzero, hfits, inDelivery, BufferSystem.goto]
            · have hle := Nat.not_lt.mp hfits
              simp [hfree, hzero, hfits, hle, Option.filter, inDelivery, BufferSystem.goto, FrtosMessageBuffer.payload]
      · simp [hfree]
    | reset j =>
      obtain rfl : i = j := hi
      simp only [takenBy, returnedBy, BufferSystem.step]
      split
      · next hfree => simp [inDelivery, hfree, BufferSystem.goto]
      · simp
    | proceed j =>
      obtain rfl : i = j := hi
      simp only [takenBy, returnedBy, BufferSystem.step, if_pos]
      cases hcall : s.calls i with
      | none => simp
      | some call =>
        dsimp only
        unfold BufferSystem.proceed
        cases call with
        | draining =>
          dsimp only
          split
          · simp [inDelivery, hcall, BufferSystem.goto]
          · split <;> simp_all [inDelivery, BufferSystem.goto]
        | filled data blk =>
          dsimp only
          split <;> simp [inDelivery, hcall, BufferSystem.goto]
        | _ => simp [inDelivery, hcall, BufferSystem.goto]
  · obtain ⟨b, ht, hb, hcalls⟩ := step_touches h e
    have hsame : inDelivery (s.step e) i = inDelivery s i := inDelivery_touches h hi ht hb (hcalls i hi)
    have htaken : takenBy i s e = none := by
      cases e with
      | receive j fromIsr bufferLength => exact if_neg (Ne.symm hi)
      | _ => rfl
    have hreturned : returnedBy i s e = none := by
      cases e with
      | proceed j => exact if_neg (Ne.symm hi)
      | _ => rfl
    rw [hsame, htaken, hreturned]
    exact List.append_nil _

/-! ## Runs -/

/-- What a run does to the messages: those that have been put are those that have left, in this order, and
those that are stored; and each receive returns the message that it has taken. -/
structure KeepsMessages (m : FrtosMessageBuffer p) (es : List (BufferEvent ι)) : Prop where
  order : (∀ j, rejectedBy (BufferSystem.run m es) j = none) →
    Runs.observed BufferSystem.step putIn (BufferSystem.initial m) es =
      Runs.observed BufferSystem.step leftIn (BufferSystem.initial m) es ++
        (BufferSystem.run m es).buffer.eq.map (BufferSystem.run m es).buffer.payload
  unchanged : ∀ i, Runs.observed BufferSystem.step (takenBy i) (BufferSystem.initial m) es =
    Runs.observed BufferSystem.step (returnedBy i) (BufferSystem.initial m) es ++ inDelivery (BufferSystem.run m es) i

theorem BufferOk.run (hm : Created m) {es : List (BufferEvent ι)}
    (hes : Runs.Along BufferSystem.step ResetsEmpty (BufferSystem.initial m) es) : BufferOk (BufferSystem.run m es) :=
  Runs.Along.invariant (I := BufferOk) (fun _ _ h he => h.step he) hm.ok hes

theorem keepsMessages (hm : Created m) {es : List (BufferEvent ι)}
    (hes : Runs.Along BufferSystem.step Sequential (BufferSystem.initial m) es) : KeepsMessages m es where
  order hsettled := by
    have hstores : Stores (BufferSystem.initial m : BufferSystem p ι) [] := by
      refine ⟨none, ?_, ?_⟩
      · intro j env
        exact ⟨nofun, nofun⟩
      · cases hm <;> rfl
    have hstep : ∀ (s : BufferSystem p ι) e l, BufferOk s ∧ Stores s l → Sequential s e →
        ∃ l', (BufferOk (s.step e) ∧ Stores (s.step e) l') ∧ l ++ (putIn s e).toList = (leftIn s e).toList ++ l' := by
      intro s e l h he
      obtain ⟨l', hnext, hone⟩ := h.2.step h.1 he
      exact ⟨l', ⟨h.1.step he.resetsEmpty, hnext⟩, hone⟩
    obtain ⟨l, ⟨-, o, ho, hl⟩, hflows⟩ := Runs.Along.flows hstep ⟨hm.ok, hstores⟩ hes
    rw [ho.of_none hsettled] at hl
    rw [hl] at hflows
    exact hflows
  unchanged i := by
    have hstep : ∀ (s : BufferSystem p ι) e l, BufferOk s ∧ l = inDelivery s i → Sequential s e →
        ∃ l', (BufferOk (s.step e) ∧ l' = inDelivery (s.step e) i) ∧
          l ++ (takenBy i s e).toList = (returnedBy i s e).toList ++ l' := by
      rintro s e l ⟨h, rfl⟩ he
      exact ⟨_, ⟨h.step he.resetsEmpty, rfl⟩, inDelivery_step h i e⟩
    obtain ⟨l, ⟨-, hl⟩, hflows⟩ := Runs.Along.flows hstep ⟨hm.ok, rfl⟩ hes
    rw [hl] at hflows
    exact hflows

/-- A reset of a queue that is not empty any more loses a block. -/
theorem not_conserves {j : ι} (h : Conserves s) (hj : s.calls j = some .resetting) (hqueued : s.buffer.eq ≠ []) :
    ¬Conserves (s.step (.proceed j)) := by
  intro hnext
  have hheld : held s j = none := BufferOk.held_of_calls hj
  obtain ⟨env, rest, heq⟩ := List.exists_cons_of_ne_nil hqueued
  have hbefore := h.custody
  rw [heq, List.map_cons] at hbefore
  have hafter := hnext.custody
  unfold BufferSystem.step at hafter
  simp only [hj] at hafter
  rw [BufferSystem.proceed, held_goto, Option.bind_none, ← hheld, Function.update_eq_self] at hafter
  exact hbefore.not_cleared hafter

/-- **Message buffers.**  The blocks that are out are those of the queued envelopes and those held by calls, and
no `Put` fails, in the runs in which every reset finds the queue still empty, and in no other; and the messages
are kept in the runs in which nothing disturbs an envelope that is to be put back. -/
theorem run_messageBuffer (hm : Created m) (es : List (BufferEvent ι)) :
    ((∀ ds, ds <+: es → Conserves (BufferSystem.run m ds) ∧ PutsFit (BufferSystem.run m ds)) ↔
        Runs.Along BufferSystem.step ResetsEmpty (BufferSystem.initial m) es) ∧
      (Runs.Along BufferSystem.step Sequential (BufferSystem.initial m) es →
        ∀ ds, ds <+: es → KeepsMessages m ds) := by
  refine ⟨⟨fun h => ?_, fun h => ?_⟩, fun h => ?_⟩
  · rw [Runs.along_iff_prefix]
    intro ds e hds
    cases e with
    | proceed i =>
      intro hi
      by_contra hqueued
      have hbefore := (h ds ((List.prefix_append ds [_]).trans hds)).1
      have hafter := (h (ds ++ [.proceed i]) hds).1
      unfold BufferSystem.run at hafter
      rw [List.foldl_append] at hafter
      exact not_conserves hbefore hi hqueued hafter
    | _ => trivial
  · rintro ds ⟨rest, rfl⟩
    have hok := BufferOk.run hm (Runs.along_append.mp h).1
    exact ⟨hok.toConserves, hok.putsFit⟩
  · rintro ds ⟨rest, rfl⟩
    exact keepsMessages hm (Runs.along_append.mp h).1

/-- A buffer of two messages of up to five bytes; pointers have four bytes. -/
def smallBuffer : FrtosMessageBuffer 2 := .heap 5 2 64 (fun _ => 0)

theorem smallBuffer_created : Created smallBuffer := .heap (by constructor <;> decide)

/-- Caller 0 sends a message. -/
def sendMessage (data : List UInt8) : List (BufferEvent (Fin 2)) := [.send 0 data, .proceed 0, .proceed 0]

/-- Two messages are sent; an interrupt handler puts back the first, which is too long for it, and a receive
takes and returns it; a reset frees the other. -/
def putBackInFront : List (BufferEvent (Fin 2)) :=
  sendMessage [1, 2] ++ sendMessage [3] ++ [.receive 1 true 1, .proceed 1, .receive 1 false 2, .proceed 1, .proceed 1,
    .reset 1, .proceed 1, .proceed 1, .proceed 1, .proceed 1]

theorem putBackInFront_keeps :
    Conserves (BufferSystem.run smallBuffer putBackInFront) ∧ PutsFit (BufferSystem.run smallBuffer putBackInFront) ∧
      KeepsMessages smallBuffer putBackInFront := by
  obtain ⟨hconserves, hkeeps⟩ := run_messageBuffer smallBuffer_created putBackInFront
  obtain ⟨hcustody, hfit⟩ := hconserves.mpr (by decide +kernel) putBackInFront List.prefix_rfl
  exact ⟨hcustody, hfit, hkeeps (by decide +kernel) putBackInFront List.prefix_rfl⟩

/-- A reset whose last `TryGet` comes before the `Put` of a send loses the block of the message; and a message
that a task puts back goes behind the next one. -/
theorem messageBuffers_fail :
    ¬Conserves (BufferSystem.run smallBuffer
        [.send 0 [1], .proceed 0, .reset 1, .proceed 1, .proceed 0, .proceed (1 : Fin 2)]) ∧
      ¬KeepsMessages smallBuffer (sendMessage [1, 2] ++ sendMessage [3] ++ [.receive 1 false 1, .proceed 1]) := by
  refine ⟨fun h => ?_, fun h => ?_⟩
  · have hlost := (h.custody.iff 64).mp (by decide +kernel)
    revert hlost
    decide +kernel
  · have hordered := h.order (by decide +kernel)
    revert hordered
    decide +kernel

end Stk.Analysis
