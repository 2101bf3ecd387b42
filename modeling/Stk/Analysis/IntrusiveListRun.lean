import Stk.Analysis.IntrusiveLists

/-!
# Calls on intrusive lists

What each call makes of the sequences, and when it does: in every run whose calls meet the assertions
of the source, the heads represent the specified sequences as long as no call links past the seam of
a closed list.
-/

set_option autoImplicit false

namespace Stk.Model.DLists

open DoublyLinked Runs

variable {ε η : Type} {closed : Bool} [DecidableEq ε] [DecidableEq η]

/-- What the call asserts; an entry that names the position in `h` is an entry of `h`. -/
def Asserted (s : DLists ε η) : DListCall ε η → Prop
  | .linkBack _ e | .linkFront _ e => (s.entry e).head = none
  | .linkAfter h e p | .linkBefore h e p => (s.entry e).head = none ∧ (s.entry p).head = some h
  | .unlink h e => (s.entry e).head = some h
  | .popFront h | .popBack h => (s.head h).count ≠ 0
  | .clear _ => True
  | .relinkTo h dest => h ≠ dest

/-- The call links an entry between the last entry of a closed list and the first. -/
def AtSeam (closed : Bool) (s : DLists ε η) : DListCall ε η → Prop
  | .linkAfter h _ p => closed = true ∧ (s.head h).last = some p
  | .linkBefore h _ p => closed = true ∧ (s.head h).first = some p
  | _ => False

end Stk.Model.DLists

namespace Stk.Model.DListCall

variable {ε η : Type} [DecidableEq ε] [DecidableEq η]

/-- The sequences after the call. -/
def sequences (L : η → List ε) : DListCall ε η → η → List ε
  | .linkBack h e => Function.update L h (L h ++ [e])
  | .linkFront h e => Function.update L h (e :: L h)
  | .linkAfter h e p => Function.update L h ((L h).flatMap fun x => if x = p then [x, e] else [x])
  | .linkBefore h e p => Function.update L h ((L h).flatMap fun x => if x = p then [e, x] else [x])
  | .unlink h e => Function.update L h ((L h).erase e)
  | .popFront h => Function.update L h (L h).tail
  | .popBack h => Function.update L h (L h).dropLast
  | .clear h => Function.update L h []
  | .relinkTo h dest => Function.update (Function.update L h []) dest (L dest ++ L h)

omit [DecidableEq ε] [DecidableEq η] in
/-- The entry that the call returns. -/
def returned (L : η → List ε) : DListCall ε η → Option ε
  | .popFront h => (L h).head?
  | .popBack h => (L h).getLast?
  | _ => none

end Stk.Model.DListCall

namespace Stk.Model.DLists

open Runs

variable {ε η : Type} {closed : Bool} [DecidableEq ε] [DecidableEq η]
variable {s : DLists ε η} {L : η → List ε} {h : η} {l : List ε} {e : ε}

omit [DecidableEq η] in
theorem flatMap_of_not_mem {p : ε} {f : ε → List ε} (hp : p ∉ l) :
    (l.flatMap fun x => if x = p then f x else [x]) = l := by
  induction l with
  | nil => rfl
  | cons x l ih =>
    obtain ⟨hx, hl⟩ := not_or.mp (mt List.mem_cons.mpr hp)
    rw [List.flatMap_cons, ih hl, if_neg (fun he => hx he.symm), List.singleton_append]

omit [DecidableEq ε] [DecidableEq η] in
/-- INTERNAL: an entry of `h` splits the sequence. -/
theorem Represents.split (hs : s.Represents closed L) (he : (s.entry e).head = some h) :
    ∃ a b, L h = a ++ e :: b ∧ e ∉ a ∧ e ∉ b := by
  obtain ⟨a, b, hl⟩ := List.append_of_mem ((hs.owner h e).mp he)
  have hnodup := (hs.list h).nodup
  rw [hl, List.nodup_middle, List.nodup_cons, List.mem_append] at hnodup
  obtain ⟨hea, heb⟩ := not_or.mp hnodup.1
  exact ⟨a, b, hl, hea, heb⟩

theorem Represents.linkBack (hs : s.Represents closed L) (he : (s.entry e).head = none) :
    ∃ s', s.linkBack closed h e = some s' ∧ s'.Represents closed (Function.update L h (L h ++ [e])) := by
  apply hs.link (List.append_nil (L h)).symm he (hs.list h).last
  intro _
  rfl

theorem Represents.linkFront (hs : s.Represents closed L) (he : (s.entry e).head = none) :
    ∃ s', s.linkFront closed h e = some s' ∧ s'.Represents closed (Function.update L h (e :: L h)) := by
  apply hs.link (a := []) rfl he rfl
  intro hne
  exact absurd rfl hne

theorem Represents.linkAfter (hs : s.Represents closed L) (he : (s.entry e).head = none) {p : ε}
    (hp : (s.entry p).head = some h) (hseam : ¬ (closed = true ∧ (s.head h).last = some p)) :
    ∃ s', s.linkAfter closed h e p = some s' ∧ s'.Represents closed
      (Function.update L h ((L h).flatMap fun x => if x = p then [x, e] else [x])) := by
  obtain ⟨a, b, hl, hpa, hpb⟩ := hs.split hp
  have hlist := hl ▸ hs.list h
  have hnext : (s.entry p).next = b.head? := by
    rw [hlist.next_eq]
    by_cases hnil : b = []
    · subst hnil
      have hlast : (s.head h).last = some p := by simp [hlist.last]
      have hopen : closed = false := Bool.eq_false_iff.mpr fun hc => hseam ⟨hc, hlast⟩
      simp [hopen]
    · exact if_neg hnil
  have hspec : ((L h).flatMap fun x => if x = p then [x, e] else [x]) = (a ++ [p]) ++ e :: b := by
    rw [hl, List.flatMap_append, List.flatMap_cons, flatMap_of_not_mem hpa, flatMap_of_not_mem hpb, if_pos rfl]
    simp
  rw [hspec]
  apply hs.link (by simp [hl]) he (by simp)
  intro _
  exact hnext

theorem Represents.linkBefore (hs : s.Represents closed L) (he : (s.entry e).head = none) {p : ε}
    (hp : (s.entry p).head = some h) (hseam : ¬ (closed = true ∧ (s.head h).first = some p)) :
    ∃ s', s.linkBefore closed h e p = some s' ∧ s'.Represents closed
      (Function.update L h ((L h).flatMap fun x => if x = p then [e, x] else [x])) := by
  obtain ⟨a, b, hl, hpa, hpb⟩ := hs.split hp
  have hlist := hl ▸ hs.list h
  have hprev : (s.entry p).prev = a.getLast? := by
    rw [hlist.prev_eq]
    by_cases hnil : a = []
    · subst hnil
      have hfirst : (s.head h).first = some p := by simp [hlist.first]
      have hopen : closed = false := Bool.eq_false_iff.mpr fun hc => hseam ⟨hc, hfirst⟩
      simp [hopen]
    · exact if_neg hnil
  have hspec : ((L h).flatMap fun x => if x = p then [e, x] else [x]) = a ++ e :: p :: b := by
    rw [hl, List.flatMap_append, List.flatMap_cons, flatMap_of_not_mem hpa, flatMap_of_not_mem hpb, if_pos rfl]
    simp
  rw [hspec]
  apply hs.link hl he hprev
  intro _
  rfl

theorem Represents.unlinkEntry (hs : s.Represents closed L) (he : (s.entry e).head = some h) :
    ∃ s', s.unlink closed h (some e) = some s' ∧
      s'.Represents closed (Function.update L h ((L h).erase e)) := by
  obtain ⟨a, b, hl, hea, -⟩ := hs.split he
  have hspec : (L h).erase e = a ++ b := by
    rw [hl, List.erase_append_right _ hea, List.erase_cons_head]
  rw [hspec]
  exact hs.unlink hl

omit [DecidableEq ε] [DecidableEq η] in
theorem Represents.ne_nil (hs : s.Represents closed L) (hcount : (s.head h).count ≠ 0) : L h ≠ [] := by
  intro hnil
  rw [(hs.list h).size, hnil] at hcount
  exact hcount rfl

theorem Represents.popFront (hs : s.Represents closed L) (hcount : (s.head h).count ≠ 0) :
    ∃ s', s.popFront closed h = some ((L h).head?, s') ∧
      s'.Represents closed (Function.update L h (L h).tail) := by
  obtain ⟨x, b, hl⟩ := List.exists_cons_of_ne_nil (hs.ne_nil hcount)
  have hfirst : (s.head h).first = some x := by rw [(hs.list h).first, hl, List.head?_cons]
  obtain ⟨s', hs', hrep⟩ := hs.unlink (a := []) hl
  refine ⟨s', ?_, ?_⟩
  · simp [DLists.popFront, hfirst, hs', hl]
  · rw [hl]
    exact hrep

theorem Represents.popBack (hs : s.Represents closed L) (hcount : (s.head h).count ≠ 0) :
    ∃ s', s.popBack closed h = some ((L h).getLast?, s') ∧
      s'.Represents closed (Function.update L h (L h).dropLast) := by
  obtain ⟨x, hx⟩ := Option.ne_none_iff_exists'.mp (mt List.getLast?_eq_none_iff.mp (hs.ne_nil hcount))
  have hl : L h = (L h).dropLast ++ x :: [] := (List.dropLast_append_getLast? x hx).symm
  have hlast : (s.head h).last = some x := by rw [(hs.list h).last, hx]
  obtain ⟨s', hs', hrep⟩ := hs.unlink hl
  refine ⟨s', ?_, ?_⟩
  · simp [DLists.popBack, hlast, hs', hx]
  · rwa [List.append_nil] at hrep

/-- The loop of `Clear` ends: each round takes out the first entry. -/
theorem Represents.clearLoop (hs : s.Represents closed L) (hl : L h = l) :
    ∃ s', DLists.clearLoop closed h l.length s = some s' ∧
      s'.Represents closed (Function.update L h []) := by
  induction l generalizing s L with
  | nil =>
    have hcount : (s.head h).count = 0 := by rw [(hs.list h).size, hl, List.length_nil]
    refine ⟨s, by simp [DLists.clearLoop, hcount], ?_⟩
    rwa [← hl, Function.update_eq_self]
  | cons x l ih =>
    have hcount : (s.head h).count ≠ 0 := by
      rw [(hs.list h).size, hl]
      simp
    have hfirst : (s.head h).first = some x := by rw [(hs.list h).first, hl, List.head?_cons]
    obtain ⟨s₁, hs₁, hrep₁⟩ := hs.unlink (a := []) hl
    obtain ⟨s', hs', hrep⟩ := ih hrep₁ (by simp)
    refine ⟨s', ?_, by simpa using hrep⟩
    rw [List.length_cons, DLists.clearLoop, if_neg hcount, hfirst, hs₁, Option.bind_some, hs']

/-- The loop of `RelinkTo` ends: each round moves the first entry to the back of `dest`. -/
theorem Represents.relinkLoop (hs : s.Represents closed L) (hl : L h = l) {dest : η} (hto : h ≠ dest) :
    ∃ s', DLists.relinkLoop closed h dest l.length s = some s' ∧
      s'.Represents closed (Function.update (Function.update L h []) dest (L dest ++ l)) := by
  induction l generalizing s L with
  | nil =>
    have hcount : (s.head h).count = 0 := by rw [(hs.list h).size, hl, List.length_nil]
    refine ⟨s, by simp [DLists.relinkLoop, hcount], ?_⟩
    rw [List.append_nil, ← hl, Function.update_eq_self, Function.update_eq_self]
    exact hs
  | cons x l ih =>
    have hcount : (s.head h).count ≠ 0 := by
      rw [(hs.list h).size, hl]
      simp
    obtain ⟨s₁, hs₁, hrep₁⟩ := hs.popFront hcount
    rw [hl, List.tail_cons] at hrep₁
    have hxl : x ∉ l := (List.nodup_cons.mp (hl ▸ (hs.list h).nodup)).1
    have hfree : (s₁.entry x).head = none := by
      cases hhead : (s₁.entry x).head with
      | none => rfl
      | some h' =>
        have hmem := (hrep₁.owner h' x).mp hhead
        by_cases hh' : h' = h
        · subst hh'
          rw [Function.update_self] at hmem
          exact absurd hmem hxl
        · rw [Function.update_of_ne hh'] at hmem
          exact absurd (hs.distinct hmem (hl ▸ List.mem_cons_self)) hh'
    obtain ⟨s₂, hs₂, hrep₂⟩ := hrep₁.linkBack (h := dest) hfree
    obtain ⟨s', hs', hrep⟩ := ih hrep₂ (by simp [hto])
    refine ⟨s', ?_, ?_⟩
    · rw [List.length_cons, DLists.relinkLoop, if_neg hcount, hs₁, hl, List.head?_cons]
      dsimp only
      rw [hs₂, Option.bind_some, hs']
    · have hsame : Function.update (Function.update L h []) dest (L dest ++ x :: l) =
          Function.update (Function.update (Function.update (Function.update L h l) dest
            (Function.update L h l dest ++ [x])) h []) dest
            (Function.update (Function.update L h l) dest (Function.update L h l dest ++ [x]) dest ++ l) := by
        funext k
        by_cases hk : k = dest
        · subst hk
          simp [Function.update_of_ne (Ne.symm hto)]
        · by_cases hkh : k = h
          · subst hkh
            simp [hk]
          · simp [hk, hkh]
      rw [hsame]
      exact hrep

/-- The call returns what it should, and the heads represent the specified sequences. -/
def Carried (closed : Bool) (s : DLists ε η) (L : η → List ε) (c : DListCall ε η) : Prop :=
  ∃ s', s.perform closed c = some (c.returned L, s') ∧ s'.Represents closed (c.sequences L)

/-- **One call.** -/
theorem Represents.perform (hs : s.Represents closed L) {c : DListCall ε η} (hc : s.Asserted c)
    (hseam : ¬ s.AtSeam closed c) : s.Carried closed L c := by
  have hvoid : ∀ {t : Option (DLists ε η)} {M : η → List ε},
      (∃ s', t = some s' ∧ s'.Represents closed M) →
        ∃ s', t.map (fun s => ((none : Option ε), s)) = some (none, s') ∧ s'.Represents closed M := by
    rintro t M ⟨s', rfl, hs'⟩
    exact ⟨s', rfl, hs'⟩
  cases c with
  | linkBack h e => exact hvoid (hs.linkBack hc)
  | linkFront h e => exact hvoid (hs.linkFront hc)
  | linkAfter h e p => exact hvoid (hs.linkAfter hc.1 hc.2 hseam)
  | linkBefore h e p => exact hvoid (hs.linkBefore hc.1 hc.2 hseam)
  | unlink h e => exact hvoid (hs.unlinkEntry hc)
  | popFront h => exact hs.popFront hc
  | popBack h => exact hs.popBack hc
  | clear h =>
    have hcount := (hs.list h).size
    apply hvoid
    rw [DLists.clear, hcount]
    exact hs.clearLoop rfl
  | relinkTo h dest =>
    have hcount := (hs.list h).size
    apply hvoid
    rw [DLists.relinkTo, if_neg hc, hcount]
    exact hs.relinkLoop rfl hc

/-- INTERNAL: with the first entry for its next and the last entry for its previous one, the new entry
becomes both the first and the last. -/
theorem Represents.link_seam (hs : s.Represents true L) (he : (s.entry e).head = none)
    {f p : ε} (hf : (s.head h).first = some f) (hp : (s.head h).last = some p) {M : η → List ε} :
    ¬ ∃ s', s.link true h e (some f) (some p) = some s' ∧ s'.Represents true M := by
  rintro ⟨s', hs', hrep⟩
  have hmem : ∀ x, x ∈ L h → x ≠ e := by
    rintro x hx rfl
    rw [← hs.owner h x, he] at hx
    exact nomatch hx
  have hlist := hs.list h
  have hfe : f ≠ e := hmem f (List.mem_of_mem_head? (hlist.first ▸ hf))
  have hpe : p ≠ e := hmem p (List.mem_of_getLast? (hlist.last ▸ hp))
  have hcount : (s.head h).count ≠ 0 := by
    intro hzero
    rw [hlist.size] at hzero
    rw [hlist.first, List.length_eq_zero_iff.mp hzero] at hf
    exact nomatch hf
  have hself : (s.linkEntry h e (some f) (some p)).entry e = ⟨some h, some f, some p⟩ :=
    linkEntry_self (fun h' => hfe (Option.some.inj h')) (fun h' => hpe (Option.some.inj h'))
  have hhead : s'.head h = ⟨(s.head h).count + 1, some e, some e⟩ := by
    simp [DLists.link, he, hf, hp, hself, updateEnds] at hs'
    rw [← hs']
    simp
  have hlist' := hrep.list h
  have hsize := hlist'.size
  have hfirst := hlist'.first
  have hlast := hlist'.last
  rw [hhead] at hsize hfirst hlast
  obtain ⟨b, hM⟩ := List.head?_eq_some_iff.mp hfirst.symm
  rw [hM] at hsize hlast
  have hnodup := hM ▸ hlist'.nodup
  cases b with
  | nil =>
    rw [List.length_singleton] at hsize
    exact hcount (Nat.succ.inj hsize)
  | cons y b =>
    rw [List.getLast?_cons_cons] at hlast
    exact (List.nodup_cons.mp hnodup).1 (List.mem_of_getLast? hlast.symm)

theorem Represents.not_carried (hs : s.Represents closed L) {c : DListCall ε η} (hc : s.Asserted c)
    (hseam : s.AtSeam closed c) : ¬ s.Carried closed L c := by
  rintro ⟨s', hs', hrep⟩
  cases c with
  | linkAfter h e p =>
    obtain ⟨rfl, hp⟩ := hseam
    have hlist := hs.list h
    obtain ⟨f, hf⟩ : ∃ f, (s.head h).first = some f := by
      rw [hlist.first]
      apply Option.ne_none_iff_exists'.mp
      exact mt List.head?_eq_none_iff.mp (List.ne_nil_of_mem ((hs.owner h p).mp hc.2))
    have hnext : (s.entry p).next = some f := (hlist.back p hp).trans hf
    obtain ⟨t, ht, hmap⟩ := Option.map_eq_some_iff.mp hs'
    have hsame : t = s' := congrArg Prod.snd hmap
    rw [DLists.linkAfter, hnext] at ht
    exact hs.link_seam hc.1 hf hp ⟨s', hsame ▸ ht, hrep⟩
  | linkBefore h e p =>
    obtain ⟨rfl, hp⟩ := hseam
    have hlist := hs.list h
    obtain ⟨g, hg⟩ : ∃ g, (s.head h).last = some g := by
      rw [hlist.last]
      apply Option.ne_none_iff_exists'.mp
      exact mt List.getLast?_eq_none_iff.mp (List.ne_nil_of_mem ((hs.owner h p).mp hc.2))
    have hprev : (s.entry p).prev = some g := (hlist.front p hp).trans hg
    obtain ⟨t, ht, hmap⟩ := Option.map_eq_some_iff.mp hs'
    have hsame : t = s' := congrArg Prod.snd hmap
    rw [DLists.linkBefore, hprev] at ht
    exact hs.link_seam hc.1 hp hg ⟨s', hsame ▸ ht, hrep⟩
  | _ => exact hseam

def after (closed : Bool) (s : DLists ε η) (c : DListCall ε η) : DLists ε η :=
  ((s.perform closed c).map Prod.snd).getD s

/-- INTERNAL: along a run, from lists that represent their sequences. -/
theorem Represents.run (hs : s.Represents closed L) {cs : List (DListCall ε η)}
    (hcs : Along (after closed) Asserted s cs) :
    Along (fun (p : DLists ε η × (η → List ε)) c => (after closed p.1 c, c.sequences p.2))
        (fun p c => p.1.Carried closed p.2 c) (s, L) cs ↔
      Along (after closed) (fun s c => ¬ s.AtSeam closed c) s cs := by
  induction cs generalizing s L with
  | nil => exact Iff.rfl
  | cons c cs ih =>
    obtain ⟨hc, hcs⟩ := hcs
    rw [along_cons, along_cons]
    by_cases hseam : s.AtSeam closed c
    · constructor
      · rintro ⟨hcarried, -⟩
        exact absurd hcarried (hs.not_carried hc hseam)
      · rintro ⟨hnot, -⟩
        exact absurd hseam hnot
    · have hcarried := hs.perform hc hseam
      obtain ⟨s', hs', hrep⟩ := id hcarried
      have hafter : after closed s c = s' := by simp [after, hs']
      rw [hafter] at hcs ⊢
      constructor
      · rintro ⟨-, hrest⟩
        exact ⟨hseam, (ih hrep hcs).mp hrest⟩
      · rintro ⟨-, hrest⟩
        exact ⟨hcarried, (ih hrep hcs).mpr hrest⟩

/-- **Intrusive lists.**  In a run of calls that meet their assertions, on heads and entries as
constructed, each call ends, returns what it should and leaves every head with the specified
sequence, if and only if no call links between the last and the first entry of a closed list. -/
theorem run_lists (closed : Bool) (cs : List (DListCall ε η))
    (hcs : Along (after closed) Asserted initial cs) :
    Along (fun (p : DLists ε η × (η → List ε)) c => (after closed p.1 c, c.sequences p.2))
        (fun p c => p.1.Carried closed p.2 c) (initial, fun _ => []) cs ↔
      Along (after closed) (fun s c => ¬ s.AtSeam closed c) initial cs :=
  represents_initial.run hcs

/-- Two entries are linked to a closed list, and a third after the first of them. -/
def innerCalls : List (DListCall (Fin 3) Unit) := [.linkBack () 0, .linkBack () 1, .linkAfter () 2 0]

theorem run_lists_inner :
    Along (fun (p : DLists (Fin 3) Unit × (Unit → List (Fin 3))) c => (after true p.1 c, c.sequences p.2))
        (fun p c => p.1.Carried true p.2 c) (initial, fun _ => []) innerCalls ↔
      Along (after true) (fun s c => ¬ s.AtSeam true c) initial innerCalls :=
  run_lists true innerCalls ⟨rfl, rfl, ⟨rfl, rfl⟩, trivial⟩

/-- With the third entry linked after the second, the last, a traversal of the closed list meets the
third entry only. -/
theorem linkAfter_last :
    let calls : List (DListCall (Fin 3) Unit) := [.linkBack () 0, .linkBack () 1, .linkAfter () 2 1]
    let s := calls.foldl (after true) initial
    Along (after true) Asserted initial calls ∧
      DoublyLinked.walk (fun x => (s.entry x).next) (s.head ()).count (s.head ()).first = [2, 2, 2] ∧
        ∀ L, ¬ s.Represents true L := by
  intro calls s
  have hwalk : DoublyLinked.walk (fun x => (s.entry x).next) (s.head ()).count (s.head ()).first =
      [2, 2, 2] := by decide
  refine ⟨⟨rfl, rfl, ⟨rfl, rfl⟩, trivial⟩, hwalk, ?_⟩
  intro L hL
  have hlist := hL.list ()
  have hnodup := hlist.nodup
  rw [← hlist.forward, hwalk] at hnodup
  exact absurd hnodup (by decide)

end Stk.Model.DLists
