import Stk.Foundation.DoublyLinked
import Stk.Foundation.Runs
import Stk.Model.LinkedList

/-!
# Intrusive lists represent sequences

`Represents closed s L` says what the pointers of all entries and heads have to do with the sequence
`L h` of each head `h`.  An operation keeps it and changes the sequence of its head as specified,
unless it links past the seam of a closed list: with `p` the last entry, `p->GetNext()` is the first
entry, and `Link` takes the new entry for a new first and a new last entry at once.
-/

set_option autoImplicit false

namespace Stk.Model.DLists

open DoublyLinked Runs

variable {ε η : Type} {closed : Bool}

/-- Head `h` holds the sequence `l`: traversals in both directions, the size and the ends. -/
structure IsList (closed : Bool) (s : DLists ε η) (h : η) (l : List ε) : Prop where
  nodup : l.Nodup
  size : (s.head h).count = l.length
  first : (s.head h).first = l.head?
  last : (s.head h).last = l.getLast?
  forward : walk (fun x => (s.entry x).next) (s.head h).count (s.head h).first = l
  backward : walk (fun x => (s.entry x).prev) (s.head h).count (s.head h).last = l.reverse
  front : ∀ x ∈ (s.head h).first, (s.entry x).prev = if closed then (s.head h).last else none
  back : ∀ x ∈ (s.head h).last, (s.entry x).next = if closed then (s.head h).first else none

/-- Each head holds its sequence, and an entry names the head in whose sequence it is. -/
structure Represents (closed : Bool) (s : DLists ε η) (L : η → List ε) : Prop where
  list : ∀ h, s.IsList closed h (L h)
  owner : ∀ h e, (s.entry e).head = some h ↔ e ∈ L h
  free : ∀ e, (s.entry e).head = none → s.entry e = ⟨none, none, none⟩

/-- The chain of the entries of `l` and the members of its head, without the pointers beyond the ends. -/
structure Strung (s : DLists ε η) (h : η) (l : List ε) : Prop where
  nodup : l.Nodup
  size : (s.head h).count = l.length
  first : l ≠ [] → (s.head h).first = l.head?
  last : l ≠ [] → (s.head h).last = l.getLast?
  chained : Chained (fun x => (s.entry x).next) (fun x => (s.entry x).prev) l

/-- INTERNAL: new lists are empty. -/
theorem represents_initial : (initial : DLists ε η).Represents closed fun _ => [] where
  list h := by
    refine ⟨List.nodup_nil, rfl, rfl, rfl, rfl, rfl, ?_, ?_⟩
    · intro x hx
      exact nomatch hx
    · intro x hx
      exact nomatch hx
  owner h e := by simp [initial]
  free e _ := rfl

variable {s s' : DLists ε η} {L : η → List ε} {h : η} {l : List ε} {e : ε}

/-- INTERNAL: the links between the entries of a list, without its ends. -/
theorem IsList.strung (hl : s.IsList closed h l) : s.Strung h l where
  nodup := hl.nodup
  size := hl.size
  first _ := hl.first
  last _ := hl.last
  chained := by
    apply chained_of_walks
    · rw [← hl.size, ← hl.first]
      exact hl.forward
    · rw [← hl.size, ← hl.last]
      exact hl.backward

/-- INTERNAL: links between the entries and correct ends make a list. -/
theorem Strung.isList (hl : s.Strung h l) (hfirst : (s.head h).first = l.head?)
    (hlast : (s.head h).last = l.getLast?)
    (hfront : ∀ x ∈ l.head?, (s.entry x).prev = if closed then l.getLast? else none)
    (hback : ∀ x ∈ l.getLast?, (s.entry x).next = if closed then l.head? else none) :
    s.IsList closed h l where
  nodup := hl.nodup
  size := hl.size
  first := hfirst
  last := hlast
  forward := by
    rw [hl.size, hfirst]
    exact hl.chained.walk
  backward := by
    rw [hl.size, hlast]
    exact hl.chained.walk_back
  front := by rwa [hfirst, hlast]
  back := by rwa [hfirst, hlast]

/-- INTERNAL: a list is read off its head and its entries. -/
theorem IsList.congr (hl : s.IsList closed h l) (hhead : s'.head h = s.head h)
    (hentry : ∀ x ∈ l, s'.entry x = s.entry x) : s'.IsList closed h l := by
  have hstrung := hl.strung
  have hstrung' : s'.Strung h l := by
    refine ⟨hl.nodup, hhead ▸ hl.size, fun _ => hhead ▸ hl.first, fun _ => hhead ▸ hl.last, ?_⟩
    apply hstrung.chained.congr
    · intro x hx
      rw [hentry x (List.dropLast_subset l hx)]
    · intro x hx
      rw [hentry x (List.mem_of_mem_tail hx)]
  apply hstrung'.isList (hhead ▸ hl.first) (hhead ▸ hl.last)
  · intro x hx
    rw [hentry x (List.mem_of_mem_head? hx), hl.front x (hl.first ▸ hx), hl.last]
  · intro x hx
    rw [hentry x (List.mem_of_getLast? hx), hl.back x (hl.last ▸ hx), hl.first]

/-- INTERNAL: an entry is in one list at most. -/
theorem Represents.distinct (hs : s.Represents closed L) {h h' : η} {x : ε} (hx : x ∈ L h)
    (hx' : x ∈ L h') : h = h' := by
  have hhead := (hs.owner h x).mpr hx
  rw [(hs.owner h' x).mpr hx'] at hhead
  exact (Option.some.inj hhead).symm

variable [DecidableEq η]

/-- INTERNAL: head `h` now holds `l`, and nothing but its old and new entries has changed. -/
theorem Represents.replace (hs : s.Represents closed L) (hl : s'.IsList closed h l)
    (hheads : ∀ h', h' ≠ h → s'.head h' = s.head h')
    (hkeep : ∀ x, x ∉ l → x ∉ L h → s'.entry x = s.entry x)
    (hin : ∀ x ∈ l, (s'.entry x).head = some h) (hnew : ∀ x ∈ l, (s.entry x).head = none ∨ x ∈ L h)
    (hout : ∀ x ∈ L h, x ∉ l → s'.entry x = ⟨none, none, none⟩) :
    s'.Represents closed (Function.update L h l) := by
  have hother : ∀ h', h' ≠ h → ∀ x ∈ L h', x ∉ l ∧ x ∉ L h := by
    intro h' hh' x hx
    have hnot : x ∉ L h := fun hx' => hh' (hs.distinct hx hx')
    refine ⟨fun hxl => ?_, hnot⟩
    obtain hnone | hmem := hnew x hxl
    · rw [(hs.owner h' x).mpr hx] at hnone
      exact nomatch hnone
    · exact hnot hmem
  refine ⟨fun h' => ?_, fun h' x => ?_, fun x hx => ?_⟩
  · by_cases hh' : h' = h
    · subst hh'
      rwa [Function.update_self]
    · rw [Function.update_of_ne hh']
      apply (hs.list h').congr (hheads h' hh')
      intro x hx
      obtain ⟨hxl, hxL⟩ := hother h' hh' x hx
      exact hkeep x hxl hxL
  · by_cases hxl : x ∈ l
    · rw [hin x hxl]
      by_cases hh' : h' = h
      · subst hh'
        simp [hxl]
      · rw [Function.update_of_ne hh']
        refine ⟨fun heq => absurd (Option.some.inj heq).symm hh', fun hx => ?_⟩
        exact absurd hxl (hother h' hh' x hx).1
    · by_cases hxL : x ∈ L h
      · rw [hout x hxL hxl]
        by_cases hh' : h' = h
        · subst hh'
          simp [hxl]
        · rw [Function.update_of_ne hh']
          refine ⟨fun heq => (nomatch heq), fun hx => ?_⟩
          exact absurd hxL (hother h' hh' x hx).2
      · rw [hkeep x hxl hxL, hs.owner h' x]
        by_cases hh' : h' = h
        · subst hh'
          simp [hxl, hxL]
        · rw [Function.update_of_ne hh']
  · by_cases hxl : x ∈ l
    · rw [hin x hxl] at hx
      exact nomatch hx
    · by_cases hxL : x ∈ L h
      · exact hout x hxL hxl
      · rw [hkeep x hxl hxL] at hx ⊢
        exact hs.free x hx

section Pointers

omit [DecidableEq η]

variable (s : DLists ε η) (x : ε) (p v : Option ε)

/-- INTERNAL: a head is written beside the entries. -/
@[simp] theorem setHead_entry [DecidableEq η] (head : DListHead ε) : (s.setHead h head).entry = s.entry := rfl

/-- INTERNAL: a head is written. -/
@[simp] theorem setHead_head [DecidableEq η] (head : DListHead ε) (h' : η) :
    (s.setHead h head).head h' = if h' = h then head else s.head h' := by
  simp [setHead, Function.update_apply]

variable [DecidableEq ε]

/-- INTERNAL: an entry is written. -/
@[simp] theorem setEntry_entry (entry : DListEntry ε η) :
    (s.setEntry e entry).entry x = if x = e then entry else s.entry x := by
  simp [setEntry, Function.update_apply]

/-- INTERNAL: an entry is written beside the heads. -/
@[simp] theorem setEntry_head (entry : DListEntry ε η) : (s.setEntry e entry).head = s.head := rfl

/-- INTERNAL: a forward link is written beside the heads. -/
@[simp] theorem setNext_head : (s.setNext p v).head = s.head := by
  cases p <;> rfl

/-- INTERNAL: a backward link is written beside the heads. -/
@[simp] theorem setPrev_head : (s.setPrev p v).head = s.head := by
  cases p <;> rfl

/-- INTERNAL: a forward link is written if there is an entry to write. -/
@[simp] theorem setNext_entry :
    (s.setNext p v).entry x = { s.entry x with next := if p = some x then v else (s.entry x).next } := by
  cases p with
  | none => rfl
  | some y =>
    by_cases hxy : x = y
    · subst hxy
      simp [setNext]
    · have hyx : y ≠ x := fun he => hxy he.symm
      simp [setNext, hxy, hyx]

/-- INTERNAL: a backward link is written if there is an entry to write. -/
@[simp] theorem setPrev_entry :
    (s.setPrev p v).entry x = { s.entry x with prev := if p = some x then v else (s.entry x).prev } := by
  cases p with
  | none => rfl
  | some y =>
    by_cases hxy : x = y
    · subst hxy
      simp [setPrev]
    · have hyx : y ≠ x := fun he => hxy he.symm
      simp [setPrev, hxy, hyx]

/-- INTERNAL: `Link` of an entry leaves the heads. -/
theorem linkEntry_head (next prev : Option ε) : (s.linkEntry h e next prev).head = s.head := by
  simp [linkEntry]

/-- INTERNAL: `Unlink` of an entry leaves the heads. -/
theorem unlinkEntry_head : (s.unlinkEntry e).head = s.head := by simp [unlinkEntry]

variable {s x}

/-- INTERNAL: the linked entry itself. -/
theorem linkEntry_self {next prev : Option ε} (hnext : next ≠ some e) (hprev : prev ≠ some e) :
    (s.linkEntry h e next prev).entry e = ⟨some h, next, prev⟩ := by
  simp [linkEntry, hnext, hprev]

/-- INTERNAL: the neighbours of the linked entry point to it. -/
theorem linkEntry_other {next prev : Option ε} (hprev : prev ≠ some e) (hx : x ≠ e) :
    (s.linkEntry h e next prev).entry x =
      ⟨(s.entry x).head, if prev = some x then some e else (s.entry x).next,
        if next = some x then some e else (s.entry x).prev⟩ := by
  simp [linkEntry, hprev, hx]

/-- INTERNAL: the unlinked entry itself. -/
theorem unlinkEntry_self : (s.unlinkEntry e).entry e = ⟨none, none, none⟩ := by simp [unlinkEntry]

/-- INTERNAL: the neighbours of the unlinked entry point past it. -/
theorem unlinkEntry_other (hx : x ≠ e) :
    (s.unlinkEntry e).entry x =
      ⟨(s.entry x).head, if (s.entry e).prev = some x then (s.entry e).next else (s.entry x).next,
        if (s.entry e).next = some x then (s.entry e).prev else (s.entry x).prev⟩ := by
  simp [unlinkEntry, hx]

end Pointers

variable [DecidableEq ε]

/-- `UpdateEnds` closes the ring, and leaves an open list as it is. -/
theorem updateEnds_strung (hl : s.Strung h l) (hopen : closed = false →
    (∀ x ∈ l.head?, (s.entry x).prev = none) ∧ ∀ x ∈ l.getLast?, (s.entry x).next = none) :
    ∃ s', s.updateEnds closed h = some s' ∧ s'.IsList closed h l ∧
      (∀ h', h' ≠ h → s'.head h' = s.head h') ∧ (∀ x, x ∉ l → s'.entry x = s.entry x) ∧
      ∀ x, (s'.entry x).head = (s.entry x).head := by
  by_cases hempty : l = []
  · subst hempty
    have hcount : (s.head h).count = 0 := hl.size
    refine ⟨s.setHead h { s.head h with first := none, last := none }, by rw [updateEnds, if_pos hcount],
      ?_, fun h' hh' => by simp [hh'], fun x _ => rfl, fun x => rfl⟩
    refine ⟨List.nodup_nil, ?_, ?_, ?_, ?_, ?_, ?_, ?_⟩
    all_goals simp [hcount, walk]
  · have hcount : (s.head h).count ≠ 0 := by
      rw [hl.size]
      exact fun hzero => hempty (List.length_eq_zero_iff.mp hzero)
    have hfirst := hl.first hempty
    have hlast := hl.last hempty
    cases closed with
    | false =>
      obtain ⟨hfront, hback⟩ := hopen rfl
      refine ⟨s, by simp [updateEnds, hcount], ?_, fun _ _ => rfl, fun _ _ => rfl, fun _ => rfl⟩
      apply hl.isList hfirst hlast
      · exact hfront
      · exact hback
    | true =>
      obtain ⟨f, hf⟩ := Option.ne_none_iff_exists'.mp (mt List.head?_eq_none_iff.mp hempty)
      obtain ⟨g, hg⟩ := Option.ne_none_iff_exists'.mp (mt List.getLast?_eq_none_iff.mp hempty)
      rw [hf] at hfirst
      rw [hg] at hlast
      refine ⟨(s.setPrev (some f) (some g)).setNext (some g) (some f),
        by simp [updateEnds, hcount, hfirst, hlast], ?_, fun _ _ => by simp, ?_, fun x => by simp⟩
      · have hstrung : ((s.setPrev (some f) (some g)).setNext (some g) (some f)).Strung h l := by
          refine ⟨hl.nodup, by simpa using hl.size, fun _ => by simp [hfirst, hf],
            fun _ => by simp [hlast, hg], ?_⟩
          apply hl.chained.congr
          · intro x hx
            have hne : g ≠ x := fun he => ne_getLast_of_mem_dropLast hl.nodup hx (he ▸ hg)
            simp [hne]
          · intro x hx
            have hne : f ≠ x := fun he => ne_head_of_mem_tail hl.nodup hx (he ▸ hf)
            simp [hne]
        apply hstrung.isList
        · simp [hfirst, hf]
        · simp [hlast, hg]
        · intro x hx
          rw [hf] at hx
          simp [Option.mem_def.mp hx |> Option.some.inj, hg]
        · intro x hx
          rw [hg] at hx
          simp [Option.mem_def.mp hx |> Option.some.inj, hf]
      · intro x hx
        have hfx : f ≠ x := fun he => hx (he ▸ List.mem_of_mem_head? (Option.mem_def.mpr hf))
        have hgx : g ≠ x := fun he => hx (he ▸ List.mem_of_getLast? hg)
        simp [hfx, hgx]

section Link

variable {a b : List ε}

omit [DecidableEq η] in
/-- INTERNAL: the entries of `a` and `b` and the new entry between them. -/
theorem Strung.linkEntry (hl : s.Strung h (a ++ b)) (he : e ∉ a ++ b) :
    Chained (fun x => ((s.linkEntry h e b.head? a.getLast?).entry x).next)
      (fun x => ((s.linkEntry h e b.head? a.getLast?).entry x).prev) (a ++ e :: b) := by
  obtain ⟨hea, heb⟩ := not_or.mp (mt List.mem_append.mpr he)
  obtain ⟨ha, hb, hdisjoint⟩ := List.nodup_append.mp hl.nodup
  obtain ⟨hca, hcb, -⟩ := chained_append.mp hl.chained
  have hnext : b.head? ≠ some e := fun h' => heb (List.mem_of_mem_head? h')
  have hprev : a.getLast? ≠ some e := fun h' => hea (List.mem_of_getLast? h')
  have hself := linkEntry_self (s := s) (h := h) hnext hprev
  have hother : ∀ x, x ≠ e → (s.linkEntry h e b.head? a.getLast?).entry x = _ := fun x hx => linkEntry_other hprev hx
  refine chained_append.mpr ⟨?_, chained_cons.mpr ⟨?_, ?_⟩, ?_⟩
  · apply hca.congr
    · intro x hx
      have hxe : x ≠ e := fun h' => hea (h' ▸ List.dropLast_subset a hx)
      rw [hother x hxe]
      exact if_neg (ne_getLast_of_mem_dropLast ha hx)
    · intro x hx
      have hxa := List.mem_of_mem_tail hx
      have hxe : x ≠ e := fun h' => hea (h' ▸ hxa)
      have hxb : b.head? ≠ some x := fun h' => hdisjoint x hxa x (List.mem_of_mem_head? h') rfl
      rw [hother x hxe]
      exact if_neg hxb
  · intro y hy
    have hye : y ≠ e := fun h' => heb (h' ▸ List.mem_of_mem_head? hy)
    rw [hself, hother y hye]
    exact ⟨hy, if_pos hy⟩
  · apply hcb.congr
    · intro x hx
      have hxb := List.dropLast_subset b hx
      have hxe : x ≠ e := fun h' => heb (h' ▸ hxb)
      have hxa : a.getLast? ≠ some x := fun h' => hdisjoint x (List.mem_of_getLast? h') x hxb rfl
      rw [hother x hxe]
      exact if_neg hxa
    · intro x hx
      have hxe : x ≠ e := fun h' => heb (h' ▸ List.mem_of_mem_tail hx)
      rw [hother x hxe]
      exact if_neg (ne_head_of_mem_tail hb hx)
  · intro x hx y hy
    have hye : y = e := (Option.some.inj hy).symm
    have hxe : x ≠ e := fun h' => hea (h' ▸ List.mem_of_getLast? hx)
    subst hye
    rw [hself, hother x hxe]
    exact ⟨if_pos hx, hx⟩

/-- **Linking between two neighbours.** -/
theorem Represents.link (hs : s.Represents closed L) (hl : L h = a ++ b) (he : (s.entry e).head = none)
    {next prev : Option ε} (hprev : prev = a.getLast?) (hnext : a ≠ [] → next = b.head?) :
    ∃ s', s.link closed h e next prev = some s' ∧
      s'.Represents closed (Function.update L h (a ++ e :: b)) := by
  have hlist := hl ▸ hs.list h
  have hstrung := hlist.strung
  have heab : e ∉ a ++ b := by
    intro hmem
    rw [← hl, ← hs.owner h e, he] at hmem
    exact nomatch hmem
  obtain ⟨hea, heb⟩ := not_or.mp (mt List.mem_append.mpr heab)
  obtain ⟨ha, hb, hdisjoint⟩ := List.nodup_append.mp hstrung.nodup
  have hnext' : (if prev = none then (s.head h).first else next) = b.head? := by
    rw [hprev]
    by_cases hnil : a = []
    · subst hnil
      exact hlist.first
    · rw [if_neg (mt List.getLast?_eq_none_iff.mp hnil)]
      exact hnext hnil
  have hbe : b.head? ≠ some e := fun h' => heb (List.mem_of_mem_head? h')
  have hae : a.getLast? ≠ some e := fun h' => hea (List.mem_of_getLast? h')
  have hself := linkEntry_self (s := s) (h := h) hbe hae
  have hother : ∀ x, x ≠ e → (s.linkEntry h e b.head? a.getLast?).entry x = _ := fun x hx => linkEntry_other hae hx
  have hfirst : (if (s.head h).first = none then some e
      else if (s.head h).first = b.head? then some e else (s.head h).first) = (a ++ e :: b).head? := by
    rw [hlist.first]
    cases a with
    | nil => simp
    | cons x a =>
      have hxb : b.head? ≠ some x :=
        fun h' => hdisjoint x List.mem_cons_self x (List.mem_of_mem_head? h') rfl
      simp [hxb.symm]
  have hlast : (if (s.head h).last = none then some e
      else if (s.head h).last = a.getLast? then some e else (s.head h).last) =
        (a ++ e :: b).getLast? := by
    rw [hlist.last]
    cases hb' : b.getLast? with
    | none =>
      have hnil := List.getLast?_eq_none_iff.mp hb'
      subst hnil
      simp
    | some y =>
      have hya : a.getLast? ≠ some y :=
        fun h' => hdisjoint y (List.mem_of_getLast? h') y (List.mem_of_getLast? hb') rfl
      simp [List.getLast?_append, List.getLast?_cons, hb', hya.symm]
  let s₁ := (s.linkEntry h e b.head? a.getLast?).setHead h
    ⟨(s.head h).count + 1, (a ++ e :: b).head?, (a ++ e :: b).getLast?⟩
  have hlink : s.link closed h e next prev = s₁.updateEnds closed h := by
    unfold DLists.link
    rw [if_neg (fun hne => hne he)]
    dsimp only
    rw [hnext', hprev, hself]
    dsimp only
    rw [hfirst, hlast]
    cases closed with
    | false => simp [updateEnds, s₁]
    | true => rfl
  have hstrung₁ : s₁.Strung h (a ++ e :: b) := by
    refine ⟨?_, ?_, fun _ => by simp [s₁], fun _ => by simp [s₁], hstrung.linkEntry heab⟩
    · rw [List.nodup_middle]
      exact List.nodup_cons.mpr ⟨heab, hstrung.nodup⟩
    · simp [s₁, hlist.size]
      omega
  have hopen : closed = false → (∀ x ∈ (a ++ e :: b).head?, (s₁.entry x).prev = none) ∧
      ∀ x ∈ (a ++ e :: b).getLast?, (s₁.entry x).next = none := by
    intro hclosed
    subst hclosed
    constructor
    · intro x hx
      cases a with
      | nil =>
        have hxe : x = e := (Option.some.inj hx).symm
        subst hxe
        exact congrArg DListEntry.prev hself
      | cons y a =>
        have hxy : x = y := (Option.some.inj hx).symm
        subst hxy
        have hxe : x ≠ e := fun h' => hea (h' ▸ List.mem_cons_self)
        have hxb : b.head? ≠ some x :=
          fun h' => hdisjoint x List.mem_cons_self x (List.mem_of_mem_head? h') rfl
        have hfront := hlist.front x (hlist.first ▸ rfl)
        change ((s.linkEntry h e b.head? _).entry x).prev = none
        rw [hother x hxe]
        dsimp only
        rw [if_neg hxb]
        exact hfront
    · intro x hx
      cases hb' : b.getLast? with
      | none =>
        have hnil := List.getLast?_eq_none_iff.mp hb'
        subst hnil
        have hxe : x = e := by simpa using hx.symm
        subst hxe
        exact congrArg DListEntry.next hself
      | some y =>
        have hxy : x = y := by simpa [List.getLast?_append, List.getLast?_cons, hb'] using hx.symm
        subst hxy
        have hxb := List.mem_of_getLast? hb'
        have hxe : x ≠ e := fun h' => heb (h' ▸ hxb)
        have hxa : a.getLast? ≠ some x := fun h' => hdisjoint x (List.mem_of_getLast? h') x hxb rfl
        have hback := hlist.back x (hlist.last ▸ by simp [List.getLast?_append, hb'])
        change ((s.linkEntry h e b.head? a.getLast?).entry x).next = none
        rw [hother x hxe]
        dsimp only
        rw [if_neg hxa]
        exact hback
  obtain ⟨s', hs', hlist', hheads, hentries, howners⟩ := updateEnds_strung hstrung₁ hopen
  refine ⟨s', hlink.trans hs', hs.replace hlist' ?_ ?_ ?_ ?_ ?_⟩
  · intro h' hh'
    rw [hheads h' hh']
    simp [s₁, hh', linkEntry_head]
  · intro x hx hxL
    rw [hl] at hxL
    have hxe : x ≠ e := fun h' => hx (by simp [h'])
    have hxa : a.getLast? ≠ some x := fun h' => hxL (List.mem_append_left b (List.mem_of_getLast? h'))
    have hxb : b.head? ≠ some x := fun h' => hxL (List.mem_append_right a (List.mem_of_mem_head? h'))
    rw [hentries x hx]
    change (s.linkEntry h e b.head? a.getLast?).entry x = s.entry x
    rw [hother x hxe, if_neg hxa, if_neg hxb]
  · intro x hx
    rw [howners x]
    change ((s.linkEntry h e b.head? a.getLast?).entry x).head = some h
    by_cases hxe : x = e
    · subst hxe
      exact congrArg DListEntry.head hself
    · rw [hother x hxe]
      apply (hs.owner h x).mpr
      rw [hl]
      simpa [hxe] using hx
  · intro x hx
    by_cases hxe : x = e
    · exact Or.inl (hxe ▸ he)
    · rw [hl]
      exact Or.inr (by simpa [hxe] using hx)
  · intro x hxL hx
    rw [hl] at hxL
    refine absurd ?_ hx
    simp only [List.mem_append, List.mem_cons] at hxL ⊢
    exact hxL.imp_right Or.inr

end Link

section Unlink

variable {a b : List ε}

omit [DecidableEq ε] [DecidableEq η] in
/-- INTERNAL: the forward link of an entry. -/
theorem IsList.next_eq (hl : s.IsList closed h (a ++ e :: b)) :
    (s.entry e).next = if b = [] then if closed then (a ++ e :: b).head? else none else b.head? := by
  cases b with
  | nil =>
    have hback := hl.back e (hl.last ▸ by simp)
    rw [hback, hl.first]
    exact (if_pos rfl).symm
  | cons y b =>
    obtain ⟨-, hrest, -⟩ := chained_append.mp hl.strung.chained
    exact ((chained_cons.mp hrest).1 y rfl).1

omit [DecidableEq ε] [DecidableEq η] in
/-- INTERNAL: the backward link of an entry. -/
theorem IsList.prev_eq (hl : s.IsList closed h (a ++ e :: b)) :
    (s.entry e).prev = if a = [] then if closed then (a ++ e :: b).getLast? else none else a.getLast? := by
  by_cases hnil : a = []
  · subst hnil
    have hfront := hl.front e (hl.first ▸ by simp)
    rw [hfront, hl.last]
    exact (if_pos rfl).symm
  · obtain ⟨x, hx⟩ := Option.ne_none_iff_exists'.mp (mt List.getLast?_eq_none_iff.mp hnil)
    obtain ⟨-, -, hjoin⟩ := chained_append.mp hl.strung.chained
    rw [if_neg hnil, hx]
    exact (hjoin x hx e rfl).2

omit [DecidableEq ε] [DecidableEq η] in
/-- INTERNAL: a forward link stays in the list. -/
theorem IsList.next_mem (hl : s.IsList closed h (a ++ e :: b)) {x : ε} (hx : (s.entry e).next = some x) :
    x ∈ a ++ e :: b := by
  rw [hl.next_eq] at hx
  split at hx
  · split at hx
    · exact List.mem_of_mem_head? hx
    · exact nomatch hx
  · have hxb := List.mem_of_mem_head? hx
    exact List.mem_append_right a (List.mem_cons_of_mem e hxb)

omit [DecidableEq ε] [DecidableEq η] in
/-- INTERNAL: a backward link stays in the list. -/
theorem IsList.prev_mem (hl : s.IsList closed h (a ++ e :: b)) {x : ε} (hx : (s.entry e).prev = some x) :
    x ∈ a ++ e :: b := by
  rw [hl.prev_eq] at hx
  split at hx
  · split at hx
    · exact List.mem_of_getLast? hx
    · exact nomatch hx
  · have hxa := List.mem_of_getLast? hx
    exact List.mem_append_left (e :: b) hxa

omit [DecidableEq η] in
/-- INTERNAL: the neighbours of the entry taken out name each other. -/
theorem IsList.unlinkEntry (hl : s.IsList closed h (a ++ e :: b)) :
    Chained (fun x => ((s.unlinkEntry e).entry x).next) (fun x => ((s.unlinkEntry e).entry x).prev)
      (a ++ b) := by
  have hnodup := hl.nodup
  rw [List.nodup_middle, List.nodup_cons] at hnodup
  obtain ⟨heab, hab⟩ := hnodup
  obtain ⟨hea, heb⟩ := not_or.mp (mt List.mem_append.mpr heab)
  obtain ⟨ha, hb, hdisjoint⟩ := List.nodup_append.mp hab
  obtain ⟨hca, hrest, -⟩ := chained_append.mp hl.strung.chained
  obtain ⟨-, hcb⟩ := chained_cons.mp hrest
  have hnext := hl.next_eq
  have hprev := hl.prev_eq
  have hother : ∀ x, x ≠ e → _ := fun x hx => unlinkEntry_other (s := s) hx
  refine chained_append.mpr ⟨?_, ?_, ?_⟩
  · apply hca.congr
    · intro x hx
      have hxe : x ≠ e := fun h' => hea (h' ▸ List.dropLast_subset a hx)
      have hnil : a ≠ [] := List.ne_nil_of_mem (List.dropLast_subset a hx)
      rw [hother x hxe]
      dsimp only
      rw [hprev, if_neg hnil, if_neg (ne_getLast_of_mem_dropLast ha hx)]
    · intro x hx
      have hxa := List.mem_of_mem_tail hx
      have hxe : x ≠ e := fun h' => hea (h' ▸ hxa)
      have hxn : (s.entry e).next ≠ some x := by
        rw [hnext]
        by_cases hnil : b = []
        · cases closed with
          | false => simp [hnil]
          | true =>
            obtain ⟨y, a', rfl⟩ := List.exists_cons_of_ne_nil (List.ne_nil_of_mem hxa)
            simpa [hnil] using ne_head_of_mem_tail ha hx
        · rw [if_neg hnil]
          exact fun h' => hdisjoint x hxa x (List.mem_of_mem_head? h') rfl
      rw [hother x hxe]
      exact if_neg hxn
  · apply hcb.congr
    · intro x hx
      have hxb := List.dropLast_subset b hx
      have hxe : x ≠ e := fun h' => heb (h' ▸ hxb)
      have hxp : (s.entry e).prev ≠ some x := by
        rw [hprev]
        by_cases hnil : a = []
        · cases closed with
          | false => simp [hnil]
          | true =>
            have hlast := ne_getLast_of_mem_dropLast hb hx
            obtain ⟨y, hy⟩ := Option.ne_none_iff_exists'.mp
              (mt List.getLast?_eq_none_iff.mp (List.ne_nil_of_mem hxb))
            simpa [hnil, List.getLast?_cons, hy] using hlast
        · rw [if_neg hnil]
          exact fun h' => hdisjoint x (List.mem_of_getLast? h') x hxb rfl
      rw [hother x hxe]
      exact if_neg hxp
    · intro x hx
      have hxb := List.mem_of_mem_tail hx
      have hxe : x ≠ e := fun h' => heb (h' ▸ hxb)
      rw [hother x hxe]
      dsimp only
      rw [hnext, if_neg (List.ne_nil_of_mem hxb), if_neg (ne_head_of_mem_tail hb hx)]
  · intro x hx y hy
    have hxe : x ≠ e := fun h' => hea (h' ▸ List.mem_of_getLast? hx)
    have hye : y ≠ e := fun h' => heb (h' ▸ List.mem_of_mem_head? hy)
    have hxp : (s.entry e).prev = some x := by
      rw [hprev, if_neg (List.ne_nil_of_mem (List.mem_of_getLast? hx))]
      exact hx
    have hyn : (s.entry e).next = some y := by
      rw [hnext, if_neg (List.ne_nil_of_mem (List.mem_of_mem_head? hy))]
      exact hy
    rw [hother x hxe, hother y hye]
    dsimp only
    rw [if_pos hxp, if_pos hyn]
    exact ⟨hyn, hxp⟩

/-- **Taking out an entry.** -/
theorem Represents.unlink (hs : s.Represents closed L) (hl : L h = a ++ e :: b) :
    ∃ s', s.unlink closed h (some e) = some s' ∧
      s'.Represents closed (Function.update L h (a ++ b)) := by
  have hlist := hl ▸ hs.list h
  have hnodup := hlist.nodup
  rw [List.nodup_middle, List.nodup_cons] at hnodup
  obtain ⟨heab, hab⟩ := hnodup
  obtain ⟨hea, heb⟩ := not_or.mp (mt List.mem_append.mpr heab)
  obtain ⟨ha, hb, hdisjoint⟩ := List.nodup_append.mp hab
  have hhead : (s.entry e).head = some h := by
    rw [hs.owner h e, hl]
    simp
  have hnext := hlist.next_eq
  have hprev := hlist.prev_eq
  have hother : ∀ x, x ≠ e → _ := fun x hx => unlinkEntry_other (s := s) hx
  let first := if (s.head h).first = some e then (s.entry e).next else (s.head h).first
  let last := if (s.head h).last = some e then (s.entry e).prev else (s.head h).last
  let s₁ := (s.unlinkEntry e).setHead h ⟨(s.head h).count - 1, first, last⟩
  have hunlink : s.unlink closed h (some e) = s₁.updateEnds closed h := by
    unfold DLists.unlink
    dsimp only
    rw [if_neg (fun hne => hne hhead)]
  have hfirst : a ++ b ≠ [] → first = (a ++ b).head? := by
    intro hne
    dsimp only [first]
    rw [hlist.first]
    cases a with
    | nil =>
      rw [List.nil_append] at hne ⊢
      rw [List.nil_append, List.head?_cons, if_pos rfl, hnext, if_neg hne]
    | cons x a =>
      have hxe : x ≠ e := fun h' => hea (h' ▸ List.mem_cons_self)
      simp [hxe]
  have hlast : a ++ b ≠ [] → last = (a ++ b).getLast? := by
    intro hne
    dsimp only [last]
    rw [hlist.last]
    cases hb' : b.getLast? with
    | none =>
      have hnil := List.getLast?_eq_none_iff.mp hb'
      subst hnil
      rw [List.append_nil] at hne ⊢
      rw [List.getLast?_append, List.getLast?_singleton, Option.some_or, if_pos rfl, hprev, if_neg hne]
    | some y =>
      have hye : y ≠ e := fun h' => heb (h' ▸ List.mem_of_getLast? hb')
      simp [List.getLast?_append, List.getLast?_cons, hb', hye]
  have hstrung₁ : s₁.Strung h (a ++ b) := by
    refine ⟨hab, ?_, fun hne => ?_, fun hne => ?_, hlist.unlinkEntry⟩
    · simp [s₁, hlist.size]
    · simpa [s₁] using hfirst hne
    · simpa [s₁] using hlast hne
  have hopen : closed = false → (∀ x ∈ (a ++ b).head?, (s₁.entry x).prev = none) ∧
      ∀ x ∈ (a ++ b).getLast?, (s₁.entry x).next = none := by
    intro hclosed
    subst hclosed
    constructor
    · intro x hx
      change ((s.unlinkEntry e).entry x).prev = none
      have hxe : x ≠ e := fun h' => heab (h' ▸ List.mem_of_mem_head? hx)
      rw [hother x hxe]
      dsimp only
      cases a with
      | nil =>
        have hp : (s.entry e).prev = none := by simpa using hprev
        have hnil : b ≠ [] := List.ne_nil_of_mem (List.mem_of_mem_head? hx)
        have hn : (s.entry e).next = some x := by
          rw [hnext, if_neg hnil]
          exact hx
        rw [if_pos hn, hp]
      | cons y a =>
        have hxy : x = y := (Option.some.inj hx).symm
        subst hxy
        have hn : (s.entry e).next ≠ some x := by
          rw [hnext]
          by_cases hnil : b = []
          · simp [hnil]
          · rw [if_neg hnil]
            exact fun h' => hdisjoint x List.mem_cons_self x (List.mem_of_mem_head? h') rfl
        rw [if_neg hn]
        exact hlist.front x (hlist.first ▸ rfl)
    · intro x hx
      change ((s.unlinkEntry e).entry x).next = none
      have hxe : x ≠ e := fun h' => heab (h' ▸ List.mem_of_getLast? hx)
      rw [hother x hxe]
      dsimp only
      cases hb' : b.getLast? with
      | none =>
        have hnil := List.getLast?_eq_none_iff.mp hb'
        subst hnil
        have hn : (s.entry e).next = none := by simpa using hnext
        have hxa : a.getLast? = some x := by simpa using hx
        have hp : (s.entry e).prev = some x := by
          rw [hprev, if_neg (List.ne_nil_of_mem (List.mem_of_getLast? hxa))]
          exact hxa
        rw [if_pos hp, hn]
      | some y =>
        have hxy : x = y := by simpa [List.getLast?_append, hb'] using hx.symm
        subst hxy
        have hxb := List.mem_of_getLast? hb'
        have hp : (s.entry e).prev ≠ some x := by
          rw [hprev]
          by_cases hnil : a = []
          · simp [hnil]
          · rw [if_neg hnil]
            exact fun h' => hdisjoint x (List.mem_of_getLast? h') x hxb rfl
        rw [if_neg hp]
        exact hlist.back x (hlist.last ▸ by simp [List.getLast?_append, List.getLast?_cons, hb'])
  obtain ⟨s', hs', hlist', hheads, hentries, howners⟩ := updateEnds_strung hstrung₁ hopen
  refine ⟨s', hunlink.trans hs', hs.replace hlist' ?_ ?_ ?_ ?_ ?_⟩
  · intro h' hh'
    rw [hheads h' hh']
    simp [s₁, hh', unlinkEntry_head]
  · intro x hx hxL
    rw [hl] at hxL
    have hxe : x ≠ e := fun h' => hxL (by simp [h'])
    have hp : (s.entry e).prev ≠ some x := fun h' => hxL (hlist.prev_mem h')
    have hn : (s.entry e).next ≠ some x := fun h' => hxL (hlist.next_mem h')
    rw [hentries x hx]
    change (s.unlinkEntry e).entry x = s.entry x
    rw [hother x hxe, if_neg hp, if_neg hn]
  · intro x hx
    have hxe : x ≠ e := fun h' => heab (h' ▸ hx)
    rw [howners x]
    change ((s.unlinkEntry e).entry x).head = some h
    rw [hother x hxe]
    apply (hs.owner h x).mpr
    rw [hl]
    simp only [List.mem_append, List.mem_cons] at hx ⊢
    exact hx.imp_right Or.inr
  · intro x hx
    rw [hl]
    simp only [List.mem_append, List.mem_cons] at hx ⊢
    exact Or.inr (hx.imp_right Or.inr)
  · intro x hxL hx
    rw [hl] at hxL
    have hxe : x = e := by
      simp only [List.mem_append, List.mem_cons] at hxL hx
      tauto
    subst hxe
    rw [hentries x hx]
    exact unlinkEntry_self

end Unlink

end Stk.Model.DLists
