import Mathlib.Data.Nat.Notation
import Mathlib.Logic.Function.Basic

/-!
# Intrusive lists

`DListEntry` and `DListHead` (stk_linked_list.h): the entries are `e : ε`, the heads `h : η`, and
`closed` is the template parameter `TClosedLoop`.  A pointer that may be `NULL` is an `Option`.  An
operation gives `none` where an assertion fails, where a null pointer is dereferenced, or where a
loop does not end.
-/

set_option autoImplicit false

namespace Stk.Model

/-- The pointers of `DListEntry`. -/
structure DListEntry (ε η : Type) where
  head : Option η
  next : Option ε
  prev : Option ε
deriving DecidableEq

/-- The members of `DListHead`. -/
structure DListHead (ε : Type) where
  count : ℕ
  first : Option ε
  last : Option ε
deriving DecidableEq

/-- The memory of all entries and heads. -/
structure DLists (ε η : Type) where
  entry : ε → DListEntry ε η
  head : η → DListHead ε

namespace DLists

variable {ε η : Type}

/-- All entries and heads as constructed. -/
def initial : DLists ε η := ⟨fun _ => ⟨none, none, none⟩, fun _ => ⟨0, none, none⟩⟩

variable [DecidableEq ε] [DecidableEq η]

def setEntry (s : DLists ε η) (e : ε) (entry : DListEntry ε η) : DLists ε η :=
  { s with entry := Function.update s.entry e entry }

def setHead (s : DLists ε η) (h : η) (head : DListHead ε) : DLists ε η :=
  { s with head := Function.update s.head h head }

/-- `if (e != nullptr) { e->m_next = next; }` -/
def setNext (s : DLists ε η) (e : Option ε) (next : Option ε) : DLists ε η :=
  match e with
  | none => s
  | some e => s.setEntry e { s.entry e with next := next }

/-- `if (e != nullptr) { e->m_prev = prev; }` -/
def setPrev (s : DLists ε η) (e : Option ε) (prev : Option ε) : DLists ε η :=
  match e with
  | none => s
  | some e => s.setEntry e { s.entry e with prev := prev }

/-- `DListEntry::Link`. -/
def linkEntry (s : DLists ε η) (h : η) (e : ε) (next prev : Option ε) : DLists ε η :=
  let s := s.setEntry e ⟨some h, next, prev⟩
  let s := s.setNext (s.entry e).prev (some e)
  s.setPrev (s.entry e).next (some e)

/-- `DListEntry::Unlink`. -/
def unlinkEntry (s : DLists ε η) (e : ε) : DLists ε η :=
  let s := s.setNext (s.entry e).prev (s.entry e).next
  let s := s.setPrev (s.entry e).next (s.entry e).prev
  s.setEntry e ⟨none, none, none⟩

variable (closed : Bool)

/-- `DListHead::UpdateEnds`. -/
def updateEnds (s : DLists ε η) (h : η) : Option (DLists ε η) :=
  if (s.head h).count = 0 then
    some (s.setHead h { s.head h with first := none, last := none })
  else if closed then
    match (s.head h).first, (s.head h).last with
    | some first, some last => some ((s.setPrev (some first) (some last)).setNext (some last) (some first))
    | _, _ => none
  else
    some s

/-- `DListHead::Link`. -/
def link (s : DLists ε η) (h : η) (e : ε) (next prev : Option ε) : Option (DLists ε η) :=
  if (s.entry e).head ≠ none then
    none
  else
    let head := s.head h
    let next := if prev = none then head.first else next
    let s := s.linkEntry h e next prev
    let first :=
      if head.first = none then some e else if head.first = (s.entry e).next then some e else head.first
    let last :=
      if head.last = none then some e else if head.last = (s.entry e).prev then some e else head.last
    let s := s.setHead h ⟨head.count + 1, first, last⟩
    if closed then s.updateEnds closed h else some s

def linkBack (s : DLists ε η) (h : η) (e : ε) : Option (DLists ε η) :=
  s.link closed h e none (s.head h).last

def linkFront (s : DLists ε η) (h : η) (e : ε) : Option (DLists ε η) :=
  s.link closed h e (s.head h).last none

/-- `Link(e, p->GetNext(), p)`. -/
def linkAfter (s : DLists ε η) (h : η) (e p : ε) : Option (DLists ε η) :=
  s.link closed h e (s.entry p).next (some p)

/-- `Link(e, p, p->GetPrev())`. -/
def linkBefore (s : DLists ε η) (h : η) (e p : ε) : Option (DLists ε η) :=
  s.link closed h e (some p) (s.entry p).prev

/-- `DListHead::Unlink`; `none` is the null pointer. -/
def unlink (s : DLists ε η) (h : η) (e : Option ε) : Option (DLists ε η) :=
  match e with
  | none => none
  | some e =>
    if (s.entry e).head ≠ some h then
      none
    else
      let head := s.head h
      let first := if head.first = some e then (s.entry e).next else head.first
      let last := if head.last = some e then (s.entry e).prev else head.last
      let s := s.unlinkEntry e
      let s := s.setHead h ⟨head.count - 1, first, last⟩
      s.updateEnds closed h

/-- The entry returned and the lists after the call. -/
def popFront (s : DLists ε η) (h : η) : Option (Option ε × DLists ε η) :=
  (s.unlink closed h (s.head h).first).map fun s' => ((s.head h).first, s')

/-- The entry returned and the lists after the call. -/
def popBack (s : DLists ε η) (h : η) : Option (Option ε × DLists ε η) :=
  (s.unlink closed h (s.head h).last).map fun s' => ((s.head h).last, s')

/-- The loop of `Clear`, `n` times round at most. -/
def clearLoop (h : η) : ℕ → DLists ε η → Option (DLists ε η)
  | 0, s => if (s.head h).count = 0 then some s else none
  | n + 1, s =>
    if (s.head h).count = 0 then some s
    else (s.unlink closed h (s.head h).first).bind (clearLoop h n)

def clear (s : DLists ε η) (h : η) : Option (DLists ε η) := clearLoop closed h (s.head h).count s

/-- The loop of `RelinkTo`, `n` times round at most. -/
def relinkLoop (h dest : η) : ℕ → DLists ε η → Option (DLists ε η)
  | 0, s => if (s.head h).count = 0 then some s else none
  | n + 1, s =>
    if (s.head h).count = 0 then some s
    else match s.popFront closed h with
      | some (some e, s) => (s.linkBack closed dest e).bind (relinkLoop h dest n)
      | _ => none

def relinkTo (s : DLists ε η) (h dest : η) : Option (DLists ε η) :=
  if h = dest then none else relinkLoop closed h dest (s.head h).count s

end DLists

/-- A call of an operation of head `h`. -/
inductive DListCall (ε η : Type) where
  | linkBack (h : η) (e : ε)
  | linkFront (h : η) (e : ε)
  | linkAfter (h : η) (e p : ε)
  | linkBefore (h : η) (e p : ε)
  | unlink (h : η) (e : ε)
  | popFront (h : η)
  | popBack (h : η)
  | clear (h : η)
  | relinkTo (h dest : η)

namespace DLists

variable {ε η : Type} [DecidableEq ε] [DecidableEq η] (closed : Bool)

/-- The entry that the call returns, if it returns one, and the lists after it. -/
def perform (s : DLists ε η) : DListCall ε η → Option (Option ε × DLists ε η)
  | .linkBack h e => (s.linkBack closed h e).map (none, ·)
  | .linkFront h e => (s.linkFront closed h e).map (none, ·)
  | .linkAfter h e p => (s.linkAfter closed h e p).map (none, ·)
  | .linkBefore h e p => (s.linkBefore closed h e p).map (none, ·)
  | .unlink h e => (s.unlink closed h (some e)).map (none, ·)
  | .popFront h => s.popFront closed h
  | .popBack h => s.popBack closed h
  | .clear h => (s.clear closed h).map (none, ·)
  | .relinkTo h dest => (s.relinkTo closed h dest).map (none, ·)

end DLists

/-! ## A release build

`STK_ASSERT` is empty in a release build (stk_defs.h:405-415): `Link` of an entry that is linked, and `Unlink` of
an entry that another list holds or none, go on and rewrite the pointers they find.  An operation gives `none`
where a null pointer is dereferenced, and where an entry is taken off an empty list: its count wraps, and in a
closed list `UpdateEnds` then dereferences the null ends (an open one is only asked for what it has once linked). -/

namespace DLists

variable {ε η : Type} [DecidableEq ε] [DecidableEq η] (closed : Bool)

/-- `DListHead::Link` without its assertion that the entry is not linked. -/
def linkUnchecked (s : DLists ε η) (h : η) (e : ε) (next prev : Option ε) : Option (DLists ε η) :=
  let head := s.head h
  let next := if prev = none then head.first else next
  let s := s.linkEntry h e next prev
  let first :=
    if head.first = none then some e else if head.first = (s.entry e).next then some e else head.first
  let last :=
    if head.last = none then some e else if head.last = (s.entry e).prev then some e else head.last
  let s := s.setHead h ⟨head.count + 1, first, last⟩
  if closed then s.updateEnds closed h else some s

def linkBackUnchecked (s : DLists ε η) (h : η) (e : ε) : Option (DLists ε η) :=
  s.linkUnchecked closed h e none (s.head h).last

/-- `DListHead::Unlink` without its assertions that the entry is linked, and in this list. -/
def unlinkUnchecked (s : DLists ε η) (h : η) (e : Option ε) : Option (DLists ε η) :=
  match e with
  | none => none
  | some e =>
    let head := s.head h
    if head.count = 0 then none
    else
      let first := if head.first = some e then (s.entry e).next else head.first
      let last := if head.last = some e then (s.entry e).prev else head.last
      let s := s.unlinkEntry e
      let s := s.setHead h ⟨head.count - 1, first, last⟩
      s.updateEnds closed h

variable {closed} {s s' : DLists ε η} {h : η} {e : ε}

/-- A call that a debug build lets pass does the same in a release build. -/
theorem linkBackUnchecked_eq (hs : s.linkBack closed h e = some s') : s.linkBackUnchecked closed h e = some s' := by
  unfold linkBack link at hs
  split at hs
  · cases hs
  · exact hs

theorem unlinkUnchecked_eq (hs : s.unlink closed h (some e) = some s') (hcount : (s.head h).count ≠ 0) :
    s.unlinkUnchecked closed h (some e) = some s' := by
  unfold unlink at hs
  unfold unlinkUnchecked
  dsimp only at hs ⊢
  rw [if_neg hcount]
  split at hs
  · cases hs
  · exact hs

end DLists

end Stk.Model
