import Mathlib.Logic.Function.Basic
import Stk.Foundation.Runs

/-!
# 64-bit values on a 32-bit CPU

`WriteVolatile64` and `ReadVolatile64` (stk_arch.h:222-318) where a pointer has four bytes: the
value is stored and loaded in two half words.  One access to a half word is one event; there is one
writer and a reader for each `r : ρ`.
-/

set_option autoImplicit false

namespace Stk.Model

/-- `static_cast<uint32_t>(value >> 32U)`. -/
def hiWord (value : BitVec 64) : BitVec 32 := (value >>> 32).setWidth 32

/-- `static_cast<uint32_t>(value)`. -/
def loWord (value : BitVec 64) : BitVec 32 := value.setWidth 32

/-- `(static_cast<uint64_t>(hi) << 32U) | static_cast<uint64_t>(lo)`. -/
def joinWords (hi lo : BitVec 32) : BitVec 64 := (hi.setWidth 64 <<< 32) ||| lo.setWidth 64

/-- Where a reader stands in `ReadVolatile64`. -/
inductive ReadPhase where
  | idle
  | retry
  | hiLoaded (hi : BitVec 32)
  | loLoaded (hi lo : BitVec 32)
deriving DecidableEq

/-- One access to a half word: a store of the writer, or the first load, the second or the
comparison of reader `r`. -/
inductive HalfAccess (ρ : Type) where
  | storeHi (value : BitVec 64)
  | storeLo
  | loadHi (r : ρ)
  | loadLo (r : ρ)
  | recheck (r : ρ)

/-- The two half words, the value that the writer has half stored, and the readers. -/
structure Volatile64 (ρ : Type) where
  hi : BitVec 32
  lo : BitVec 32
  writing : Option (BitVec 64)
  reading : ρ → ReadPhase

namespace Volatile64

variable {ρ : Type} [DecidableEq ρ]

omit [DecidableEq ρ] in
def holding (value : BitVec 64) : Volatile64 ρ := ⟨hiWord value, loWord value, none, fun _ => .idle⟩

/-- The next access, if it is one that its party has to make. -/
def step (m : Volatile64 ρ) : HalfAccess ρ → Volatile64 ρ
  | .storeHi value =>
    match m.writing with
    | none => { m with hi := hiWord value, writing := some value }
    | some _ => m
  | .storeLo =>
    match m.writing with
    | none => m
    | some value => { m with lo := loWord value, writing := none }
  | .loadHi r =>
    match m.reading r with
    | .idle | .retry => { m with reading := Function.update m.reading r (.hiLoaded m.hi) }
    | _ => m
  | .loadLo r =>
    match m.reading r with
    | .hiLoaded hi => { m with reading := Function.update m.reading r (.loLoaded hi m.lo) }
    | _ => m
  | .recheck r =>
    match m.reading r with
    | .loLoaded hi _ =>
      { m with reading := Function.update m.reading r (if hi ≠ m.hi then .retry else .idle) }
    | _ => m

/-- The value that `ReadVolatile64` returns with this access. -/
def returns (m : Volatile64 ρ) : HalfAccess ρ → Option (BitVec 64)
  | .recheck r =>
    match m.reading r with
    | .loLoaded hi lo => if hi ≠ m.hi then none else some (joinWords hi lo)
    | _ => none
  | _ => none

end Volatile64

end Stk.Model
