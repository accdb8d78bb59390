import Prebind.Register

/-!
Argument positions that can be bound. Positions count from one; the first argument is the caller's
own, and the calling convention passes the next three in RSI, RDX and RCX.
-/

namespace Prebind

inductive Position where
  | second | third | fourth
  deriving DecidableEq, Repr

namespace Position

def all : List Position :=
  [.second, .third, .fourth]

def index : Position → Nat
  | .second => 2
  | .third => 3
  | .fourth => 4

def register : Position → Register
  | .second => .rsi
  | .third => .rdx
  | .fourth => .rcx

def name : Position → String
  | .second => "Second"
  | .third => "Third"
  | .fourth => "Fourth"

/-- The position of an index, if it can be bound. -/
def ofIndex? (i : Nat) : Option Position :=
  match i with
  | 2 => some .second
  | 3 => some .third
  | 4 => some .fourth
  | _ => none

theorem ofIndex?_eq_some {i : Nat} {p : Position} : ofIndex? i = some p ↔ i = p.index := by
  unfold ofIndex?
  constructor
  · intro h
    split at h <;> cases h <;> rfl
  · rintro rfl
    cases p <;> rfl

/-- The indices that can be bound, as words. -/
theorem exists_ofIndex?_iff (index : UInt64) :
    (∃ p, ofIndex? index.toNat = some p) ↔ index = 2 ∨ index = 3 ∨ index = 4 := by
  constructor
  · rintro ⟨p, found⟩
    have place := ofIndex?_eq_some.1 found
    cases p with
    | second => exact .inl (UInt64.toNat_inj.1 place)
    | third => exact .inr (.inl (UInt64.toNat_inj.1 place))
    | fourth => exact .inr (.inr (UInt64.toNat_inj.1 place))
  · rintro (rfl | rfl | rfl)
    · exact ⟨.second, rfl⟩
    · exact ⟨.third, rfl⟩
    · exact ⟨.fourth, rfl⟩

/-- What is said of an index that cannot be bound. -/
def rejection (i : Nat) : String :=
  s!"invalid argument position {i} (expected 2, 3 or 4)"

end Position
end Prebind
