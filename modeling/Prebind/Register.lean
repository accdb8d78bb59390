/-!
The sixteen general-purpose registers of an x86-64 processor, in the order of their hardware
numbers, and the two halves of the register file.
-/

namespace Prebind

inductive Register where
  | rax | rcx | rdx | rbx | rsp | rbp | rsi | rdi
  | r8 | r9 | r10 | r11 | r12 | r13 | r14 | r15
  deriving DecidableEq, Repr, Inhabited

/-- The halves of the register file: an extended register needs one more bit in its instruction than
a low one. -/
inductive Register.Half where
  | low | extended
  deriving DecidableEq, Repr

namespace Register

/-- All registers, each at its number. -/
def all : List Register :=
  [.rax, .rcx, .rdx, .rbx, .rsp, .rbp, .rsi, .rdi, .r8, .r9, .r10, .r11, .r12, .r13, .r14, .r15]

def number : Register → Nat
  | .rax => 0 | .rcx => 1 | .rdx => 2 | .rbx => 3
  | .rsp => 4 | .rbp => 5 | .rsi => 6 | .rdi => 7
  | .r8 => 8 | .r9 => 9 | .r10 => 10 | .r11 => 11
  | .r12 => 12 | .r13 => 13 | .r14 => 14 | .r15 => 15

def name : Register → String
  | .rax => "rax" | .rcx => "rcx" | .rdx => "rdx" | .rbx => "rbx"
  | .rsp => "rsp" | .rbp => "rbp" | .rsi => "rsi" | .rdi => "rdi"
  | .r8 => "r8" | .r9 => "r9" | .r10 => "r10" | .r11 => "r11"
  | .r12 => "r12" | .r13 => "r13" | .r14 => "r14" | .r15 => "r15"

def half (r : Register) : Half :=
  if r.number < 8 then .low else .extended

/-- The first register of a half. -/
def Half.base : Half → Register
  | .low => .rax
  | .extended => .r8

def Half.name : Half → String
  | .low => "Low"
  | .extended => "Extended"

/-- The place of a register in its half: the three bits an instruction holds of it. -/
def place (r : Register) : Nat :=
  r.number - r.half.base.number

/-- The register at a place of a half; only the lowest three bits of the place count. -/
def ofPlace (h : Half) (place : Nat) : Register :=
  all.getD (h.base.number + place % 8) .rax

theorem ofPlace_half_place (r : Register) : ofPlace r.half r.place = r := by
  cases r <;> rfl

theorem half_ofPlace (h : Half) (place : Nat) : (ofPlace h place).half = h := by
  have each : ∀ k : Fin 8, (all.getD (h.base.number + k) .rax).half = h := by
    cases h <;> decide
  exact each ⟨place % 8, Nat.mod_lt place (by decide)⟩

theorem place_ofPlace (h : Half) (place : Nat) : (ofPlace h place).place = place % 8 := by
  have each : ∀ k : Fin 8, (all.getD (h.base.number + k) .rax).place = k := by
    cases h <;> decide
  exact each ⟨place % 8, Nat.mod_lt place (by decide)⟩

theorem place_lt (r : Register) : r.place < 8 := by
  cases r <;> decide

end Register
end Prebind
