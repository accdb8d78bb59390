import Prebind.Machine.Call
import Prebind.Proofs.TrampolineExecution

/-!
Calls of trampolines by the calling convention. A caller enters with the first arguments in their
registers and a return address on the stack. A trampoline adds the argument that it binds and passes
on to its function, which then finds all arguments in their places and returns to the caller.
-/

namespace Prebind
namespace Machine

/-! Entering -/

def setAll (m : Machine) (places : List Register) (values : List UInt64) : Machine :=
  (places.zip values).foldl (fun m (r, value) => m.set r value) m

theorem registers_setAll_of_not_mem {places : List Register} {values : List UInt64} {m : Machine}
    {r : Register} (h : r ∉ places) : (m.setAll places values).registers r = m.registers r := by
  induction places generalizing m values with
  | nil => rfl
  | cons place others ih =>
      rw [List.mem_cons, not_or] at h
      cases values with
      | nil => rfl
      | cons value rest => exact (ih h.2).trans (registers_set_of_ne h.1)

theorem memory_setAll (m : Machine) (places : List Register) (values : List UInt64) :
    (m.setAll places values).memory = m.memory := by
  induction places generalizing m values with
  | nil => rfl
  | cons place others ih =>
      cases values with
      | nil => rfl
      | cons value rest => exact ih (m.set place value) rest

theorem map_registers_setAll {places : List Register} {values : List UInt64} (m : Machine)
    (distinct : places.Nodup) (enough : values.length ≤ places.length) :
    (places.take values.length).map (m.setAll places values).registers = values := by
  induction values generalizing places m with
  | nil => rfl
  | cons value rest ih =>
      cases places with
      | nil => cases enough
      | cons place others =>
          rw [List.nodup_cons] at distinct
          have first : ((m.set place value).setAll others rest).registers place = value := by
            rw [registers_setAll_of_not_mem distinct.1, registers_set_self]
          have later := ih (m.set place value) distinct.2 (Nat.le_of_succ_le_succ enough)
          rw [List.length_cons, List.take_succ_cons, List.map_cons]
          exact congrArg₂ List.cons first later

theorem enter_eq (m : Machine) (entry back : UInt64) (arguments : List UInt64) :
    m.enter entry back arguments =
      { (m.setAll argumentRegisters arguments).pushWord back with rip := entry } :=
  rfl

theorem registers_enter_rsp (m : Machine) (entry back : UInt64) (arguments : List UInt64) :
    (m.enter entry back arguments).registers .rsp = m.registers .rsp - 8 := by
  have other : Register.rsp ∉ argumentRegisters := by decide
  rw [enter_eq, registers_pushWord_rsp, registers_setAll_of_not_mem other]

theorem memory_enter (m : Machine) (entry back : UInt64) (arguments : List UInt64) :
    (m.enter entry back arguments).memory =
      store m.memory (m.registers .rsp - 8) (Word.bytesOf 8 back.toNat) := by
  have other : Register.rsp ∉ argumentRegisters := by decide
  rw [enter_eq, memory_pushWord, registers_setAll_of_not_mem other, memory_setAll]

/-- A callee finds the arguments in their registers. -/
theorem map_registers_enter (m : Machine) (entry back : UInt64) {arguments : List UInt64}
    (few : arguments.length ≤ argumentRegisters.length) :
    (argumentRegisters.take arguments.length).map (m.enter entry back arguments).registers =
      arguments := by
  have found := map_registers_setAll m (by decide) few
  refine (List.map_congr_left fun r hr => ?_).trans found
  have other : r ≠ .rsp := fun same => by
    rw [same] at hr
    exact absurd (List.mem_of_mem_take hr) (by decide)
  exact registers_pushWord_of_ne other

/-- A callee finds the return address on top of the stack. -/
theorem holds_enter (m : Machine) (entry back : UInt64) (arguments : List UInt64) :
    Holds (m.enter entry back arguments).memory ((m.enter entry back arguments).registers .rsp)
      (Word.bytesOf 8 back.toNat) := by
  rw [registers_enter_rsp, memory_enter]
  exact holds_store_word ..

/-- Bytes apart from the stack are still in memory. -/
theorem Holds.enter {m : Machine} {start : UInt64} {bytes : List UInt8}
    (h : Holds m.memory start bytes)
    (apart : ∀ x, Within start bytes.length x → ¬ Within (m.registers .rsp - 8) 8 x)
    (entry back : UInt64) (arguments : List UInt64) :
    Holds (m.enter entry back arguments).memory start bytes := by
  rw [memory_enter]
  exact h.congr fun x hx => store_bytesOf_of_not_within (by decide) (apart x hx)

/-! Functions -/

/-- Started at its address, the code is a function of its first arguments. It leaves the result in
RAX and returns to the address on top of the stack, which it takes off. -/
structure ActsAs (body : Machine → Machine) (function : UInt64) (arity : Nat)
    (f : List UInt64 → UInt64) : Prop where
  result : ∀ m : Machine, m.rip = function →
    (body m).registers .rax = f ((argumentRegisters.take arity).map m.registers)
  returns : ∀ m : Machine, m.rip = function → (body m).rip = m.popWord.1
  stack : ∀ m : Machine, m.rip = function →
    (body m).registers .rsp = m.registers .rsp + 8

theorem actsAs_runNative (n : Native) (function : UInt64) :
    ActsAs (runNative n) function n.arity n.apply where
  result _ _ := rfl
  returns _ _ := rfl
  stack _ _ := rfl

variable {body : Machine → Machine} {function : UInt64} {f : List UInt64 → UInt64}

/-- What the caller of a function gets back. -/
theorem ActsAs.call {arguments : List UInt64} (acts : ActsAs body function arguments.length f)
    (few : arguments.length ≤ argumentRegisters.length) (m : Machine) (back : UInt64) :
    (body (m.enter function back arguments)).rip = back ∧
      (body (m.enter function back arguments)).registers .rax = f arguments ∧
      (body (m.enter function back arguments)).registers .rsp = m.registers .rsp := by
  refine ⟨?_, ?_, ?_⟩
  · rw [acts.returns _ rfl, popWord_of_holds (holds_enter ..)]
  · rw [acts.result _ rfl, map_registers_enter _ _ _ few]
  · rw [acts.stack _ rfl, registers_enter_rsp, UInt64.sub_add_cancel]

end Machine

namespace Trampoline

open Machine

/-- A trampoline adds its argument behind those of the caller. -/
theorem map_registers_handOver {m : Machine} {arguments : List UInt64} {position : Position}
    (function argument : UInt64)
    (given : (argumentRegisters.take (position.index - 1)).map m.registers = arguments) :
    (argumentRegisters.take position.index).map (handOver m function argument position).registers =
      arguments ++ [argument] := by
  have split : argumentRegisters.take position.index =
      argumentRegisters.take (position.index - 1) ++ [position.register] := by
    cases position <;> rfl
  have others : ∀ r ∈ argumentRegisters.take (position.index - 1),
      r ≠ .rax ∧ r ≠ position.register := by
    cases position <;> decide
  rw [split, List.map_append, ← given]
  refine congrArg₂ (· ++ ·) (List.map_congr_left fun r hr => ?_) ?_
  · exact (registers_set_of_ne (others r hr).2).trans (registers_set_of_ne (others r hr).1)
  · rw [List.map_singleton]
    exact congrArg (fun value => [value]) (registers_set_self ..)

/-- The word on top of the stack is still there. -/
theorem holds_handOver {m : Machine} {w : UInt64}
    (h : Holds m.memory (m.registers .rsp) (Word.bytesOf 8 w.toNat)) (function argument : UInt64)
    (position : Position) :
    Holds (handOver m function argument position).memory
      ((handOver m function argument position).registers .rsp) (Word.bytesOf 8 w.toNat) := by
  have same : (handOver m function argument position).registers .rsp = m.registers .rsp :=
    registers_supplied_rsp ..
  have above : m.registers .rsp - 8 - m.registers .rsp = 0xFFFFFFFFFFFFFFF8 := by grind
  have below : m.registers .rsp - (m.registers .rsp - 8) = 8 := by grind
  rw [same]
  refine h.congr fun x hx => store_bytesOf_of_not_within (by decide) ?_
  rw [Word.length_bytesOf] at hx
  exact hx.not_within (by rw [above]; decide) (by rw [below]; decide)

variable {body : Machine → Machine} {function argument entry : UInt64} {position : Position}
  {f : List UInt64 → UInt64} {m : Machine}

/-- Calling a trampoline with all arguments but the one that it binds reaches its function, and the
function's answer to all of them comes back to the caller. -/
theorem call_of_holds {arguments : List UInt64}
    (held : Holds m.memory entry (bytes function argument position))
    (apart : ∀ x, Within entry size x → ¬ Within (m.registers .rsp - 16) 16 x)
    (count : arguments.length + 1 = position.index)
    (acts : ActsAs body function position.index f) (back : UInt64) :
    ∃ last, (m.enter entry back arguments).steps? 7 = some last ∧ last.rip = function ∧
      (body last).rip = back ∧
      (body last).registers .rax = f (arguments ++ [argument]) ∧
      (body last).registers .rsp = m.registers .rsp := by
  have few : arguments.length ≤ argumentRegisters.length := by
    have places : position.index ≤ argumentRegisters.length := by cases position <;> decide
    omega
  have given : (argumentRegisters.take (position.index - 1)).map
      (m.enter entry back arguments).registers = arguments := by
    rw [← count, Nat.add_sub_cancel]
    exact map_registers_enter _ _ _ few
  -- The call and the trampoline spend eight bytes each, in the upper and the lower half.
  have high : m.registers .rsp - 8 = m.registers .rsp - 16 + .ofNat 8 := by grind
  have low : m.registers .rsp - 8 - 8 = m.registers .rsp - 16 + .ofNat 0 := by grind
  have top := registers_enter_rsp m entry back arguments
  have entered : Holds (m.enter entry back arguments).memory entry
      (bytes function argument position) := by
    refine held.enter (fun x hx written => ?_) entry back arguments
    rw [length_bytes] at hx
    rw [high] at written
    exact apart x hx (written.widen (Nat.le_refl _))
  have clear : ∀ x, Within entry size x →
      ¬ Within ((m.enter entry back arguments).registers .rsp - 8) 8 x := by
    intro x hx written
    rw [top, low] at written
    exact apart x hx (written.widen (by decide))
  have waiting := holds_handOver (holds_enter m entry back arguments) function argument position
  refine ⟨_, steps?_of_holds entered clear, rfl, ?_, ?_, ?_⟩
  · rw [acts.returns _ rfl, popWord_of_holds waiting]
  · rw [acts.result _ rfl, map_registers_handOver _ _ given]
  · rw [acts.stack _ rfl]
    change (supplied _ argument position).registers .rsp + 8 = _
    rw [registers_supplied_rsp, top, UInt64.sub_add_cancel]

end Trampoline
end Prebind
