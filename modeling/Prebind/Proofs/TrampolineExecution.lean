import Prebind.Proofs.Emission
import Prebind.Proofs.StraightLine

/-!
What a trampoline does when it is run. Its pushes leave the address of the function on the stack as
one word, and its return takes that word off again. So it hands over to the function with the
argument in its register and the stack where it was, and no more than RAX and the eight bytes below
the stack pointer are spent.
-/

namespace Prebind
namespace Trampoline

open Machine

/-- The instructions of a trampoline in front of its return. -/
def loading (function argument : UInt64) (position : Position) : List Instruction :=
  [.loadRax argument, .movFromRax position.register] ++ partPushes (Word.parts function)

theorem bytes_eq_loading (function argument : UInt64) (position : Position) :
    bytes function argument position =
      encodeAll (loading function argument position) ++ Instruction.ret.encode := by
  have whole : code function argument position = loading function argument position ++ [.ret] := rfl
  rw [bytes, whole, List.flatMap_append]
  rfl

theorem straight_loading (function argument : UInt64) (position : Position) :
    ∀ i ∈ loading function argument position, Straight i := by
  intro i hi
  obtain hi | hi := List.mem_append.1 hi
  · obtain rfl | hi := List.mem_cons.1 hi
    · trivial
    · rw [List.mem_singleton.1 hi]
      trivial
  · exact straight_partPushes _ i hi

/-- The machine with the argument in its places. -/
def supplied (m : Machine) (argument : UInt64) (position : Position) : Machine :=
  (m.set .rax argument).set position.register argument

theorem registers_supplied_rsp (m : Machine) (argument : UInt64) (position : Position) :
    (supplied m argument position).registers .rsp = m.registers .rsp := by
  cases position <;> rfl

theorem carryOutAll?_loading (m : Machine) (function argument : UInt64) (position : Position) :
    ∃ rip, carryOutAll? (loading function argument position) m =
      some { (supplied m argument position).pushWord function with rip } := by
  obtain ⟨start, moved⟩ : ∃ start,
      carryOutAll? [.loadRax argument, .movFromRax position.register] m =
        some { supplied m argument position with rip := start } := ⟨_, rfl⟩
  obtain ⟨rip, pushed⟩ := carryOutAll?_wordPushes function
    { supplied m argument position with rip := start }
  refine ⟨rip, ?_⟩
  rw [loading, carryOutAll?_append, moved, Option.bind_some, pushed]
  rfl

theorem spares_loading {region : UInt64 → Prop} {m : Machine} (function argument : UInt64)
    (position : Position) (apart : ∀ a, region a → ¬ Within (m.registers .rsp - 8) 8 a) :
    Spares region (loading function argument position) m := by
  refine ⟨fun _ _ => id, fun next executed => ⟨fun _ _ => id, fun moved executed' => ?_⟩⟩
  have top : moved.registers .rsp = m.registers .rsp := by
    rw [← Option.some.inj executed', ← Option.some.inj executed]
    exact registers_supplied_rsp m argument position
  apply spares_partPushes
  rw [top]
  exact apart

/-- The machine as a trampoline hands it over to its function. -/
def handOver (m : Machine) (function argument : UInt64) (position : Position) : Machine :=
  { supplied m argument position with
    rip := function
    memory := store m.memory (m.registers .rsp - 8) (Word.bytesOf 8 function.toNat) }

/-- A return goes where the stack says, wherever it stands itself. -/
theorem carryOut?_ret (m : Machine) (rip : UInt64) :
    carryOut? .ret { m with rip } = some { m.popWord.2 with rip := m.popWord.1 } :=
  rfl

/-- The return takes off the stack what the pushes have put there. -/
theorem carryOut?_ret_of_loaded (m : Machine) (function argument rip : UInt64)
    (position : Position) :
    carryOut? .ret { (supplied m argument position).pushWord function with rip } =
      some (handOver m function argument position) := by
  have top := registers_supplied_rsp m argument position
  rw [carryOut?_ret, popWord_pushWord, top]
  refine congrArg some (eq_of_registers (fun r => ?_) rfl ?_)
  · change (set (pushWord _ function) .rsp (m.registers .rsp)).registers r =
      (supplied m argument position).registers r
    by_cases h : r = .rsp
    · rw [h, registers_set_self, top]
    · rw [registers_set_of_ne h, registers_pushWord_of_ne h]
  · rw [memory_set, memory_pushWord, top]
    rfl

/-- Seven steps through the bytes of a trampoline, wherever they stand, are its hand-over. -/
theorem steps?_of_holds {m : Machine} {function argument : UInt64} {position : Position}
    (held : Holds m.memory m.rip (bytes function argument position))
    (apart : ∀ a, Within m.rip size a → ¬ Within (m.registers .rsp - 8) 8 a) :
    m.steps? 7 = some (handOver m function argument position) := by
  have covered : ∀ a, Within m.rip (bytes function argument position).length a →
      Within m.rip size a := by
    rw [length_bytes]
    exact fun _ => id
  rw [bytes_eq_loading] at held covered
  obtain ⟨last, carried, stepped, -, returning, -⟩ :=
    steps?_of_spares (straight_loading function argument position) held covered
      (spares_loading function argument position apart)
  obtain ⟨rip, loaded⟩ := carryOutAll?_loading m function argument position
  have here : last = { (supplied m argument position).pushWord function with rip } :=
    Option.some.inj (carried.symm.trans loaded)
  have six : (loading function argument position).length = 6 := rfl
  rw [six] at stepped
  rw [steps?_add 6 1, stepped, Option.bind_some, steps?, step?_of_holds returning, here,
    carryOut?_ret_of_loaded]
  rfl

end Trampoline

namespace Assembler

open Machine

theorem bind_of_index (function argument : UInt64) (position : Position) :
    bind function argument (.ofNat position.index) = emitTrampoline function argument position := by
  cases position <;> rfl

theorem getElem?_of_emitted {function argument entry : UInt64} {position : Position}
    {a b : Assembler} (emitted : emitTrampoline function argument position a = .ok entry b)
    {i : Nat} (hi : i < Trampoline.size) :
    b.cursor.buffer.bytes[entry.toNat + i]? =
      (Trampoline.bytes function argument position)[i]? := by
  obtain ⟨room, rfl, written⟩ := emitTrampoline_eq_ok emitted
  have hlen := Trampoline.length_bytes function argument position
  rw [written, Cursor.put, Buffer.getElem?_overwrite_of_inside (by omega) (by omega)]

/-- A trampoline that was written without a fault does what it promises. On every machine that has
its bytes at the entry, and none of them among the eight below the stack pointer, seven steps lead
to the function with the argument in RAX and in the register of the position. Every other register
is as before, and so is the memory outside these eight bytes. -/
theorem run_of_emitted {function argument entry base : UInt64} {position : Position}
    {a b : Assembler} {m : Machine}
    (emitted : emitTrampoline function argument position a = .ok entry b ∨
      bind function argument (.ofNat position.index) a = .ok entry b)
    (loaded : ∀ i < Trampoline.size, b.cursor.buffer.bytes[entry.toNat + i]? =
      some (m.memory (base + entry + .ofNat i)))
    (entered : m.rip = base + entry)
    (apart : ∀ x, Within m.rip Trampoline.size x → ¬ Within (m.registers .rsp - 8) 8 x) :
    ∃ last, m.steps? 7 = some last ∧ last.rip = function ∧ last.registers .rax = argument ∧
      last.registers position.register = argument ∧
      (∀ r, r ≠ .rax → r ≠ position.register → last.registers r = m.registers r) ∧
      ∀ x, ¬ Within (m.registers .rsp - 8) 8 x → last.memory x = m.memory x := by
  rw [bind_of_index, or_self] at emitted
  have hlen := Trampoline.length_bytes function argument position
  have held : Holds m.memory m.rip (Trampoline.bytes function argument position) := by
    apply holds_of_getElem?
    intro i hi
    rw [hlen] at hi
    rw [← getElem?_of_emitted emitted hi, loaded i hi, entered]
  refine ⟨_, Trampoline.steps?_of_holds held apart, rfl, ?_, ?_, ?_, ?_⟩
  · cases position <;> rfl
  · exact registers_set_self ..
  · intro r hrax hposition
    exact (registers_set_of_ne hposition).trans (registers_set_of_ne hrax)
  · intro x outside
    exact store_bytesOf_of_not_within (by decide) outside

theorem run_of_emitted_in_filled_buffer :
    let a : Assembler := { cursor := { buffer := .filled 45 0xCC } }
    let b := (a.announce 0x1122334455667788 42 .second).after
      (trampolineCode 0x1122334455667788 42 .second)
    let m : Machine :=
      { registers := fun r => if r = .rsp then 0x7ffe00000000 else 5
        rip := 0x7f0000000000
        memory := fun x => b.cursor.buffer.bytes.getD (x - 0x7f0000000000).toNat 0 }
    emitTrampoline 0x1122334455667788 42 .second a = .ok 0 b ∧
      ∃ last, m.steps? 7 = some last ∧ last.rip = 0x1122334455667788 ∧
        last.registers .rsi = 42 ∧ last.registers .rdi = 5 := by
  intro a b m
  have emitted : emitTrampoline 0x1122334455667788 42 .second a = .ok 0 b :=
    emitTrampoline_of_room (a := a) (by decide)
  have loaded : ∀ i < Trampoline.size, b.cursor.buffer.bytes[(0 : UInt64).toNat + i]? =
      some (m.memory (0x7f0000000000 + 0 + .ofNat i)) := by
    intro i hi
    have distance : (UInt64.ofNat i).toNat = i :=
      UInt64.toNat_ofNat_of_lt' (Nat.lt_trans hi (by decide))
    have inside : i < b.cursor.buffer.bytes.length := by
      rw [b.cursor.buffer.length_eq]
      exact Nat.lt_trans hi (by decide)
    have stored : m.memory (0x7f0000000000 + 0 + .ofNat i) = b.cursor.buffer.bytes[i] := by
      change b.cursor.buffer.bytes.getD _ 0 = _
      rw [UInt64.add_zero, Word.add_sub_self_left, distance, List.getD_eq_getElem _ _ inside]
    rw [stored, UInt64.toNat_zero, Nat.zero_add, List.getElem?_eq_getElem inside]
  have apart : ∀ x, Within m.rip Trampoline.size x → ¬ Within (m.registers .rsp - 8) 8 x :=
    fun x low => low.not_within (by decide) (by decide)
  obtain ⟨last, stepped, there, -, given, others, -⟩ :=
    run_of_emitted (.inl emitted) loaded rfl apart
  exact ⟨emitted, last, stepped, there, given, others .rdi (by decide) (by decide)⟩

end Assembler
end Prebind
