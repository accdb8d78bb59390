import Mathlib.Algebra.BigOperators.Ring.List
import Mathlib.Algebra.Ring.Nat
import Prebind.Proofs.Programs

/-!
A reference machine that carries out the steps of a program one by one, each as what its name says.
It has registers and memory but no code; a push of a word is one push of eight bytes. The bytes that
the assembler writes for straight-line steps do to a processor what the steps do to this machine.
-/

namespace Prebind

open Machine

structure Reference where
  registers : Register → UInt64
  memory : UInt64 → UInt8

namespace Reference

/-- The little-endian word at an address. -/
def read (m : Reference) (start : UInt64) : UInt64 :=
  .ofNat ((List.range 8).map fun i => (m.memory (start + .ofNat i)).toNat * 256 ^ i).sum

def set (m : Reference) (r : Register) (value : UInt64) : Reference :=
  { m with registers := fun s => if s = r then value else m.registers s }

/-- Puts the lowest `n` bytes of a number at an address, the least significant first. -/
def write (m : Reference) (start : UInt64) (n value : Nat) : Reference :=
  { m with
    memory := fun a =>
      if (a - start).toNat < n then .ofNat (value / 256 ^ (a - start).toNat) else m.memory a }

/-- Pushes the lowest `n` bytes of a number. -/
def push (m : Reference) (n value : Nat) : Reference :=
  let top := m.registers .rsp - .ofNat n
  (m.set .rsp top).write top n value

/-- Pops a word. The stack pointer is raised before the register is set, so that a pop into it
leaves the word there. -/
def pop (m : Reference) (dest : Register) : Reference :=
  let top := m.registers .rsp
  (m.set .rsp (top + 8)).set dest (m.read top)

/-- The machine after one more step. -/
def carryOut (m : Reference) : Step → Reference
  | .push16 value => m.push 2 value.toNat
  | .pushImmediate value => m.push 8 value.toNat
  | .pushRax => m.push 8 (m.registers .rax).toNat
  | .popRax => m.pop .rax
  | .pop dest => m.pop dest
  | .loadRax value => m.set .rax value
  | .movFromRax dest => m.set dest (m.registers .rax)
  | .movToRax source => m.set .rax (m.registers source)

def run (m : Reference) (steps : List Step) : Reference :=
  steps.foldl carryOut m

end Reference

/-- What the reference machine has of a processor. -/
def Machine.seen (m : Machine) : Reference :=
  ⟨m.registers, m.memory⟩

namespace Reference

theorem seen_set (m : Machine) (r : Register) (value : UInt64) :
    (m.set r value).seen = m.seen.set r value :=
  rfl

theorem seen_push (m : Machine) {n : Nat} (value : Nat) (small : n ≤ UInt64.size) :
    (m.push (Word.bytesOf n value)).seen = m.seen.push n value := by
  have length := Word.length_bytesOf n value
  have registers : (m.push (Word.bytesOf n value)).registers =
      (m.seen.push n value).registers := by
    rw [Machine.push, length]
    rfl
  have memory : (m.push (Word.bytesOf n value)).memory = (m.seen.push n value).memory := by
    funext a
    rw [memory_push, length, store_apply _ _ _ (by omega), Word.getD_bytesOf]
    rfl
  exact congr (congrArg Reference.mk registers) memory

/-- Little-endian bytes in memory are the digits of a sum. -/
theorem ofBytes_load (memory : UInt64 → UInt8) (a : UInt64) (n : Nat) :
    Word.ofBytes (load memory a n) =
      ((List.range n).map fun i => (memory (a + .ofNat i)).toNat * 256 ^ i).sum := by
  induction n generalizing a with
  | zero => rfl
  | succ n ih =>
      have first : (memory (a + .ofNat 0)).toNat * 256 ^ 0 = (memory a).toNat := by
        rw [Nat.pow_zero, Nat.mul_one]
        exact congrArg (fun x => (memory x).toNat) (UInt64.add_zero a)
      have others : ∀ i, (memory (a + .ofNat (i + 1))).toNat * 256 ^ (i + 1) =
          256 * ((memory (a + 1 + .ofNat i)).toNat * 256 ^ i) := by
        intro i
        rw [Word.add_one_add_ofNat, Nat.pow_succ]
        ac_rfl
      have scaled := List.sum_map_mul_left (List.range n)
        (fun i => (memory (a + 1 + .ofNat i)).toNat * 256 ^ i) 256
      rw [load, Word.ofBytes, ih, List.range_succ_eq_map, List.map_cons, List.sum_cons, first,
        List.map_map, ← scaled]
      exact congrArg (_ + List.sum ·) (List.map_congr_left fun i _ => (others i).symm)

theorem seen_read (m : Machine) (a : UInt64) :
    .ofNat (Word.ofBytes (load m.memory a 8)) = m.seen.read a :=
  congrArg UInt64.ofNat (ofBytes_load m.memory a 8)

/-- A word that is pushed is read back. -/
theorem read_push (m : Reference) (value : UInt64) :
    (m.push 8 value.toNat).read (m.registers .rsp - 8) = value := by
  let processor : Machine := { registers := m.registers, rip := 0, memory := m.memory }
  have popped := congrArg Prod.fst (popWord_pushWord processor value)
  calc (m.push 8 value.toNat).read (m.registers .rsp - 8)
      = (processor.pushWord value).seen.read ((processor.pushWord value).registers .rsp) := by
        rw [registers_pushWord_rsp, pushWord, seen_push _ _ (by decide)]
        rfl
    _ = (processor.pushWord value).popWord.1 := (seen_read _ _).symm
    _ = value := popped

theorem registers_of_push_pop (m : Reference) (value : UInt64) (r : Register) :
    ((m.carryOut (.pushImmediate value)).carryOut (.pop r)).registers r = value :=
  (if_pos rfl).trans (read_push m value)

/-- The instructions of a step do to a processor what the step does to the reference machine. -/
theorem carryOut_of_step (s : Step) (m : Machine) :
    ∃ next, carryOutAll? (s.code.map Prod.snd) m = some next ∧ next.seen = m.seen.carryOut s := by
  cases s with
  | push16 value => exact ⟨_, rfl, seen_push _ value.toNat (by decide)⟩
  | pushImmediate value =>
      obtain ⟨rip, pushed⟩ := carryOutAll?_wordPushes value m
      exact ⟨_, pushed, seen_push m value.toNat (by decide)⟩
  | pushRax => exact ⟨_, rfl, seen_push _ _ (by decide)⟩
  | popRax | pop dest =>
      refine ⟨_, rfl, ?_⟩
      rw [seen_set, carryOut, pop, ← seen_read]
      rfl
  | loadRax value | movFromRax dest | movToRax source => exact ⟨_, rfl, rfl⟩

theorem run_of_steps (steps : List Step) (m : Machine) :
    ∃ last, carryOutAll? (Program.instructions (steps.map .step)) m = some last ∧
      last.seen = m.seen.run steps := by
  induction steps generalizing m with
  | nil => exact ⟨m, rfl, rfl⟩
  | cons s rest ih =>
      obtain ⟨next, carried, stepped⟩ := carryOut_of_step s m
      obtain ⟨last, others, ended⟩ := ih next
      refine ⟨last, ?_, ?_⟩
      · rw [List.map_cons, Program.instructions_cons, carryOutAll?_append]
        exact (congrArg (Option.bind · _) carried).trans others
      · rw [ended, stepped]
        rfl

end Reference

namespace Program

theorem straight_of_step (s : Step) : ∀ i ∈ s.code.map Prod.snd, Straight i := by
  cases s with
  | pushImmediate value => exact straight_partPushes (Word.parts value)
  | _ =>
      intro i hi
      rw [List.mem_singleton.1 hi]
      trivial

theorem straight_of_steps (steps : List Step) :
    ∀ i ∈ instructions (steps.map .step), Straight i := by
  induction steps with
  | nil => nofun
  | cons s rest ih =>
      intro i hi
      rw [List.map_cons, instructions_cons] at hi
      obtain hi | hi := List.mem_append.1 hi
      · exact straight_of_step s i hi
      · exact ih i hi

/-- Steps that were written without a fault mean what they say. A machine that stands in front of
their bytes, and none of whose pushes on the way touches these bytes, gets right behind them with
the registers and the memory of the reference machine. A word that was pushed at last and popped is
then in the register. -/
theorem reference_run_of_emit {steps : List Step} {a b : Assembler} {m : Machine} {size : Nat}
    (emitted : emit (steps.map .step) a = .ok () b)
    (advanced : b.cursor.position.toNat = a.cursor.position.toNat + size)
    (loaded : ∀ i < size, b.cursor.buffer.bytes[a.cursor.position.toNat + i]? =
      some (m.memory (m.rip + .ofNat i)))
    (untouched : ∀ k < (instructions (steps.map .step)).length, ∀ s, m.steps? k = some s →
      ∀ x, Within m.rip size x → ¬ s.Touches x) :
    ∃ last, m.steps? (instructions (steps.map .step)).length = some last ∧
      last.rip = m.rip + .ofNat size ∧ last.seen = m.seen.run steps ∧
      ∀ before value r, steps = before ++ [.pushImmediate value, .pop r] →
        last.registers r = value := by
  have length : (encodeAll (instructions (steps.map .step))).length = size := by
    have position := position_of_emit emitted
    omega
  have held : Holds m.memory m.rip (encodeAll (instructions (steps.map .step)) ++ []) := by
    rw [List.append_nil]
    refine holds_of_getElem? fun i hi => ?_
    rw [← getElem?_of_emit emitted hi]
    exact loaded i (length ▸ hi)
  have spared := spares_of_untouched (straight_of_steps steps) (holds_append.1 held).1
    (fun x hx => length ▸ hx) untouched
  obtain ⟨last, carried, stepped, ended, -, -⟩ := steps?_of_spares (straight_of_steps steps) held
    (fun x hx => by rwa [List.append_nil, length] at hx) spared
  obtain ⟨other, carried', ran⟩ := Reference.run_of_steps steps m
  cases Option.some.inj (carried.symm.trans carried')
  refine ⟨last, stepped, length ▸ ended, ran, ?_⟩
  rintro before value r rfl
  have final : last.registers r =
      (m.seen.run (before ++ [.pushImmediate value, .pop r])).registers r :=
    congrFun (congrArg Reference.registers ran) r
  rw [final, Reference.run, List.foldl_append]
  exact Reference.registers_of_push_pop _ value r

theorem reference_run_of_emit_push_and_pop :
    let steps : List Step := [.pushImmediate 0x1122334455667788, .pop .rsp]
    let a : Assembler := { cursor := { buffer := .filled 32 0xCC } }
    let b := a.after (code (steps.map .step))
    let m : Machine :=
      { registers := fun r => if r = .rsp then 0x7ffe00000000 else 5
        rip := 0x7f0000000000
        memory := fun x => b.cursor.buffer.bytes.getD (x - 0x7f0000000000).toNat 0 }
    emit (steps.map .step) a = .ok () b ∧
      ∃ last, m.steps? 5 = some last ∧ last.rip = 0x7f0000000011 ∧
        last.seen = m.seen.run steps ∧ last.registers .rsp = 0x1122334455667788 := by
  intro steps a b m
  have emitted : emit (steps.map .step) a = .ok () b := by
    rw [emit_eq]
    exact Assembler.emitAll_of_room (by decide)
  have loaded : ∀ i < 17, b.cursor.buffer.bytes[(0 : UInt64).toNat + i]? =
      some (m.memory (m.rip + .ofNat i)) := by decide +kernel
  have untouched : ∀ k < 5, ∀ s, m.steps? k = some s → ∀ x, Within m.rip 17 x → ¬ s.Touches x := by
    intro k hk s reached x low touched
    have top : ∀ k < 5, (m.steps? k).map (fun s => s.registers .rsp) =
        some (0x7ffe00000000 - 2 * .ofNat k) := by decide +kernel
    have apart : ∀ k < 5, 17 ≤ (0x7ffe00000000 - 2 * .ofNat k - 8 - m.rip).toNat ∧
        8 ≤ (m.rip - (0x7ffe00000000 - 2 * .ofNat k - 8)).toNat := by decide
    have pointed := top k hk
    rw [reached] at pointed
    have below := touched.below
    rw [show s.registers .rsp = _ from Option.some.inj pointed] at below
    exact low.not_within (apart k hk).1 (apart k hk).2 below
  obtain ⟨last, stepped, ended, ran, popped⟩ :=
    reference_run_of_emit emitted (by decide) loaded untouched
  exact ⟨emitted, last, stepped, ended, ran, popped [] _ _ rfl⟩

end Program
end Prebind
