import Prebind.Proofs.Decoding
import Prebind.Proofs.MachineMemory

/-!
Code in memory, run one instruction after the other. Where the bytes of an instruction stand at the
instruction pointer, a step executes it. Where the bytes of several stand there, none of which jumps
away or writes into the code, the steps execute all of them in order and leave the code in place.
Pushes of the parts of a word amount to one push of the word.
-/

namespace Prebind
namespace Machine

/-! One instruction -/

theorem execute_canonical (i : Instruction) (m : Machine) :
    execute i.canonical m = execute i m := by
  cases i with
  | movToRax source => cases source <;> rfl
  | _ => rfl

theorem fetch?_of_holds {m : Machine} {i : Instruction} (h : Holds m.memory m.rip i.encode) :
    m.fetch? = some (i.canonical, i.encode.length) := by
  obtain ⟨rest, hrest⟩ := Nat.exists_eq_add_of_le i.length_encode_le
  have window : load m.memory m.rip Instruction.maxLength =
      i.encode ++ load m.memory (m.rip + .ofNat i.encode.length) rest := by
    rw [hrest, load_add, h]
  simp only [fetch?, window, Instruction.decode?_encode, Option.map_some, List.length_append,
    Nat.add_sub_cancel]

/-- Executes an instruction as the one at the instruction pointer. -/
def carryOut? (i : Instruction) (m : Machine) : Option Machine :=
  execute i { m with rip := m.rip + .ofNat i.encode.length }

theorem step?_of_holds {m : Machine} {i : Instruction} (h : Holds m.memory m.rip i.encode) :
    m.step? = carryOut? i m := by
  rw [step?, fetch?_of_holds h]
  exact execute_canonical i _

/-- The addresses that an instruction writes to. -/
def Writes (i : Instruction) (m : Machine) (a : UInt64) : Prop :=
  match i with
  | .pushImm16 _ => Within (m.registers .rsp - 2) 2 a
  | .pushRax => Within (m.registers .rsp - 8) 8 a
  | _ => False

/-- Behind the instruction the one next to it is executed. -/
def Straight : Instruction → Prop
  | .ret | .breakpoint => False
  | _ => True

theorem carryOut?_of_straight {i : Instruction} (straight : Straight i) (m : Machine) :
    ∃ next, carryOut? i m = some next ∧ next.rip = m.rip + .ofNat i.encode.length ∧
      ∀ a, ¬ Writes i m a → next.memory a = m.memory a := by
  cases i with
  | pushImm16 value =>
      exact ⟨_, rfl, rfl, fun a apart => store_bytesOf_of_not_within (by decide) apart⟩
  | pushRax =>
      refine ⟨_, rfl, rfl, fun a apart => ?_⟩
      exact (congrFun (memory_pushWord _ _) a).trans (store_bytesOf_of_not_within (by decide) apart)
  | pop dest | loadRax value | movFromRax dest | movToRax source =>
      exact ⟨_, rfl, rfl, fun _ _ => rfl⟩
  | ret | breakpoint => exact straight.elim

/-! Several instructions -/

def encodeAll (code : List Instruction) : List UInt8 :=
  code.flatMap Instruction.encode

theorem encodeAll_cons (i : Instruction) (rest : List Instruction) :
    encodeAll (i :: rest) = i.encode ++ encodeAll rest :=
  rfl

/-- Executes instructions in order, each as the one at the instruction pointer. -/
def carryOutAll? : List Instruction → Machine → Option Machine
  | [], m => some m
  | i :: rest, m => (carryOut? i m).bind (carryOutAll? rest)

/-- None of the instructions, executed in order, writes to an address of the region. -/
def Spares (region : UInt64 → Prop) : List Instruction → Machine → Prop
  | [], _ => True
  | i :: rest, m =>
    (∀ a, region a → ¬ Writes i m a) ∧ ∀ next, carryOut? i m = some next → Spares region rest next

theorem carryOutAll?_append (xs ys : List Instruction) (m : Machine) :
    carryOutAll? (xs ++ ys) m = (carryOutAll? xs m).bind (carryOutAll? ys) := by
  induction xs generalizing m with
  | nil => rfl
  | cons i rest ih =>
      rw [List.cons_append, carryOutAll?, carryOutAll?]
      cases carryOut? i m with
      | none => rfl
      | some next => exact ih next

theorem steps?_add (j k : Nat) (m : Machine) : m.steps? (j + k) = (m.steps? j).bind (steps? k) := by
  induction j generalizing m with
  | zero => rw [Nat.zero_add]; rfl
  | succ j ih =>
      rw [Nat.succ_add, steps?, steps?]
      cases m.step? with
      | none => rfl
      | some next => exact ih next

/-- Behind an instruction that spares them, the bytes that follow it stand at the instruction
pointer. -/
theorem holds_of_carryOut? {i : Instruction} {tail : List UInt8} {m next : Machine}
    (straight : Straight i) (held : Holds m.memory m.rip (i.encode ++ tail))
    (spared : ∀ a, Within m.rip (i.encode ++ tail).length a → ¬ Writes i m a)
    (executed : carryOut? i m = some next) : Holds next.memory next.rip tail := by
  obtain ⟨other, executed', moved, framed⟩ := carryOut?_of_straight straight m
  cases Option.some.inj (executed.symm.trans executed')
  rw [moved]
  refine (holds_append.1 held).2.congr fun a ha => framed a (spared a ?_)
  exact ha.widen (Nat.le_of_eq List.length_append.symm)

/-- Straight code that spares itself and the bytes behind it is executed by as many steps as it has
instructions. -/
theorem steps?_of_spares {region : UInt64 → Prop} {code : List Instruction} {behind : List UInt8}
    {m : Machine} (straight : ∀ i ∈ code, Straight i)
    (held : Holds m.memory m.rip (encodeAll code ++ behind))
    (covered : ∀ a, Within m.rip (encodeAll code ++ behind).length a → region a)
    (spared : Spares region code m) :
    ∃ last, carryOutAll? code m = some last ∧ m.steps? code.length = some last ∧
      last.rip = m.rip + .ofNat (encodeAll code).length ∧
      Holds last.memory last.rip behind ∧ ∀ a, region a → last.memory a = m.memory a := by
  induction code generalizing m with
  | nil => exact ⟨m, rfl, rfl, (UInt64.add_zero _).symm, held, fun _ _ => rfl⟩
  | cons i rest ih =>
      rw [encodeAll_cons, List.append_assoc] at held covered
      have along := straight i List.mem_cons_self
      obtain ⟨next, executed, moved, framed⟩ := carryOut?_of_straight along m
      have ahead := holds_of_carryOut? along held (fun a ha => spared.1 a (covered a ha)) executed
      have inside : ∀ a, Within next.rip (encodeAll rest ++ behind).length a → region a := by
        intro a ha
        rw [moved] at ha
        exact covered a (ha.widen (Nat.le_of_eq List.length_append.symm))
      obtain ⟨last, carried, stepped, ended, stands, same⟩ :=
        ih (fun j hj => straight j (List.mem_cons_of_mem i hj)) ahead inside
          (spared.2 next executed)
      refine ⟨last, ?_, ?_, ?_, stands, fun a ha => ?_⟩
      · rw [carryOutAll?, executed]
        exact carried
      · rw [List.length_cons, steps?, step?_of_holds (holds_append.1 held).1, executed]
        exact stepped
      · rw [ended, moved, encodeAll_cons, List.length_append, UInt64.ofNat_add, UInt64.add_assoc]
      · exact (same a ha).trans (framed a (spared.1 a ha))

/-- The instruction at the instruction pointer writes to an address. -/
def Touches (m : Machine) (a : UInt64) : Prop :=
  ∃ i n, m.fetch? = some (i, n) ∧ Writes i m a

/-- Only the eight bytes below the stack pointer are touched. -/
theorem Touches.below {m : Machine} {a : UInt64} (h : m.Touches a) :
    Within (m.registers .rsp - 8) 8 a := by
  obtain ⟨i, n, -, written⟩ := h
  cases i with
  | pushImm16 value =>
      have top : m.registers .rsp - 2 = m.registers .rsp - 8 + .ofNat 6 := by grind
      change Within (m.registers .rsp - 2) 2 a at written
      rw [top] at written
      exact written.widen (by decide)
  | pushRax => exact written
  | _ => exact written.elim

theorem writes_canonical (i : Instruction) (m : Machine) : Writes i.canonical m = Writes i m := by
  cases i with
  | movToRax source => cases source <;> rfl
  | _ => rfl

/-- Straight code spares a region that holds it if none of the steps through it touches the
region. -/
theorem spares_of_untouched {region : UInt64 → Prop} {code : List Instruction} {m : Machine}
    (straight : ∀ i ∈ code, Straight i)
    (held : Holds m.memory m.rip (encodeAll code))
    (covered : ∀ a, Within m.rip (encodeAll code).length a → region a)
    (untouched : ∀ k < code.length, ∀ s, m.steps? k = some s → ∀ a, region a → ¬ s.Touches a) :
    Spares region code m := by
  induction code generalizing m with
  | nil => trivial
  | cons i rest ih =>
      rw [encodeAll_cons] at held covered
      have along := straight i List.mem_cons_self
      have first := (holds_append.1 held).1
      have spared : ∀ a, region a → ¬ Writes i m a := by
        intro a ha written
        rw [← writes_canonical] at written
        exact untouched 0 (Nat.zero_lt_succ _) m rfl a ha ⟨_, _, fetch?_of_holds first, written⟩
      refine ⟨spared, fun next executed => ?_⟩
      obtain ⟨other, executed', moved, -⟩ := carryOut?_of_straight along m
      cases Option.some.inj (executed.symm.trans executed')
      apply ih fun j hj => straight j (List.mem_cons_of_mem i hj)
      · exact holds_of_carryOut? along held (fun a ha => spared a (covered a ha)) executed
      · intro a ha
        rw [moved] at ha
        exact covered a (ha.widen (Nat.le_of_eq List.length_append.symm))
      · -- Step `k` of the rest is step `k + 1` of the whole.
        intro k hk s reached
        refine untouched (k + 1) (Nat.succ_lt_succ hk) s ?_
        rw [steps?, step?_of_holds first, executed]
        exact reached

/-! A word pushed in parts -/

def partPushes (parts : List UInt16) : List Instruction :=
  parts.map .pushImm16

theorem straight_partPushes (parts : List UInt16) : ∀ i ∈ partPushes parts, Straight i := by
  intro i hi
  obtain ⟨part, -, rfl⟩ := List.mem_map.1 hi
  trivial

/-- The bytes that parts leave on the stack, the last part on top. -/
def partBytes (parts : List UInt16) : List UInt8 :=
  parts.reverse.flatMap fun part => Word.bytesOf 2 part.toNat

theorem partBytes_cons (part : UInt16) (rest : List UInt16) :
    partBytes (part :: rest) = partBytes rest ++ Word.bytesOf 2 part.toNat := by
  rw [partBytes, List.reverse_cons, List.flatMap_append]
  simp only [List.flatMap_cons, List.flatMap_nil, List.append_nil, partBytes]

theorem length_partBytes (parts : List UInt16) : (partBytes parts).length = 2 * parts.length := by
  induction parts with
  | nil => rfl
  | cons part rest ih =>
      rw [partBytes_cons, List.length_append, ih, Word.length_bytesOf, List.length_cons]
      rfl

theorem carryOutAll?_partPushes (parts : List UInt16) (m : Machine)
    (fits : 2 * parts.length ≤ UInt64.size) :
    ∃ rip, carryOutAll? (partPushes parts) m = some { m.push (partBytes parts) with rip } := by
  induction parts generalizing m with
  | nil => exact ⟨m.rip, congrArg some (push_nil m).symm⟩
  | cons part rest ih =>
      rw [List.length_cons] at fits
      let length := (Instruction.pushImm16 part).encode.length
      let moved : Machine := { m with rip := m.rip + .ofNat length }
      have joined : (partBytes rest).length + (Word.bytesOf 2 part.toNat).length ≤ UInt64.size := by
        rw [length_partBytes, Word.length_bytesOf]
        exact fits
      obtain ⟨rip, others⟩ := ih (moved.push (Word.bytesOf 2 part.toNat)) (by omega)
      rw [push_push joined, ← partBytes_cons] at others
      exact ⟨rip, others⟩

/-- The pushes of all parts of a word are one push of the word. -/
theorem carryOutAll?_wordPushes (w : UInt64) (m : Machine) :
    ∃ rip, carryOutAll? (partPushes (Word.parts w)) m = some { m.pushWord w with rip } := by
  have word : partBytes (Word.parts w) = Word.bytesOf 8 w.toNat := Word.flatMap_parts_reverse w
  have fits : 2 * (Word.parts w).length ≤ UInt64.size := by
    change 8 ≤ UInt64.size
    decide
  obtain ⟨rip, pushed⟩ := carryOutAll?_partPushes (Word.parts w) m fits
  rw [word] at pushed
  exact ⟨rip, pushed⟩

theorem spares_partPushes {region : UInt64 → Prop} {parts : List UInt16} {m : Machine}
    (apart : ∀ a, region a →
      ¬ Within (m.registers .rsp - .ofNat (2 * parts.length)) (2 * parts.length) a) :
    Spares region (partPushes parts) m := by
  induction parts generalizing m with
  | nil => trivial
  | cons part rest ih =>
      have total : 2 * (rest.length + 1) = 2 * rest.length + 2 := rfl
      have low : m.registers .rsp - 2 - .ofNat (2 * rest.length) =
          m.registers .rsp - .ofNat (2 * (rest.length + 1)) + .ofNat 0 := by
        rw [total, UInt64.ofNat_add]
        grind
      have high : m.registers .rsp - 2 =
          m.registers .rsp - .ofNat (2 * (rest.length + 1)) + .ofNat (2 * rest.length) := by
        rw [total, UInt64.ofNat_add]
        grind
      rw [List.length_cons] at apart
      refine ⟨fun a ha written => ?_, fun next executed => ih fun a ha written => ?_⟩
      · change Within (m.registers .rsp - 2) 2 a at written
        rw [high] at written
        exact apart a ha (written.widen (Nat.le_refl _))
      · have top : next.registers .rsp = m.registers .rsp - 2 := by
          rw [← Option.some.inj executed, registers_push_rsp, Word.length_bytesOf]
          rfl
        rw [top, low] at written
        exact apart a ha (written.widen (by omega))

end Machine
end Prebind
