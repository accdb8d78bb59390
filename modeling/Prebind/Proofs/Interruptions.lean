import Prebind.Proofs.Logging

/-!
What a step of several instructions leaves behind in a buffer that is too short for it. The margin
is looked for behind each write, so the instruction that loses it is still written wherever the
buffer holds it. In front of this instruction the step has gone on as in a longer buffer, and behind
it nothing is begun.
-/

namespace Prebind

namespace Cursor

/-- One cursor leads to another by writing bytes: they stand where the first cursor was, the second
stands behind them, and nothing else has changed. -/
structure Puts (c : Cursor) (bytes : List UInt8) (d : Cursor) : Prop where
  length_eq : d.buffer.length = c.buffer.length
  position : d.position.toNat = c.position.toNat + bytes.length
  written : ∀ i < bytes.length, d.buffer.bytes[c.position.toNat + i]? = bytes[i]?
  same : ∀ i, i < c.position.toNat ∨ c.position.toNat + bytes.length ≤ i →
    d.buffer.bytes[i]? = c.buffer.bytes[i]?

theorem puts_nil (c : Cursor) : c.Puts [] c where
  length_eq := rfl
  position := rfl
  written := fun _ h => absurd h (Nat.not_lt_zero _)
  same := fun _ _ => rfl

theorem puts_put {c : Cursor} {bytes : List UInt8}
    (fits : c.position.toNat + bytes.length ≤ c.buffer.length) : c.Puts bytes (c.put bytes) where
  length_eq := length_put c bytes
  position := position_put fits
  written := fun _ h => Buffer.getElem?_overwrite_of_inside fits h
  same := fun _ outside => Buffer.getElem?_overwrite_of_outside _ _ _ outside

/-- Where code ends that is written from a cursor on. -/
def stop (c : Cursor) (code : List (String × Instruction)) : Nat :=
  c.position.toNat + (Assembler.bytesOf code).length

theorem stop_append (c : Cursor) (xs ys : List (String × Instruction)) :
    c.stop (xs ++ ys) = c.stop xs + (Assembler.bytesOf ys).length := by
  rw [stop, stop, Assembler.bytesOf_append, List.length_append, Nat.add_assoc]

theorem stop_take_le (c : Cursor) (code : List (String × Instruction)) (n : Nat) :
    c.stop (code.take n) ≤ c.stop code := by
  conv => rhs; rw [← List.take_append_drop n code, stop_append]
  exact Nat.le_add_right ..

end Cursor

namespace Assembler

variable {code : List (String × Instruction)} {a : Assembler}

/-- Code without room for all of it is written up to an instruction that finds no margin behind it.
This instruction is written as well, if the buffer holds it. -/
theorem emitAll_of_short (some : code ≠ [])
    (short : a.cursor.buffer.length < a.cursor.stop code + Instruction.maxLength) :
    ∃ front name i rest f b, code = front ++ (name, i) :: rest ∧ emitAll code a = .error f b ∧
      (front = [] ∨ a.cursor.stop front + Instruction.maxLength ≤ a.cursor.buffer.length) ∧
      (if a.cursor.stop (front ++ [(name, i)]) ≤ a.cursor.buffer.length then
        a.cursor.buffer.length < a.cursor.stop (front ++ [(name, i)]) + Instruction.maxLength ∧
          b.cursor = a.cursor.put (bytesOf (front ++ [(name, i)])) ∧ f = b.cursor.lostMargin
      else b.cursor = a.cursor.put (bytesOf front) ∧ (f = .bounds ∨ f = .arithmetic)) := by
  cases emitted : emitAll code a with
  | ok _ b =>
      obtain ⟨-, none | room⟩ := emitAll_eq_ok emitted
      · exact absurd none some
      · rw [Cursor.stop] at short
        omega
  | error f b =>
      obtain ⟨front, name, i, rest, split, written, met⟩ := emitAll_eq_error emitted
      have room := (emitAll_eq_ok written).2
      have place := position_after written
      have length := length_after a front
      have stop : a.cursor.stop (front ++ [(name, i)]) =
          (a.after front).cursor.position.toNat + i.encode.length := by
        rw [Cursor.stop_append, bytesOf_single, place]
        rfl
      refine ⟨front, name, i, rest, f, b, split, rfl, room, ?_⟩
      rw [stop, ← length]
      by_cases fits : (a.after front).cursor.position.toNat + i.encode.length ≤
          (a.after front).cursor.buffer.length
      · rw [if_pos fits]
        have joined : (a.after front).after [(name, i)] = a.after (front ++ [(name, i)]) := by
          apply after_append
          rw [← length]
          exact Nat.le_trans (Nat.le_of_eq stop) fits
        rw [emit_of_fits fits] at met
        split at met
        · cases met
        · next lost =>
          cases met
          rw [Cursor.HasMargin, Cursor.position_put fits, Cursor.length_put] at lost
          refine ⟨Nat.lt_of_not_le lost, congrArg Assembler.cursor joined, ?_⟩
          rw [after_single]
      · rw [if_neg fits]
        have outside := Cursor.write_of_outside (Nat.lt_of_not_le fits)
        rw [emit_of_error outside] at met
        cases met
        refine ⟨rfl, ?_⟩
        rw [Cursor.outside]
        split
        · exact .inl rfl
        · exact .inr rfl

end Assembler

/-- The outcome of a command that has nothing to do but to write code. -/
def Outcome.EndsAs (o : Outcome) : EStateM.Result Fault Assembler Unit → Prop
  | .ok _ b => (∃ reply, o.reply = .ok reply) ∧ o.cursor = b.cursor
  | .error f b => o.reply = .error f ∧ o.cursor = b.cursor

namespace Command

/-- The code of a step of several instructions. A binding has one if its position exists. -/
def code? : Command → Option (List (String × Instruction))
  | .pushImmediate value => some (Assembler.pushes value)
  | .jump target => some (Assembler.jumpCode target)
  | .bind function argument index =>
    (Position.ofIndex? index.toNat).map (Assembler.trampolineCode function argument)
  | _ => none

variable {command : Command} {code : List (String × Instruction)}

theorem ne_nil_of_code? (composite : command.code? = some code) : code ≠ [] := by
  cases command with
  | pushImmediate value | jump target =>
      cases composite
      exact List.cons_ne_nil _ _
  | bind function argument index =>
      obtain ⟨position, -, rfl⟩ := Option.map_eq_some_iff.1 composite
      exact List.cons_ne_nil _ _
  | _ => cases composite

theorem endsAs_of_emitAll (answer : Reply)
    (h : command.perform = do Assembler.emitAll code; return answer) (c : Cursor) :
    (command.run c).EndsAs (Assembler.emitAll code { cursor := c }) := by
  cases emitted : Assembler.emitAll code { cursor := c } with
  | ok _ b =>
      have performed : command.perform { cursor := c } = .ok answer b := by
        rw [h, bind_of_ok emitted]
        rfl
      rw [run_of_ok performed]
      exact ⟨⟨answer, rfl⟩, rfl⟩
  | error f b =>
      have performed : command.perform { cursor := c } = .error f b := by
        rw [h, bind_of_error emitted]
      rw [run_of_error performed]
      exact ⟨rfl, rfl⟩

/-- A composite step writes its code, unless it is a binding that starts behind the buffer. -/
theorem endsAs_of_code? (composite : command.code? = some code) (c : Cursor) :
    (∃ a : Assembler, a.cursor = c ∧ (command.run c).EndsAs (Assembler.emitAll code a)) ∨
      c.buffer.length < c.position.toNat ∧ (command.run c).reply = .error .bounds ∧
        (command.run c).cursor = c := by
  cases command with
  | pushImmediate value =>
      cases composite
      refine .inl ⟨{ cursor := c }, rfl, endsAs_of_emitAll .done ?_ c⟩
      rw [← Assembler.pushImmediate_eq]
      rfl
  | jump target =>
      cases composite
      refine .inl ⟨{ cursor := c }, rfl, endsAs_of_emitAll .done ?_ c⟩
      rw [← Assembler.jump_eq]
      rfl
  | bind function argument index =>
      obtain ⟨position, found, rfl⟩ := Option.map_eq_some_iff.1 composite
      have same : (Command.bind function argument index).run c =
          (emitTrampoline function argument position).run c := by
        simp only [run, perform, Assembler.bind_of_position found]
      rw [same]
      by_cases inside : c.position.toNat ≤ c.buffer.length
      · let a := Assembler.announce { cursor := c } function argument position
        refine .inl ⟨a, rfl, ?_⟩
        rw [run_emitTrampoline_of_inside inside]
        cases Assembler.emitAll (Assembler.trampolineCode function argument position) a with
        | ok _ b => exact ⟨⟨_, rfl⟩, rfl⟩
        | error f b => exact ⟨rfl, rfl⟩
      · have beyond := Nat.lt_of_not_le inside
        rw [run_emitTrampoline_of_beyond beyond]
        exact .inr ⟨beyond, rfl, rfl⟩
  | _ => cases composite

/-- A step has been interrupted over the instruction at an index of its code, the first without a
margin behind it. This instruction is written if it fits into the buffer; then the fault tells where
the cursor has lost its margin. Only if the buffer itself reaches to within a margin of the largest
word, so that no memory could hold it, the end of the margin may be no word. If the instruction does
not fit, the step has ended in front of it. -/
structure Interrupted (c : Cursor) (code : List (String × Instruction)) (j : Nat) (o : Outcome) :
    Prop where
  inside : j < code.length
  before : ∀ i < j, c.stop (code.take (i + 1)) + Instruction.maxLength ≤ c.buffer.length
  lost : c.buffer.length < c.stop (code.take (j + 1)) + Instruction.maxLength
  fault : ∃ f, o.reply = .error f
  written : c.stop (code.take (j + 1)) ≤ c.buffer.length →
    c.Puts (Assembler.bytesOf (code.take (j + 1))) o.cursor ∧
      o.reply = .error (if c.stop (code.take (j + 1)) + Instruction.maxLength < UInt64.size then
        .margin o.cursor.position.toNat c.buffer.length else .arithmetic)
  unwritten : c.buffer.length < c.stop (code.take (j + 1)) →
    c.Puts (Assembler.bytesOf (code.take j)) o.cursor ∧
      (o.reply = .error .bounds ∨ o.reply = .error .arithmetic)

theorem interrupted_of_beyond (some : code ≠ []) {c : Cursor} {o : Outcome}
    (beyond : c.buffer.length < c.position.toNat) (reply : o.reply = .error .bounds)
    (cursor : o.cursor = c) : Interrupted c code 0 o := by
  have outside : c.buffer.length < c.stop (code.take 1) := Nat.lt_add_right _ beyond
  refine ⟨List.length_pos_iff.2 some, fun _ h => absurd h (Nat.not_lt_zero _),
    Nat.lt_add_right _ outside, ⟨_, reply⟩, fun fits => absurd fits (Nat.not_le_of_lt outside), ?_⟩
  intro _
  rw [cursor]
  exact ⟨c.puts_nil, .inl reply⟩

theorem interrupted_of_emitAll (some : code ≠ []) {a : Assembler} {o : Outcome}
    (ends : o.EndsAs (Assembler.emitAll code a))
    (short : a.cursor.buffer.length < a.cursor.stop code + Instruction.maxLength) :
    ∃ j, Interrupted a.cursor code j o := by
  obtain ⟨front, name, i, rest, f, b, rfl, emitted, room, left⟩ :=
    Assembler.emitAll_of_short some short
  rw [emitted] at ends
  obtain ⟨reply, cursor⟩ := ends
  have upTo : (front ++ (name, i) :: rest).take (front.length + 1) = front ++ [(name, i)] := by
    rw [List.append_cons]
    exact List.take_left' (by rw [List.length_append, List.length_singleton])
  have before : ∀ k < front.length, a.cursor.stop ((front ++ (name, i) :: rest).take (k + 1)) +
      Instruction.maxLength ≤ a.cursor.buffer.length := by
    intro k hk
    obtain rfl | room := room
    · cases hk
    · rw [List.take_append_of_le_length hk]
      exact Nat.le_trans (Nat.add_le_add_right (a.cursor.stop_take_le front _) _) room
  refine ⟨front.length, ?_, before, ?_, ⟨f, reply⟩, ?_, ?_⟩
  · rw [List.length_append, List.length_cons]
    omega
  · rw [upTo]
    split at left
    · exact left.1
    · omega
  · rw [upTo]
    intro fits
    rw [if_pos fits] at left
    obtain ⟨lost, put, rfl⟩ := left
    rw [cursor, reply, put]
    refine ⟨Cursor.puts_put fits, ?_⟩
    rw [Cursor.lostMargin, Cursor.position_put fits, Cursor.length_put]
    rfl
  · rw [upTo, List.take_left]
    intro outside
    rw [if_neg (Nat.not_le_of_lt outside)] at left
    obtain ⟨put, fault⟩ := left
    rw [cursor, put, reply]
    refine ⟨?_, fault.imp (congrArg Except.error) (congrArg Except.error)⟩
    obtain rfl | room := room
    · rw [show a.cursor.put (Assembler.bytesOf []) = a.cursor from Cursor.put_nil _]
      exact a.cursor.puts_nil
    · exact Cursor.puts_put (Nat.le_of_add_right_le room)

/-- With a margin in front of it, an instruction fits. -/
theorem Interrupted.fits {c : Cursor} {j : Nat} {o : Outcome} (h : Interrupted c code j o)
    (margin : c.HasMargin) : c.stop (code.take (j + 1)) ≤ c.buffer.length := by
  have front : c.stop (code.take j) + Instruction.maxLength ≤ c.buffer.length := by
    cases j with
    | zero => exact margin
    | succ i => exact h.before i (Nat.lt_succ_self i)
  have inside := h.inside
  have one : code.take (j + 1) = code.take j ++ [code[j]] := List.take_succ_eq_append_getElem inside
  have short := code[j].2.length_encode_le
  rw [one, Cursor.stop_append, Assembler.bytesOf_single]
  omega

/-- A composite step returns normally just where all of its code leaves a margin, and then has
written its code. Anywhere else it is interrupted over one of its instructions, and if there was a
margin to begin with, this instruction has been written in full. -/
theorem completed_or_interrupted (composite : command.code? = some code) (c : Cursor) :
    let o := command.run c
    ((∃ reply, o.reply = .ok reply) ↔
      c.stop code + Instruction.maxLength ≤ c.buffer.length) ∧
    (c.stop code + Instruction.maxLength ≤ c.buffer.length →
      c.Puts (Assembler.bytesOf code) o.cursor) ∧
    (c.buffer.length < c.stop code + Instruction.maxLength → ∃ j, Interrupted c code j o ∧
      (c.position.toNat + Instruction.maxLength ≤ c.buffer.length →
        c.stop (code.take (j + 1)) ≤ c.buffer.length)) := by
  intro o
  have some := ne_nil_of_code? composite
  have completed (room : c.stop code + Instruction.maxLength ≤ c.buffer.length) :
      (∃ reply, o.reply = .ok reply) ∧ c.Puts (Assembler.bytesOf code) o.cursor := by
    obtain ⟨a, rfl, ends⟩ | ⟨beyond, -⟩ := endsAs_of_code? composite c
    · rw [Assembler.emitAll_of_room room] at ends
      obtain ⟨reply, cursor⟩ := ends
      refine ⟨reply, ?_⟩
      rw [show o.cursor = _ from cursor]
      exact Cursor.puts_put (Nat.le_of_add_right_le room)
    · rw [Cursor.stop] at room
      omega
  have interrupted (short : c.buffer.length < c.stop code + Instruction.maxLength) :
      ∃ j, Interrupted c code j o := by
    obtain ⟨a, rfl, ends⟩ | ⟨beyond, reply, cursor⟩ := endsAs_of_code? composite c
    · exact interrupted_of_emitAll some ends short
    · exact ⟨0, interrupted_of_beyond some beyond reply cursor⟩
  refine ⟨⟨?_, fun room => (completed room).1⟩, fun room => (completed room).2, ?_⟩
  · rintro ⟨reply, normal⟩
    refine Nat.le_of_not_lt fun short => ?_
    obtain ⟨j, h⟩ := interrupted short
    obtain ⟨f, fault⟩ := h.fault
    rw [normal] at fault
    cases fault
  · intro short
    obtain ⟨j, h⟩ := interrupted short
    exact ⟨j, h, h.fits⟩

theorem completed_or_interrupted_in_thirty_bytes :
    let c : Cursor := { buffer := .filled 30 0xA5, position := 5 }
    let o := (Command.jump 0x1122334455667788).run c
    (Command.jump 0x1122334455667788).code? = some (Assembler.jumpCode 0x1122334455667788) ∧
      c.buffer.length < c.stop (Assembler.jumpCode 0x1122334455667788) + Instruction.maxLength ∧
      o.cursor.position.toNat = 17 ∧ o.reply = .error (.margin 17 30) := by
  intro c o
  have short : c.buffer.length <
      c.stop (Assembler.jumpCode 0x1122334455667788) + Instruction.maxLength := by decide
  have composite : (Command.jump 0x1122334455667788).code? =
      some (Assembler.jumpCode 0x1122334455667788) := rfl
  obtain ⟨-, -, cut⟩ := completed_or_interrupted composite c
  obtain ⟨j, h, full⟩ := cut short
  -- Behind two pushes there is a margin, behind the third there is none.
  obtain rfl : j = 2 := by
    match j, h with
    | 0, h => exact absurd h.lost (by decide)
    | 1, h => exact absurd h.lost (by decide)
    | 2, _ => rfl
    | j + 3, h => exact absurd (h.before 2 (by omega)) (by decide)
  obtain ⟨puts, fault⟩ := h.written (full (by decide))
  have position : o.cursor.position.toNat = 17 := puts.position
  refine ⟨composite, short, position, ?_⟩
  rw [position] at fault
  exact fault

end Command
end Prebind
