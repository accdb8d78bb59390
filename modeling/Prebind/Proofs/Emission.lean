import Prebind.Trampoline.Bind
import Prebind.Proofs.Decoding
import Prebind.Proofs.Writing

/-!
Every step of the assembler that writes code writes a list of named instructions, one after the
other. Where there is room for all of them, their bytes stand side by side behind the old cursor;
where the step succeeds, there was room.
-/

namespace Prebind
namespace Assembler

/-! One instruction -/

theorem emit_of_ok {name : String} {i : Instruction} {a : Assembler} {c : Cursor}
    (h : Cursor.write i.encode a.cursor = .ok () c) :
    emit name i a =
      .ok () ⟨c, a.log ++ [.instruction a.cursor.position i.encode name]⟩ := by
  change onCursor (Cursor.write i.encode) ⟨a.cursor, a.log ++ [_]⟩ = _
  simp only [onCursor, h]

theorem emit_of_error {name : String} {i : Instruction} {a : Assembler} {f : Fault} {c : Cursor}
    (h : Cursor.write i.encode a.cursor = .error f c) :
    emit name i a =
      .error f ⟨c, a.log ++ [.instruction a.cursor.position i.encode name]⟩ := by
  change onCursor (Cursor.write i.encode) ⟨a.cursor, a.log ++ [_]⟩ = _
  simp only [onCursor, h]

/-! Lists of named instructions -/

/-- Writes instructions one after the other, each under its name. -/
def emitAll (code : List (String × Instruction)) : Action Unit :=
  code.forM fun (name, i) => emit name i

def bytesOf (code : List (String × Instruction)) : List UInt8 :=
  code.flatMap fun (_, i) => i.encode

/-- The lines of the log for instructions that are written from a position on. -/
def trace (position : UInt64) : List (String × Instruction) → List Event
  | [] => []
  | (name, i) :: rest =>
    .instruction position i.encode name :: trace (position + .ofNat i.encode.length) rest

/-- The assembler behind instructions that it has written. -/
def after (a : Assembler) (code : List (String × Instruction)) : Assembler where
  cursor := a.cursor.put (bytesOf code)
  log := a.log ++ trace a.cursor.position code

theorem emitAll_cons (name : String) (i : Instruction) (rest : List (String × Instruction)) :
    emitAll ((name, i) :: rest) = (do emit name i; emitAll rest) :=
  rfl

theorem emitAll_append (xs ys : List (String × Instruction)) :
    emitAll (xs ++ ys) = (do emitAll xs; emitAll ys) := by
  simp only [emitAll, List.forM_eq_forM, List.forM_append]

theorem bytesOf_cons (name : String) (i : Instruction) (rest : List (String × Instruction)) :
    bytesOf ((name, i) :: rest) = i.encode ++ bytesOf rest :=
  rfl

theorem after_nil (a : Assembler) : a.after [] = a := by
  simp [after, bytesOf, trace, Cursor.put_nil]

theorem after_cons {a : Assembler} {name : String} {i : Instruction}
    {rest : List (String × Instruction)}
    (fits : a.cursor.position.toNat + (bytesOf ((name, i) :: rest)).length ≤
      a.cursor.buffer.length) :
    (Assembler.after ⟨a.cursor.put i.encode,
      a.log ++ [.instruction a.cursor.position i.encode name]⟩ rest) =
        a.after ((name, i) :: rest) := by
  rw [bytesOf_cons] at fits
  simp only [after, bytesOf_cons, Cursor.put_append fits, trace, List.append_assoc,
    List.cons_append, List.nil_append]
  rfl

theorem emitAll_of_room {code : List (String × Instruction)} {a : Assembler}
    (room : a.cursor.position.toNat + (bytesOf code).length + Instruction.maxLength ≤
      a.cursor.buffer.length) : emitAll code a = .ok () (a.after code) := by
  induction code generalizing a with
  | nil => rw [after_nil]; rfl
  | cons head rest ih =>
      obtain ⟨name, i⟩ := head
      have hlen : (bytesOf ((name, i) :: rest)).length =
          i.encode.length + (bytesOf rest).length := by
        rw [bytesOf_cons, List.length_append]
      have first : Cursor.write i.encode a.cursor = .ok () (a.cursor.put i.encode) :=
        Cursor.write_of_room (by omega)
      rw [emitAll_cons, bind_of_ok (emit_of_ok first), ih, after_cons (by omega)]
      rw [Cursor.position_put (by omega), Cursor.length_put]
      omega

theorem emitAll_eq_ok {code : List (String × Instruction)} {a b : Assembler}
    (h : emitAll code a = .ok () b) :
    b = a.after code ∧ (code = [] ∨ a.cursor.position.toNat + (bytesOf code).length +
      Instruction.maxLength ≤ a.cursor.buffer.length) := by
  induction code generalizing a with
  | nil =>
      rw [after_nil]
      cases h
      exact ⟨rfl, .inl rfl⟩
  | cons head rest ih =>
      obtain ⟨name, i⟩ := head
      rw [emitAll_cons] at h
      obtain ⟨_, m, first, h⟩ := bind_eq_ok h
      cases hw : Cursor.write i.encode a.cursor with
      | error f c =>
          rw [emit_of_error hw] at first
          cases first
      | ok _ c =>
          obtain ⟨room, rfl⟩ := Cursor.write_eq_ok hw
          rw [emit_of_ok hw] at first
          cases first
          obtain ⟨rfl, tail⟩ := ih h
          have behind : (a.cursor.put i.encode).position.toNat =
              a.cursor.position.toNat + i.encode.length := Cursor.position_put (by omega)
          have total : a.cursor.position.toNat + (bytesOf ((name, i) :: rest)).length +
              Instruction.maxLength ≤ a.cursor.buffer.length := by
            rw [bytesOf_cons, List.length_append]
            obtain rfl | tail := tail
            · simpa [bytesOf] using room
            · rw [behind, Cursor.length_put] at tail
              omega
          exact ⟨after_cons (by omega), .inr total⟩

/-- A list that meets a fault has been written up to an instruction that meets it. -/
theorem emitAll_eq_error {code : List (String × Instruction)} {a b : Assembler} {f : Fault}
    (h : emitAll code a = .error f b) :
    ∃ front name i rest, code = front ++ (name, i) :: rest ∧
      emitAll front a = .ok () (a.after front) ∧ emit name i (a.after front) = .error f b := by
  induction code generalizing a with
  | nil => cases h
  | cons head rest ih =>
      obtain ⟨name, i⟩ := head
      rw [emitAll_cons] at h
      obtain here | ⟨_, m, first, later⟩ := bind_eq_error h
      · refine ⟨[], name, i, rest, rfl, ?_, ?_⟩
        · rw [after_nil]
          rfl
        · rw [after_nil]
          exact here
      · obtain ⟨front, name', i', rest', rfl, written, met⟩ := ih later
        have whole : emitAll ((name, i) :: front) a = .ok () (m.after front) := by
          rw [emitAll_cons, bind_of_ok first]
          exact written
        have same := (emitAll_eq_ok whole).1
        rw [same] at whole met
        exact ⟨(name, i) :: front, name', i', rest', rfl, whole, met⟩

theorem bytesOf_single (name : String) (i : Instruction) : bytesOf [(name, i)] = i.encode :=
  List.append_nil _

theorem bytesOf_append (xs ys : List (String × Instruction)) :
    bytesOf (xs ++ ys) = bytesOf xs ++ bytesOf ys :=
  List.flatMap_append

theorem trace_append (position : UInt64) (xs ys : List (String × Instruction)) :
    trace position (xs ++ ys) =
      trace position xs ++ trace (position + .ofNat (bytesOf xs).length) ys := by
  induction xs generalizing position with
  | nil => simp [trace, bytesOf]
  | cons head rest ih =>
      obtain ⟨name, i⟩ := head
      rw [List.cons_append, trace, trace, ih, bytesOf_cons, List.length_append, UInt64.ofNat_add,
        UInt64.add_assoc, List.cons_append]

theorem after_append {a : Assembler} {xs ys : List (String × Instruction)}
    (fits : a.cursor.position.toNat + (bytesOf (xs ++ ys)).length ≤ a.cursor.buffer.length) :
    (a.after xs).after ys = a.after (xs ++ ys) := by
  rw [bytesOf_append] at fits
  simp only [after, bytesOf_append, trace_append, Cursor.put_append fits, List.append_assoc]
  rfl

theorem position_after {a : Assembler} {code : List (String × Instruction)}
    (h : emitAll code a = .ok () (a.after code)) :
    (a.after code).cursor.position.toNat = a.cursor.position.toNat + (bytesOf code).length := by
  obtain rfl | room := (emitAll_eq_ok h).2
  · rw [after_nil]
    rfl
  · exact Cursor.position_put (by omega)

theorem after_single (a : Assembler) (name : String) (i : Instruction) :
    a.after [(name, i)] =
      ⟨a.cursor.put i.encode, a.log ++ [.instruction a.cursor.position i.encode name]⟩ := by
  simp only [after, bytesOf_single, trace]

/-- An instruction that fits into the buffer is written, even if no margin is left behind it. -/
theorem emit_of_fits {name : String} {i : Instruction} {a : Assembler}
    (fits : a.cursor.position.toNat + i.encode.length ≤ a.cursor.buffer.length) :
    emit name i a =
      if (a.cursor.put i.encode).HasMargin then .ok () (a.after [(name, i)])
      else .error (a.cursor.put i.encode).lostMargin (a.after [(name, i)]) := by
  have wrote := Cursor.write_of_fits fits
  rw [after_single]
  by_cases margin : (a.cursor.put i.encode).HasMargin
  · rw [if_pos margin] at wrote ⊢
    exact emit_of_ok wrote
  · rw [if_neg margin] at wrote ⊢
    exact emit_of_error wrote

theorem length_after (a : Assembler) (code : List (String × Instruction)) :
    (a.after code).cursor.buffer.length = a.cursor.buffer.length :=
  Cursor.length_put ..

/-- A cursor that has come past all the code has written it, even if a fault was met behind it. -/
theorem eq_after_of_position {code : List (String × Instruction)} {a b : Assembler}
    (some : code ≠ [])
    (left : emitAll code a = .ok () b ∨ ∃ f, emitAll code a = .error f b)
    (far : a.cursor.position.toNat + (bytesOf code).length ≤ b.cursor.position.toNat) :
    b = a.after code ∧
      a.cursor.position.toNat + (bytesOf code).length ≤ a.cursor.buffer.length := by
  obtain written | ⟨f, failed⟩ := left
  · obtain ⟨rfl, none | room⟩ := emitAll_eq_ok written
    · exact absurd none some
    · exact ⟨rfl, by omega⟩
  · obtain ⟨front, name, i, rest, rfl, written, met⟩ := emitAll_eq_error failed
    have place := position_after written
    have length := length_after a front
    have positive := List.length_pos_iff.2 i.encode_ne_nil
    rw [bytesOf_append, bytesOf_cons, List.length_append, List.length_append] at far
    by_cases fits : (a.after front).cursor.position.toNat + i.encode.length ≤
        (a.after front).cursor.buffer.length
    · have left : b = (a.after front).after [(name, i)] := by
        rw [emit_of_fits fits] at met
        split at met <;> cases met
        rfl
      have behind := Cursor.position_put fits
      rw [left, after_single] at far
      dsimp only at far
      have last : rest = [] := by
        cases rest with
        | nil => rfl
        | cons next others =>
            have more := List.length_pos_iff.2 next.2.encode_ne_nil
            rw [bytesOf_cons, List.length_append] at far
            omega
      subst last
      have inside : a.cursor.position.toNat + (bytesOf (front ++ [(name, i)])).length ≤
          a.cursor.buffer.length := by
        rw [bytesOf_append, bytesOf_single, List.length_append]
        rw [length_after] at fits
        omega
      exact ⟨left.trans (after_append inside), inside⟩
    · have outside := Cursor.write_of_outside (Nat.lt_of_not_le fits)
      rw [emit_of_error outside] at met
      cases met
      dsimp only at far
      omega

/-! Composite steps -/

/-- The pushes that put a word on the stack. -/
def pushes (value : UInt64) : List (String × Instruction) :=
  (Word.parts value).map fun part => ("push imm16", .pushImm16 part)

def jumpCode (target : UInt64) : List (String × Instruction) :=
  pushes target ++ [("ret", .ret)]

/-- The code of a trampoline under the names it is logged by. -/
def trampolineCode (function argument : UInt64) (position : Position) :
    List (String × Instruction) :=
  [("mov rax, imm64", .loadRax argument), ("mov r64, rax", .movFromRax position.register)] ++
    jumpCode function

theorem pushImmediate_eq (value : UInt64) : pushImmediate value = emitAll (pushes value) := by
  simp only [pushImmediate, emitAll, pushes, List.forM_eq_forM, List.forM_map]
  rfl

theorem emitAll_single (name : String) (i : Instruction) : emitAll [(name, i)] = emit name i :=
  bind_pure_unit

theorem jump_eq (target : UInt64) : jump target = emitAll (jumpCode target) := by
  rw [jumpCode, emitAll_append, emitAll_single, ← pushImmediate_eq]
  rfl

theorem bytesOf_trampolineCode (function argument : UInt64) (position : Position) :
    bytesOf (trampolineCode function argument position) =
      Trampoline.bytes function argument position :=
  rfl

/-- The assembler once it has logged a trampoline that it is about to write. -/
def announce (a : Assembler) (function argument : UInt64) (position : Position) : Assembler :=
  { a with log := a.log ++ [.binding function argument position a.cursor.position] }

/-- What is logged of a trampoline that is written at an offset. -/
def events (function argument : UInt64) (position : Position) (offset : UInt64) : List Event :=
  .binding function argument position offset ::
    trace offset (trampolineCode function argument position)

theorem log_after_announce (a : Assembler) (function argument : UInt64) (position : Position) :
    ((a.announce function argument position).after
        (trampolineCode function argument position)).log =
      a.log ++ events function argument position a.cursor.position :=
  List.append_assoc ..

/-- Behind its entry in the log, a trampoline is the writing of its code. -/
theorem emitTrampoline_of_current {function argument entry : UInt64} {position : Position}
    {a : Assembler} (h : Cursor.current a.cursor = .ok entry a.cursor) :
    emitTrampoline function argument position a =
      (do emitAll (trampolineCode function argument position); return entry)
        (a.announce function argument position) := by
  have entered : onCursor Cursor.current a = .ok entry a := by simp only [onCursor, h]
  rw [emitTrampoline, bind_of_ok entered, trampolineCode, emitAll_append, ← jump_eq]
  simp only [emitAll_cons, bind_assoc]
  rfl

theorem emitTrampoline_of_beyond {function argument : UInt64} {position : Position}
    {a : Assembler} (beyond : a.cursor.buffer.length < a.cursor.position.toNat) :
    emitTrampoline function argument position a = .error .bounds a := by
  have current : onCursor Cursor.current a = .error .bounds a := by
    simp only [onCursor, Cursor.current, if_neg (Nat.not_le_of_lt beyond)]
  rw [emitTrampoline, bind_of_error current]

theorem emitTrampoline_of_room {function argument : UInt64} {position : Position} {a : Assembler}
    (room : a.cursor.position.toNat + Trampoline.size + Instruction.maxLength ≤
      a.cursor.buffer.length) :
    emitTrampoline function argument position a =
      .ok a.cursor.position ((a.announce function argument position).after
        (trampolineCode function argument position)) := by
  have entered : Cursor.current a.cursor = .ok a.cursor.position a.cursor :=
    if_pos (by omega)
  rw [emitTrampoline_of_current entered, bind_of_ok (emitAll_of_room ?_)]
  · rfl
  · rw [bytesOf_trampolineCode, Trampoline.length_bytes]
    exact room

theorem emitTrampoline_eq_ok {function argument entry : UInt64} {position : Position}
    {a b : Assembler} (h : emitTrampoline function argument position a = .ok entry b) :
    a.cursor.position.toNat + Trampoline.size + Instruction.maxLength ≤ a.cursor.buffer.length ∧
      entry = a.cursor.position ∧
      b.cursor = a.cursor.put (Trampoline.bytes function argument position) := by
  by_cases entered : a.cursor.position.toNat ≤ a.cursor.buffer.length
  · have current : Cursor.current a.cursor = .ok a.cursor.position a.cursor := if_pos entered
    rw [emitTrampoline_of_current current] at h
    obtain ⟨_, _, written, h⟩ := bind_eq_ok h
    obtain ⟨rfl, room⟩ := emitAll_eq_ok written
    cases h
    refine ⟨?_, rfl, rfl⟩
    obtain none | room := room
    · cases none
    · rwa [bytesOf_trampolineCode, Trampoline.length_bytes] at room
  · rw [emitTrampoline_of_beyond (Nat.lt_of_not_le entered)] at h
    cases h

theorem bind_of_position {function argument index : UInt64} {position : Position}
    (h : Position.ofIndex? index.toNat = some position) :
    bind function argument index = emitTrampoline function argument position := by
  simp only [bind, h]

theorem bind_of_no_position {function argument index : UInt64} (a : Assembler)
    (h : Position.ofIndex? index.toNat = none) :
    bind function argument index a = .error (.noPosition index.toNat) a := by
  simp only [bind, h]
  rfl

theorem tryBind_of_no_position {function argument index : UInt64} (a : Assembler)
    (h : Position.ofIndex? index.toNat = none) :
    tryBind function argument index a = .ok (.error (.noPosition index.toNat)) a := by
  rw [tryBind, h]
  rfl

theorem tryBind_of_shortage {function argument index : UInt64} {position : Position}
    {a : Assembler} (h : Position.ofIndex? index.toNat = some position)
    (short : a.cursor.remaining < Trampoline.size) :
    tryBind function argument index a =
      .ok (.error (.shortage ⟨Trampoline.size, a.cursor.remaining⟩)) a := by
  have refused : a.cursor.ensure Trampoline.size =
      .error ⟨Trampoline.size, a.cursor.remaining⟩ := if_neg (by omega)
  have got : (get : Action Assembler) a = .ok a a := rfl
  simp only [tryBind, h]
  rw [bind_of_ok got]
  simp only [refused]
  rfl

theorem tryBind_of_room {function argument index : UInt64} {position : Position} {a : Assembler}
    (h : Position.ofIndex? index.toNat = some position)
    (room : Trampoline.size ≤ a.cursor.remaining) :
    tryBind function argument index a =
      .ok (.ok a.cursor.position) ((a.announce function argument position).after
        (trampolineCode function argument position)) := by
  have granted : a.cursor.ensure Trampoline.size = .ok () := if_pos room
  have got : (get : Action Assembler) a = .ok a a := rfl
  simp only [tryBind, h]
  rw [bind_of_ok got]
  simp only [granted]
  rw [bind_of_ok (emitTrampoline_of_room ((Cursor.le_remaining_iff (by decide)).1 room))]
  rfl

end Assembler
end Prebind
