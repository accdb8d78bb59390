import Prebind.Trampoline.Storage
import Prebind.Proofs.Emission

/-!
Calls that bind into storage of a caller, over whole histories. The storage starts behind the null
address and its end is an address, which keeps every sum that matters below the largest word. Then
no call meets a fault: it binds exactly where a position and the room for a trampoline and the
margin are given, and otherwise changes nothing. The answer depends on the call and on how much of
the storage it may use, so neither the bytes there nor an earlier call have a say in it.
-/

namespace Prebind
namespace Storage

variable {storage : Buffer} {call : Call} {size : Nat}

/-! Conditions -/

/-- The call has storage, and its offset keeps the margin. -/
def Call.Starts (call : Call) (size : Nat) : Prop :=
  call.present = true ∧ call.offset.toNat + Instruction.maxLength ≤ size

instance (call : Call) (size : Nat) : Decidable (call.Starts size) :=
  inferInstanceAs (Decidable (_ ∧ _))

/-- There is room for a trampoline and the margin behind it. -/
def Call.Fits (call : Call) (size : Nat) : Prop :=
  call.offset.toNat + Trampoline.size + Instruction.maxLength ≤ size

instance (call : Call) (size : Nat) : Decidable (call.Fits size) :=
  inferInstanceAs (Decidable (_ ≤ _))

/-- A call is accepted if it has storage, a position, and room for its trampoline and the margin. -/
def Call.Accepted (call : Call) (size : Nat) : Prop :=
  call.present = true ∧ (call.index = 2 ∨ call.index = 3 ∨ call.index = 4) ∧
    call.offset.toNat + 45 ≤ size

/-- Room for a trampoline is more than a call needs to start. -/
theorem accepted_iff :
    call.Accepted size ↔ call.Starts size ∧
      (∃ position, Position.ofIndex? call.index.toNat = some position) ∧ call.Fits size := by
  rw [Position.exists_ofIndex?_iff, Call.Accepted, Call.Starts, Call.Fits, Trampoline.size,
    Instruction.maxLength]
  constructor
  · rintro ⟨present, index, room⟩
    exact ⟨⟨present, by omega⟩, index, by omega⟩
  · rintro ⟨⟨present, -⟩, index, room⟩
    exact ⟨present, index, by omega⟩

theorem usable_le (call : Call) (storage : Buffer) : call.usable storage ≤ storage.length := by
  rw [Call.usable]
  split
  · exact Nat.min_le_right ..
  · exact Nat.le_refl _

theorem usable_congr {a b : Buffer} (h : a.length = b.length) (call : Call) :
    call.usable a = call.usable b := by
  simp only [Call.usable, h]

/-! Answers and effects -/

/-- The answer to a call that may use so much storage. -/
def Call.answer (call : Call) (size : Nat) : Answer :=
  if call.Starts size then
    match Position.ofIndex? call.index.toNat with
    | none => { warning := some (.noPosition call.index.toNat) }
    | some _ =>
      if call.Fits size then
        let next := call.offset + .ofNat Trampoline.size
        { entry := some call.offset, next := if call.reports then some next else none }
      else
        let available := size - Instruction.maxLength - call.offset.toNat
        { warning := some (.shortage ⟨Trampoline.size, available⟩) }
  else {}

/-- The storage behind a call. -/
def Call.effect (call : Call) (storage : Buffer) : Buffer :=
  match Position.ofIndex? call.index.toNat with
  | none => storage
  | some position =>
    if call.Starts (call.usable storage) ∧ call.Fits (call.usable storage) then
      storage.overwrite call.offset.toNat (Trampoline.bytes call.function call.argument position)
    else storage

@[simp] theorem length_effect (call : Call) (storage : Buffer) :
    (call.effect storage).length = storage.length := by
  rw [Call.effect]
  split
  · rfl
  · split
    · exact Buffer.length_overwrite ..
    · rfl

theorem effect_of_not_starts (h : ¬ call.Starts (call.usable storage)) :
    call.effect storage = storage := by
  rw [Call.effect]
  split
  · rfl
  · exact if_neg fun both => h both.1

/-- The guard in front of the cursor, which stops its sum at the largest word, lets a call through
just where it starts. -/
theorem guard_iff (ends : size + 1 < UInt64.size) :
    (!call.present ||
      size < (Word.addSat call.offset (.ofNat Instruction.maxLength)).toNat) = true ↔
        ¬ call.Starts size := by
  have margin : (UInt64.ofNat Instruction.maxLength).toNat = Instruction.maxLength := rfl
  rw [Call.Starts, Bool.or_eq_true, decide_eq_true_iff, Word.lt_toNat_addSat_iff ends, margin]
  cases call.present <;> simp

/-- The cursor of a call that starts, on the part of the storage that may be used. -/
def Call.cursor (call : Call) (storage : Buffer) : Cursor :=
  { buffer := storage.front (call.usable storage), position := call.offset }

theorem length_cursor (call : Call) (storage : Buffer) :
    (call.cursor storage).buffer.length = call.usable storage :=
  Nat.min_eq_left (usable_le call storage)

theorem le_remaining_cursor_iff (call : Call) (storage : Buffer) :
    Trampoline.size ≤ (call.cursor storage).remaining ↔ call.Fits (call.usable storage) := by
  rw [Cursor.le_remaining_iff (by decide), length_cursor, Call.Fits, Call.cursor]

/-- What the assembler answers, as an answer to the call. -/
def Call.conclude (call : Call) (storage : Buffer) :
    EStateM.Result Fault Assembler (Except BindError UInt64) → Except Fault (Answer × Buffer)
  | .error f _ => .error f
  | .ok (.error e) a => .ok ({ warning := some e }, storage.overwrite 0 a.cursor.buffer.bytes)
  | .ok (.ok entry) a =>
    let next := if call.reports then some a.cursor.position else none
    .ok ({ entry := some entry, next }, storage.overwrite 0 a.cursor.buffer.bytes)

theorem bind_of_starts (ends : storage.length + 1 < UInt64.size)
    (starts : call.Starts (call.usable storage)) :
    bind storage call = call.conclude storage
      (Assembler.tryBind call.function call.argument call.index
        { cursor := call.cursor storage }) := by
  have inside := usable_le call storage
  have started : Cursor.start (storage.front (call.usable storage)) call.offset =
      .ok (call.cursor storage) :=
    Cursor.start_of_room (Nat.le_trans starts.2 (Nat.le_of_eq (length_cursor call storage).symm))
  simp only [bind]
  rw [if_neg (fun guarded => (guard_iff (by omega)).1 guarded starts), started]
  rfl

theorem bind_eq (ends : storage.length + 1 < UInt64.size) (call : Call) :
    bind storage call = .ok (call.answer (call.usable storage), call.effect storage) := by
  have inside := usable_le call storage
  have unchanged := Buffer.overwrite_front inside
  by_cases starts : call.Starts (call.usable storage)
  · rw [bind_of_starts ends starts, Call.answer, if_pos starts, Call.effect]
    cases hp : Position.ofIndex? call.index.toNat with
    | none =>
        rw [Assembler.tryBind_of_no_position _ hp]
        exact congrArg (fun b => Except.ok (_, b)) unchanged
    | some position =>
        by_cases fits : call.Fits (call.usable storage)
        · let code := Trampoline.bytes call.function call.argument position
          have size : code.length = Trampoline.size := Trampoline.length_bytes ..
          have before : call.offset.toNat + code.length ≤ call.usable storage := by
            rw [Call.Fits] at fits
            omega
          have put := Buffer.overwrite_front_overwrite before inside
          have enough := (le_remaining_cursor_iff call storage).2 fits
          rw [Assembler.tryBind_of_room (a := { cursor := call.cursor storage }) hp enough]
          simp only [if_pos fits, if_pos (And.intro starts fits), Call.conclude, Assembler.after,
            Assembler.announce, Cursor.put, Assembler.bytesOf_trampolineCode,
            Trampoline.length_bytes, Call.cursor]
          rw [put]
        · have short := Nat.lt_of_not_le fun enough => fits
            ((le_remaining_cursor_iff call storage).1 enough)
          rw [Assembler.tryBind_of_shortage (a := { cursor := call.cursor storage }) hp short]
          simp only [if_neg fits, if_neg (fun both => fits (And.right both)), Call.conclude,
            Cursor.remaining, length_cursor]
          exact congrArg (fun b => Except.ok (_, b)) unchanged
  · simp only [bind, Call.answer, if_neg starts, effect_of_not_starts starts]
    rw [if_pos ((guard_iff (by omega)).2 starts)]

/-! What a call does -/

/-- The address that a caller is given, for storage that starts at `base`. It is the null address if
nothing was bound. -/
def Answer.pointer (base : UInt64) (answer : Answer) : UInt64 :=
  (answer.entry.map (base + ·)).getD 0

/-- What an accepted call does. -/
structure Bound (base : UInt64) (call : Call) (before : Buffer) (answer : Answer) (after : Buffer) :
    Prop where
  pointer : answer.pointer base = base + call.offset
  not_null : answer.pointer base ≠ 0
  next : call.reports = true → ∀ out, (answer.out out).toNat = call.offset.toNat + 30
  unreported : call.reports = false → ∀ out, answer.out out = out
  silent : answer.warning = none
  length_eq : after.length = before.length
  written : ∃ position, position.index = call.index.toNat ∧
    after.slice? call.offset.toNat 30 =
      some (Trampoline.bytes call.function call.argument position)
  same : ∀ i, i < call.offset.toNat ∨ call.offset.toNat + 30 ≤ i →
    after.bytes[i]? = before.bytes[i]?

/-- What any other call does. -/
structure Refused (base : UInt64) (call : Call) (before : Buffer) (answer : Answer)
    (after : Buffer) : Prop where
  null : answer.pointer base = 0
  out : ∀ out, answer.out out = out
  storage : after = before
  warned : answer.warning.isSome ↔
    call.present = true ∧ call.offset.toNat + 15 ≤ call.usable before

/-- The address space has room for the storage behind the null address. -/
theorem add_offset_ne_zero {base offset : UInt64} {length : Nat} (start : 0 < base.toNat)
    (ends : base.toNat + length < UInt64.size) (inside : offset.toNat ≤ length) :
    base + offset ≠ 0 := by
  intro null
  have sum := Word.toNat_add_of_lt (a := base) (b := offset) (by omega)
  rw [null, UInt64.toNat_zero] at sum
  omega

theorem bound_of_accepted {base : UInt64} (start : 0 < base.toNat)
    (ends : base.toNat + storage.length < UInt64.size)
    (accepted : call.Accepted (call.usable storage)) :
    Bound base call storage (call.answer (call.usable storage)) (call.effect storage) := by
  obtain ⟨starts, ⟨position, hp⟩, fits⟩ := accepted_iff.1 accepted
  have inside := usable_le call storage
  have size := Trampoline.length_bytes call.function call.argument position
  have room : call.offset.toNat + Trampoline.size ≤ storage.length := by
    rw [Call.Fits] at fits
    omega
  have behind : (call.offset + .ofNat Trampoline.size).toNat =
      call.offset.toNat + Trampoline.size := Word.toNat_add_ofNat (by omega)
  simp only [Call.answer, Call.effect, if_pos starts, hp, if_pos fits,
    if_pos (And.intro starts fits)]
  refine ⟨rfl, add_offset_ne_zero start ends (by omega), ?_, ?_, rfl,
    Buffer.length_overwrite .., ⟨position, (Position.ofIndex?_eq_some.1 hp).symm, ?_⟩, ?_⟩
  · intro reports out
    rw [if_pos reports]
    exact behind
  · intro silent out
    rw [silent]
    rfl
  · have put := Buffer.slice?_overwrite (size.symm ▸ room)
    rwa [size] at put
  · intro i outside
    exact Buffer.getElem?_overwrite_of_outside _ _ _ (by rw [size]; exact outside)

theorem refused_of_not_accepted (base : UInt64) (h : ¬ call.Accepted (call.usable storage)) :
    Refused base call storage (call.answer (call.usable storage)) (call.effect storage) := by
  rw [accepted_iff] at h
  by_cases starts : call.Starts (call.usable storage)
  · have warned : ∀ e : BindError, (some e).isSome ↔ call.Starts (call.usable storage) :=
      fun _ => iff_of_true rfl starts
    cases hp : Position.ofIndex? call.index.toNat with
    | none =>
        simp only [Call.answer, Call.effect, if_pos starts, hp]
        exact ⟨rfl, fun _ => rfl, rfl, warned _⟩
    | some position =>
        have short : ¬ call.Fits (call.usable storage) := fun fits =>
          h ⟨starts, ⟨position, hp⟩, fits⟩
        simp only [Call.answer, Call.effect, if_pos starts, hp, if_neg short,
          if_neg (fun both => short (And.right both))]
        exact ⟨rfl, fun _ => rfl, rfl, warned _⟩
  · simp only [Call.answer, if_neg starts, effect_of_not_starts starts]
    exact ⟨rfl, fun _ => rfl, rfl, iff_of_false Bool.false_ne_true starts⟩

/-! Histories -/

/-- The storage behind a history. -/
def behind (calls : List Call) (storage : Buffer) : Buffer :=
  calls.foldl (fun s call => call.effect s) storage

theorem behind_concat (calls : List Call) (call : Call) (storage : Buffer) :
    behind (calls ++ [call]) storage = call.effect (behind calls storage) :=
  List.foldl_append ..

@[simp] theorem length_behind (calls : List Call) (storage : Buffer) :
    (behind calls storage).length = storage.length := by
  induction calls generalizing storage with
  | nil => rfl
  | cons call rest ih => exact (ih _).trans (length_effect call storage)

/-- A history meets no fault, and its answers do not depend on what the storage holds. -/
theorem run_eq (ends : storage.length + 1 < UInt64.size) (calls : List Call) :
    run calls storage =
      .ok (calls.map fun call => call.answer (call.usable storage), behind calls storage) := by
  induction calls generalizing storage with
  | nil => rfl
  | cons call rest ih =>
      have same := length_effect call storage
      rw [run, bind_eq ends]
      change (run rest (call.effect storage) >>= _) = _
      rw [ih (by rwa [same])]
      simp only [usable_congr same]
      rfl

/-- Every history of calls is answered, whatever the calls ask for, on storage that starts at
`base`. Each call finds the storage as the calls before it have left it. If it is accepted it binds:
it gives the address at its offset, which is not the null address, reports the offset behind the
trampoline where that is wanted, and writes the trampoline and nothing else. If not, it gives the
null address and changes nothing, and it is warned about just where there is storage and the offset
keeps the margin. On any other storage of the same length, behind any other calls, the answer is the
same. -/
theorem bound_or_refused_of_run {base : UInt64} (start : 0 < base.toNat)
    (ends : base.toNat + storage.length < UInt64.size) (calls : List Call) :
    ∃ answers final, run calls storage = .ok (answers, final) ∧ answers.length = calls.length ∧
      ∀ (i : Nat) (call : Call), calls[i]? = some call → ∃ before answer after,
        run (calls.take i) storage = .ok (answers.take i, before) ∧
        run (calls.take (i + 1)) storage = .ok (answers.take (i + 1), after) ∧
        answers[i]? = some answer ∧ before.length = storage.length ∧
        (call.Accepted (call.usable storage) → Bound base call before answer after) ∧
        (¬ call.Accepted (call.usable storage) → Refused base call before answer after) ∧
        ∀ (earlier : List Call) (other : Buffer), other.length = storage.length →
          ∃ others last, run (earlier ++ [call]) other = .ok (others ++ [answer], last) := by
  have short : storage.length + 1 < UInt64.size := by omega
  refine ⟨_, _, run_eq short calls, List.length_map _, ?_⟩
  intro i call asked
  have length := length_behind (calls.take i) storage
  have usable := usable_congr length call
  have upTo : calls.take (i + 1) = calls.take i ++ [call] := by
    rw [List.take_add_one, asked, Option.toList_some]
  refine ⟨behind (calls.take i) storage, call.answer (call.usable storage),
    behind (calls.take (i + 1)) storage, ?_, ?_, ?_, length, ?_, ?_, ?_⟩
  · rw [← List.map_take]
    exact run_eq short _
  · rw [← List.map_take]
    exact run_eq short _
  · rw [List.getElem?_map, asked, Option.map_some]
  · intro accepted
    rw [← usable] at accepted
    rw [upTo, behind_concat, ← usable]
    exact bound_of_accepted start (by rwa [length]) accepted
  · intro refused
    rw [← usable] at refused
    rw [upTo, behind_concat, ← usable]
    exact refused_of_not_accepted base refused
  · intro earlier other same
    refine ⟨earlier.map fun call => call.answer (call.usable other),
      behind (earlier ++ [call]) other, ?_⟩
    rw [run_eq (by rwa [same]), List.map_append, List.map_singleton, usable_congr same]

theorem bound_or_refused_of_run_near_the_top :
    let storage := Buffer.filled 64 0xCC
    let wrapping : Call :=
      { offset := 0xFFFFFFFFFFFFFFFB, function := 0x1000, argument := 7, index := 3 }
    let fitting : Call := { offset := 19, function := 0x1000, argument := 7, index := 4 }
    (0 : Nat) < (0x7f0000000000 : UInt64).toNat ∧
      (0x7f0000000000 : UInt64).toNat + storage.length < UInt64.size ∧
      ∃ answers final, run [wrapping, fitting] storage = .ok (answers, final) ∧
        ∃ refused bound, answers[0]? = some refused ∧ answers[1]? = some bound ∧
          refused.pointer 0x7f0000000000 = 0 ∧ refused.warning.isSome = false ∧
          bound.pointer 0x7f0000000000 = 0x7f0000000013 ∧ (bound.out 0).toNat = 49 := by
  intro storage wrapping fitting
  have start : 0 < (0x7f0000000000 : UInt64).toNat := by decide
  have ends : (0x7f0000000000 : UInt64).toNat + storage.length < UInt64.size := by decide
  obtain ⟨answers, final, ran, -, each⟩ :=
    bound_or_refused_of_run start ends [wrapping, fitting]
  obtain ⟨before, first, _, -, -, first_eq, length, -, refuse, -⟩ := each 0 wrapping rfl
  obtain ⟨_, second, _, -, -, second_eq, -, bind, -⟩ := each 1 fitting rfl
  have outside : ¬ wrapping.Accepted (wrapping.usable storage) := fun h => absurd h.2.2 (by decide)
  have refused := refuse outside
  have bound := bind ⟨rfl, .inr (.inr rfl), by decide⟩
  have silent : first.warning.isSome = false := by
    have usable := usable_congr length wrapping
    refine Bool.eq_false_iff.2 fun warned => ?_
    have room := (refused.warned.1 warned).2
    rw [usable] at room
    exact absurd room (by decide)
  exact ⟨start, ends, answers, final, ran, first, second, first_eq, second_eq, refused.null, silent,
    bound.pointer, bound.next rfl 0⟩

end Storage
end Prebind
