import Prebind.Proofs.Accounting
import Prebind.Proofs.LogLines

/-!
What an action of the assembler leaves in the log. Every action but a move logs each instruction at
the place of the cursor that is about to write it, also where writing it meets a fault, and changes
the buffer in no other way. An action that only looks logs nothing.
-/

namespace Prebind

namespace Cursor

/-- The cursor behind a write, whether or not the write met a fault. -/
def wrote (c : Cursor) (bytes : List UInt8) : Cursor :=
  match write bytes c with
  | .ok () d | .error _ d => d

theorem wrote_of_fits {c : Cursor} {bytes : List UInt8}
    (fits : c.position.toNat + bytes.length ≤ c.buffer.length) : c.wrote bytes = c.put bytes := by
  rw [wrote, write_of_fits fits]
  by_cases margin : (c.put bytes).HasMargin
  · rw [if_pos margin]
  · rw [if_neg margin]

theorem wrote_of_outside {c : Cursor} {bytes : List UInt8}
    (h : c.buffer.length < c.position.toNat + bytes.length) : c.wrote bytes = c := by
  rw [wrote, write_of_outside h]

theorem buffer_wrote (c : Cursor) (bytes : List UInt8) :
    (c.wrote bytes).buffer = c.buffer.overwrite c.position.toNat bytes := by
  by_cases fits : c.position.toNat + bytes.length ≤ c.buffer.length
  · rw [wrote_of_fits fits]
    rfl
  · rw [wrote_of_outside (by omega), Buffer.overwrite_of_outside (by omega)]

theorem leads_wrote (c : Cursor) (bytes : List UInt8) : c.Leads (c.wrote bytes) := by
  by_cases fits : c.position.toNat + bytes.length ≤ c.buffer.length
  · rw [wrote_of_fits fits]
    exact leads_put fits
  · rw [wrote_of_outside (by omega)]
    exact .refl c

end Cursor

/-- One cursor comes from another by writing the instructions of events, each event showing the
place of the cursor that wrote its instruction or met a fault over it. -/
inductive Logged : Cursor → List Event → Cursor → Prop
  | none (c : Cursor) : Logged c [] c
  | instruction {c d : Cursor} {events : List Event} (name : String) (i : Instruction)
      (rest : Logged (c.wrote i.encode) events d) :
      Logged c (.instruction c.position i.encode name :: events) d
  | binding {c d : Cursor} {events : List Event} (function argument : UInt64)
      (position : Position) (rest : Logged c events d) :
      Logged c (.binding function argument position c.position :: events) d

namespace Logged

variable {c d e : Cursor} {events more : List Event}

theorem append (h : Logged c events d) (k : Logged d more e) : Logged c (events ++ more) e := by
  induction h with
  | none c => exact k
  | instruction name i rest ih => exact .instruction name i (ih k)
  | binding function argument position rest ih => exact .binding function argument position (ih k)

theorem leads (h : Logged c events d) : c.Leads d := by
  induction h with
  | none c => exact .refl c
  | instruction name i rest ih => exact (Cursor.leads_wrote _ _).trans ih
  | binding function argument position rest ih => exact ih

theorem short (h : Logged c events d) : ∀ e ∈ events, e.Short := by
  induction h with
  | none c => intro e h; cases h
  | instruction name i rest ih =>
      refine List.forall_mem_cons.2 ⟨?_, ih⟩
      intro entry found
      cases found
      have length := Instruction.length_encode_le_ten i
      dsimp only
      omega
  | binding function argument position rest ih =>
      refine List.forall_mem_cons.2 ⟨?_, ih⟩
      intro entry found
      cases found

/-- With a margin left behind them all, none of the instructions can have met a fault. -/
theorem eq_put (h : Logged c events d) (margin : d.HasMargin) :
    let bytes := (Event.entries events).flatMap Prod.snd
    c.position.toNat + bytes.length ≤ c.buffer.length ∧ d = c.put bytes := by
  induction h with
  | none c =>
      refine ⟨?_, (Cursor.put_nil c).symm⟩
      exact Nat.le_trans (Nat.le_add_right _ _) margin
  | @instruction c d events name i rest ih =>
      -- Room never comes back: a margin at the end was there behind this write as well.
      have before := (Cursor.leads_wrote c i.encode).hasMargin (rest.leads.hasMargin margin)
      have length := Instruction.length_encode_le i
      have fits : c.position.toNat + i.encode.length ≤ c.buffer.length := by
        rw [Cursor.HasMargin] at before
        omega
      obtain ⟨inside, same⟩ := ih margin
      rw [Cursor.wrote_of_fits fits] at inside same
      rw [Cursor.position_put fits, Cursor.length_put] at inside
      rw [Event.entries_instruction, List.flatMap_cons]
      have whole : c.position.toNat +
          (i.encode ++ (Event.entries events).flatMap Prod.snd).length ≤
            c.buffer.length := by
        rw [List.length_append]
        omega
      exact ⟨whole, same.trans (Cursor.put_append whole)⟩
  | binding function argument position rest ih => exact ih margin

end Logged

namespace Assembler

variable {α β : Type}

/-- One assembler comes from another by actions that log what they write. -/
def Follows (a b : Assembler) : Prop :=
  ∃ events, b.log = a.log ++ events ∧ Logged a.cursor events b.cursor

theorem Follows.refl (a : Assembler) : Follows a a :=
  ⟨[], (List.append_nil _).symm, .none _⟩

theorem Follows.trans {a b c : Assembler} (h : Follows a b) (k : Follows b c) : Follows a c := by
  obtain ⟨first, added, logged⟩ := h
  obtain ⟨second, added', logged'⟩ := k
  refine ⟨first ++ second, ?_, logged.append logged'⟩
  rw [added', added, List.append_assoc]

/-- Whatever its outcome, an action logs what it writes. -/
structure Logs (x : Action α) : Prop where
  ok : ∀ {a b : Assembler} {r : α}, x a = .ok r b → Follows a b
  error : ∀ {a b : Assembler} {f : Fault}, x a = .error f b → Follows a b

theorem Logs.bind {x : Action α} {y : α → Action β} (hx : Logs x) (hy : ∀ r, Logs (y r)) :
    Logs (x >>= y) where
  ok h := by
    obtain ⟨r, m, first, second⟩ := bind_eq_ok h
    exact (hx.ok first).trans ((hy r).ok second)
  error h := by
    obtain first | ⟨r, m, first, second⟩ := bind_eq_error h
    · exact hx.error first
    · exact (hx.ok first).trans ((hy r).error second)

theorem logs_pure (r : α) : Logs (pure r) where
  ok h := by cases h; exact .refl _
  error h := by cases h

theorem logs_throw (f : Fault) : Logs (throw f : Action α) where
  ok h := by cases h
  error h := by cases h; exact .refl _

theorem logs_emit (name : String) (i : Instruction) : Logs (emit name i) := by
  have one {a : Assembler} {c : Cursor} (left : a.cursor.wrote i.encode = c) :
      Follows a ⟨c, a.log ++ [.instruction a.cursor.position i.encode name]⟩ := by
    refine ⟨_, rfl, .instruction name i ?_⟩
    rw [left]
    exact .none c
  constructor
  · intro a b r h
    cases hw : Cursor.write i.encode a.cursor with
    | ok _ c =>
        rw [emit_of_ok hw] at h
        cases h
        exact one (by rw [Cursor.wrote, hw])
    | error f c =>
        rw [emit_of_error hw] at h
        cases h
  · intro a b f h
    cases hw : Cursor.write i.encode a.cursor with
    | ok _ c =>
        rw [emit_of_ok hw] at h
        cases h
    | error f c =>
        rw [emit_of_error hw] at h
        cases h
        exact one (by rw [Cursor.wrote, hw])

theorem logs_emitAll (code : List (String × Instruction)) : Logs (emitAll code) := by
  induction code with
  | nil => exact logs_pure _
  | cons head rest ih => exact (logs_emit head.1 head.2).bind fun _ => ih

theorem follows_announce (a : Assembler) (function argument : UInt64) (position : Position) :
    Follows a (a.announce function argument position) :=
  ⟨_, rfl, .binding function argument position (.none _)⟩

theorem logs_emitTrampoline (function argument : UInt64) (position : Position) :
    Logs (emitTrampoline function argument position) := by
  have written (entry : UInt64) :
      Logs (do emitAll (trampolineCode function argument position); return entry) :=
    (logs_emitAll _).bind fun _ => logs_pure entry
  constructor
  · intro a b r h
    by_cases inside : a.cursor.position.toNat ≤ a.cursor.buffer.length
    · rw [emitTrampoline_of_current (if_pos inside)] at h
      exact (follows_announce ..).trans ((written _).ok h)
    · rw [emitTrampoline_of_beyond (by omega)] at h
      cases h
  · intro a b f h
    by_cases inside : a.cursor.position.toNat ≤ a.cursor.buffer.length
    · rw [emitTrampoline_of_current (if_pos inside)] at h
      exact (follows_announce ..).trans ((written _).error h)
    · rw [emitTrampoline_of_beyond (by omega)] at h
      cases h
      exact .refl _

theorem logs_bind (function argument index : UInt64) : Logs (bind function argument index) := by
  simp only [Assembler.bind]
  split
  · exact logs_emitTrampoline ..
  · exact logs_throw _

theorem logs_get : Logs get where
  ok h := by cases h; exact .refl _
  error h := by cases h

theorem logs_tryBind (function argument index : UInt64) :
    Logs (tryBind function argument index) := by
  simp only [tryBind]
  split
  · exact logs_pure _
  · apply logs_get.bind
    intro a
    split
    · exact logs_pure _
    · exact (logs_emitTrampoline ..).bind fun _ => logs_pure _

end Assembler

namespace Command

/-- The commands to an assembler. Bytes as such are written by a cursor only. -/
def assembles : Command → Bool
  | .writeByte _ | .writeBytes _ => false
  | _ => true

/-- The commands that move the cursor without writing. -/
def moves : Command → Bool
  | .advance _ => true
  | _ => false

/-- The commands that only look at the cursor. -/
def looks : Command → Bool
  | .ensure _ | .current | .written => true
  | _ => false

theorem run_of_ok {command : Command} {c : Cursor} {reply : Reply} {a : Assembler}
    (h : command.perform { cursor := c } = .ok reply a) :
    command.run c = ⟨.ok reply, a.cursor, a.log⟩ := by
  simp only [run, h]

theorem run_of_error {command : Command} {c : Cursor} {f : Fault} {a : Assembler}
    (h : command.perform { cursor := c } = .error f a) :
    command.run c = ⟨.error f, a.cursor, a.log⟩ := by
  simp only [run, h]

theorem run_ensure (size : UInt64) (c : Cursor) :
    (ensure size).run c =
      match c.ensure size.toNat with
      | .ok () => ⟨.ok .done, c, []⟩
      | .error s => ⟨.ok (.shortage s), c, []⟩ := by
  have got : (get : Assembler.Action Assembler) { cursor := c } =
    .ok { cursor := c } { cursor := c } := rfl
  simp only [run, perform, bind_of_ok got]
  cases c.ensure size.toNat <;> rfl

/-- A command to the cursor alone logs nothing. -/
theorem run_of_onCursor {α : Type} {command : Command} {x : Cursor.Action α} (answer : α → Reply)
    (h : command.perform = do return answer (← Assembler.onCursor x)) (c : Cursor) :
    command.run c =
      match x c with
      | .ok r d => ⟨.ok (answer r), d, []⟩
      | .error f d => ⟨.error f, d, []⟩ := by
  cases result : x c with
  | ok r d =>
      have performed : command.perform { cursor := c } = .ok (answer r) { cursor := d } := by
        rw [h, bind_of_ok (r := r) (b := { cursor := d })]
        · rfl
        · simp only [Assembler.onCursor, result]
      rw [run_of_ok performed]
  | error f d =>
      have performed : command.perform { cursor := c } = .error f { cursor := d } := by
        rw [h, bind_of_error (e := f) (b := { cursor := d })]
        simp only [Assembler.onCursor, result]
      rw [run_of_error performed]

theorem run_of_looks {command : Command} (h : command.looks = true) (c : Cursor) :
    (command.run c).cursor = c ∧ (command.run c).events = [] := by
  cases command with
  | ensure size =>
      rw [run_ensure]
      split <;> exact ⟨rfl, rfl⟩
  | current =>
      rw [run_of_onCursor .offset rfl, Cursor.current]
      by_cases inside : c.position.toNat ≤ c.buffer.length
      · rw [if_pos inside]
        exact ⟨rfl, rfl⟩
      · rw [if_neg inside]
        exact ⟨rfl, rfl⟩
  | written =>
      rw [run_of_onCursor .bytes rfl, Cursor.written]
      by_cases inside : c.position.toNat ≤ c.buffer.length
      · rw [if_pos inside]
        exact ⟨rfl, rfl⟩
      · rw [if_neg inside]
        exact ⟨rfl, rfl⟩
  | _ => cases h

theorem run_advance (size : UInt64) (c : Cursor) :
    ((advance size).run c).cursor.buffer = c.buffer ∧ ((advance size).run c).events = [] := by
  rw [run_of_onCursor (fun _ => .done) rfl]
  by_cases sum : c.position.toNat + size.toNat < UInt64.size
  · rw [Cursor.advance_of_sum sum]
    by_cases margin : ({ c with position := c.position + size } : Cursor).HasMargin
    · rw [if_pos margin]
      exact ⟨rfl, rfl⟩
    · rw [if_neg margin]
      exact ⟨rfl, rfl⟩
  · rw [Cursor.advance_of_overflow (by omega)]
    exact ⟨rfl, rfl⟩

theorem logs_perform {command : Command} (step : command.assembles = true)
    (writes : command.moves = false) (acts : command.looks = false) :
    Assembler.Logs command.perform := by
  cases command with
  | writeByte _ | writeBytes _ => cases step
  | advance _ => cases writes
  | ensure _ | current | written => cases acts
  | push16 _ | pushRax | popRax | pop _ | loadRax _ | movFromRax _ | movToRax _ | ret
  | breakpoint =>
      exact (Assembler.logs_emit _ _).bind fun _ => Assembler.logs_pure _
  | pushImmediate value =>
      have pushed := Assembler.logs_emitAll (Assembler.pushes value)
      rw [← Assembler.pushImmediate_eq] at pushed
      exact pushed.bind fun _ => Assembler.logs_pure _
  | jump target =>
      have jumped := Assembler.logs_emitAll (Assembler.jumpCode target)
      rw [← Assembler.jump_eq] at jumped
      exact jumped.bind fun _ => Assembler.logs_pure _
  | bind function argument index =>
      exact (Assembler.logs_bind ..).bind fun _ => Assembler.logs_pure _
  | emitTrampoline function argument position =>
      exact (Assembler.logs_emitTrampoline ..).bind fun _ => Assembler.logs_pure _
  | tryBind function argument index =>
      apply (Assembler.logs_tryBind function argument index).bind
      intro r
      cases r <;> exact Assembler.logs_pure _

theorem logged_run {command : Command} (step : command.assembles = true)
    (writes : command.moves = false) (c : Cursor) :
    Logged c (command.run c).events (command.run c).cursor := by
  by_cases look : command.looks = true
  · obtain ⟨same, silent⟩ := run_of_looks look c
    rw [same, silent]
    exact .none c
  · have logs := logs_perform step writes (Bool.eq_false_of_not_eq_true look)
    cases performed : command.perform { cursor := c } with
    | ok reply a =>
        obtain ⟨events, added, logged⟩ := logs.ok performed
        rw [run_of_ok performed]
        dsimp only
        rw [added]
        exact logged
    | error f a =>
        obtain ⟨events, added, logged⟩ := logs.error performed
        rw [run_of_error performed]
        dsimp only
        rw [added]
        exact logged

/-! Trampolines -/

/-- The function, the argument and the position of the trampoline that a command is to write. -/
def trampoline? : Command → Option (UInt64 × UInt64 × Position)
  | .bind function argument index | .tryBind function argument index =>
    (Position.ofIndex? index.toNat).map (function, argument, ·)
  | .emitTrampoline function argument position => some (function, argument, position)
  | _ => none

variable {function argument : UInt64} {position : Position}

/-- A binding that is not refused is the writing of its trampoline. -/
theorem run_of_trampoline {command : Command}
    (h : command.trampoline? = some (function, argument, position)) (c : Cursor) :
    command.run c = (emitTrampoline function argument position).run c ∨
      (command.run c).cursor = c ∧ ∃ e, (command.run c).reply = .ok (.refused e) := by
  cases command with
  | emitTrampoline _ _ _ =>
      cases h
      exact .inl rfl
  | bind function' argument' index =>
      obtain ⟨position', found, same⟩ := Option.map_eq_some_iff.1 h
      cases same
      exact .inl (by simp only [run, perform, Assembler.bind_of_position found])
  | tryBind function' argument' index =>
      obtain ⟨position', found, same⟩ := Option.map_eq_some_iff.1 h
      cases same
      by_cases room : Trampoline.size ≤ c.remaining
      · have tried : Assembler.tryBind function argument index { cursor := c } = _ :=
          Assembler.tryBind_of_room found room
        have entered : (emitTrampoline function argument position).perform { cursor := c } = _ :=
          bind_of_ok (Assembler.emitTrampoline_of_room
            ((Cursor.le_remaining_iff (by decide)).1 room))
        exact .inl ((run_of_tryBind tried).trans (run_of_ok entered).symm)
      · have tried : Assembler.tryBind function argument index { cursor := c } = _ :=
          Assembler.tryBind_of_shortage found (Nat.lt_of_not_le room)
        rw [run_of_tryBind tried]
        exact .inr ⟨rfl, _, rfl⟩
  | _ => cases h

theorem run_emitTrampoline_of_inside {c : Cursor}
    (inside : c.position.toNat ≤ c.buffer.length) :
    (emitTrampoline function argument position).run c =
      match Assembler.emitAll (Assembler.trampolineCode function argument position)
        (Assembler.announce { cursor := c } function argument position) with
      | .ok () b => ⟨.ok (.offset c.position), b.cursor, b.log⟩
      | .error f b => ⟨.error f, b.cursor, b.log⟩ := by
  have entered : Assembler.emitTrampoline function argument position { cursor := c } = _ :=
    Assembler.emitTrampoline_of_current (if_pos inside)
  cases written : Assembler.emitAll (Assembler.trampolineCode function argument position)
      (Assembler.announce { cursor := c } function argument position) with
  | ok _ b =>
      rw [bind_of_ok written] at entered
      exact run_of_ok (bind_of_ok entered)
  | error f b =>
      rw [bind_of_error written] at entered
      exact run_of_error (bind_of_error entered)

theorem run_emitTrampoline_of_beyond {c : Cursor} (beyond : c.buffer.length < c.position.toNat) :
    (emitTrampoline function argument position).run c = ⟨.error .bounds, c, []⟩ :=
  run_of_error (a := { cursor := c }) (bind_of_error (Assembler.emitTrampoline_of_beyond beyond))

/-- A trampoline that is offered is complete, and one that is complete has been announced once and
traced instruction by instruction, whether it is offered or a fault was met behind it. -/
theorem complete_of_trampoline {command : Command}
    (h : command.trampoline? = some (function, argument, position)) (c : Cursor) :
    let o := command.run c
    let stop := c.position.toNat + Trampoline.size
    (∀ entry, o.reply = .ok (.offset entry) → o.cursor.position.toNat = stop) ∧
    (o.cursor.position.toNat = stop →
      stop ≤ c.buffer.length ∧
      o.cursor = c.put (Trampoline.bytes function argument position) ∧
      o.events = .binding function argument position c.position ::
        Assembler.trace c.position (Assembler.trampolineCode function argument position)) := by
  intro o stop
  have length : (Assembler.bytesOf
      (Assembler.trampolineCode function argument position)).length = Trampoline.size :=
    Trampoline.length_bytes function argument position
  have short : c.position.toNat ≠ stop := Nat.ne_of_lt (Nat.lt_add_of_pos_right (by decide))
  obtain same | ⟨same, e, refused⟩ := run_of_trampoline h c
  · by_cases inside : c.position.toNat ≤ c.buffer.length
    · have some : Assembler.trampolineCode function argument position ≠ [] := List.cons_ne_nil _ _
      rw [show o = _ from same, run_emitTrampoline_of_inside inside]
      cases written : Assembler.emitAll (Assembler.trampolineCode function argument position)
          (Assembler.announce { cursor := c } function argument position) with
      | ok _ b =>
          obtain ⟨rfl, none | room⟩ := Assembler.emitAll_eq_ok written
          · exact absurd none some
          · have behind := Assembler.position_after written
            rw [length] at behind room
            exact ⟨fun _ _ => behind, fun _ => ⟨Nat.le_of_add_right_le room, rfl, rfl⟩⟩
      | error f b =>
          -- The last write puts its bytes and then finds no margin behind them.
          refine ⟨fun _ offered => (by cases offered), fun far => ?_⟩
          have complete := Assembler.eq_after_of_position some (.inr ⟨f, written⟩)
          rw [length] at complete
          obtain ⟨rfl, fits⟩ := complete (Nat.le_of_eq far.symm)
          exact ⟨fits, rfl, rfl⟩
    · rw [show o = _ from same, run_emitTrampoline_of_beyond (by omega)]
      exact ⟨fun _ offered => (by cases offered), fun far => absurd far short⟩
  · refine ⟨?_, fun far => absurd far ?_⟩
    · intro entry offered
      rw [show o.reply = _ from refused] at offered
      cases offered
    · rwa [show o.cursor = c from same]

end Command

end Prebind
