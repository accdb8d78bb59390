import Prebind.Code.Session
import Prebind.Proofs.Emission

/-!
Which bytes a session can have changed. An action that emits leads the cursor forward whatever its
outcome, and returns normally only where it leaves a margin; an action that only looks leaves the
cursor where it is. Every command is of one of these kinds, except for the fallible binding, which
emits or does nothing. What one command may do then holds of whole sessions, across any faults.
-/

namespace Prebind
namespace Assembler

variable {α β : Type}

/-- The cursors before and behind an action are in one relation if it returns normally and in
another if it meets a fault. -/
structure Ends (x : Action α) (done failed : Cursor → Cursor → Prop) : Prop where
  ok : ∀ {a b : Assembler} {r : α}, x a = .ok r b → done a.cursor b.cursor
  error : ∀ {a b : Assembler} {f : Fault}, x a = .error f b → failed a.cursor b.cursor

def Emits (x : Action α) : Prop :=
  Ends x (fun c d => c.Leads d ∧ d.HasMargin) Cursor.Leads

def Quiet (x : Action α) : Prop :=
  Ends x Eq Eq

theorem Ends.bind {x : Action α} {y : α → Action β}
    {done₁ failed₁ done₂ failed₂ done failed : Cursor → Cursor → Prop}
    (hx : Ends x done₁ failed₁) (hy : ∀ r, Ends (y r) done₂ failed₂)
    (hd : ∀ {c d e}, done₁ c d → done₂ d e → done c e)
    (hf : ∀ {c d}, failed₁ c d → failed c d)
    (hdf : ∀ {c d e}, done₁ c d → failed₂ d e → failed c e) : Ends (x >>= y) done failed where
  ok h := by
    obtain ⟨r, m, first, second⟩ := bind_eq_ok h
    exact hd (hx.ok first) ((hy r).ok second)
  error h := by
    obtain first | ⟨r, m, first, second⟩ := bind_eq_error h
    · exact hf (hx.error first)
    · exact hdf (hx.ok first) ((hy r).error second)

theorem Emits.bind {x : Action α} {y : α → Action β} (hx : Emits x) (hy : ∀ r, Emits (y r)) :
    Emits (x >>= y) :=
  Ends.bind hx hy (fun h k => ⟨h.1.trans k.1, k.2⟩) id (fun h k => h.1.trans k)

theorem Emits.bind_quiet {x : Action α} {y : α → Action β} (hx : Emits x)
    (hy : ∀ r, Quiet (y r)) : Emits (x >>= y) :=
  Ends.bind hx hy (fun h k => k ▸ h) id (fun h k => k ▸ h.1)

theorem Quiet.bind_emits {x : Action α} {y : α → Action β} (hx : Quiet x)
    (hy : ∀ r, Emits (y r)) : Emits (x >>= y) :=
  Ends.bind hx hy (fun h k => h ▸ k) (fun h => h ▸ .refl _) (fun h k => h ▸ k)

theorem Quiet.bind {x : Action α} {y : α → Action β} (hx : Quiet x) (hy : ∀ r, Quiet (y r)) :
    Quiet (x >>= y) :=
  Ends.bind hx hy Eq.trans id Eq.trans

theorem quiet_pure (r : α) : Quiet (pure r) where
  ok h := by cases h; rfl
  error h := by cases h

theorem quiet_get : Quiet get where
  ok h := by cases h; rfl
  error h := by cases h

theorem quiet_record (e : Event) : Quiet (record e) where
  ok h := by cases h; rfl
  error h := by cases h

theorem emits_throw (f : Fault) : Emits (throw f : Action α) where
  ok h := by cases h
  error h := by cases h; exact .refl _

/-- What holds of an action of the cursor holds of the assembler that carries it out. -/
theorem ends_onCursor {x : Cursor.Action α} {done failed : Cursor → Cursor → Prop}
    (ok : ∀ {c d r}, x c = .ok r d → done c d) (error : ∀ {c d f}, x c = .error f d → failed c d) :
    Ends (onCursor x) done failed where
  ok {a b r} h := by
    simp only [onCursor] at h
    cases hx : x a.cursor with
    | ok s d => rw [hx] at h; cases h; exact ok hx
    | error f d => rw [hx] at h; cases h
  error {a b f} h := by
    simp only [onCursor] at h
    cases hx : x a.cursor with
    | ok s d => rw [hx] at h; cases h
    | error f d => rw [hx] at h; cases h; exact error hx

/-- An action that looks at a cursor within its buffer, and faults at any other. -/
theorem quiet_onCursor (view : Cursor → α) :
    Quiet (onCursor fun c =>
      if c.position.toNat ≤ c.buffer.length then .ok (view c) c else .error .bounds c) := by
  apply ends_onCursor
  · intro c d r h
    split at h <;> cases h
    rfl
  · intro c d f h
    split at h <;> cases h
    rfl

theorem quiet_current : Quiet (onCursor Cursor.current) :=
  quiet_onCursor Cursor.position

theorem quiet_written : Quiet (onCursor Cursor.written) :=
  quiet_onCursor fun c => c.buffer.bytes.take c.position.toNat

theorem emits_write (bytes : List UInt8) : Emits (onCursor (Cursor.write bytes)) := by
  apply ends_onCursor
  · intro c d _ h
    obtain ⟨room, rfl⟩ := Cursor.write_eq_ok h
    have fits : c.position.toNat + bytes.length ≤ c.buffer.length := by omega
    refine ⟨Cursor.leads_put fits, ?_⟩
    rwa [Cursor.HasMargin, Cursor.position_put fits, Cursor.length_put]
  · intro c d f h
    by_cases fits : c.position.toNat + bytes.length ≤ c.buffer.length
    · rw [Cursor.write_of_fits fits] at h
      split at h <;> cases h
      exact Cursor.leads_put fits
    · rw [Cursor.write_of_outside (by omega)] at h
      cases h
      exact .refl _

theorem emits_advance (size : UInt64) : Emits (onCursor (Cursor.advance size)) := by
  apply ends_onCursor
  · intro c d _ h
    by_cases sum : c.position.toNat + size.toNat < UInt64.size
    · rw [Cursor.advance_of_sum sum] at h
      dsimp only at h
      split at h
      · next margin =>
        cases h
        exact ⟨Cursor.leads_moved sum, margin⟩
      · cases h
    · rw [Cursor.advance_of_overflow (by omega)] at h
      cases h
  · intro c d f h
    by_cases sum : c.position.toNat + size.toNat < UInt64.size
    · rw [Cursor.advance_of_sum sum] at h
      dsimp only at h
      split at h <;> cases h
      exact Cursor.leads_moved sum
    · rw [Cursor.advance_of_overflow (by omega)] at h
      cases h
      exact .refl _

/-! Actions of the assembler -/

theorem emits_emit (name : String) (i : Instruction) : Emits (emit name i) :=
  quiet_get.bind_emits fun _ => (quiet_record _).bind_emits fun _ => emits_write _

theorem emits_emitAll {code : List (String × Instruction)} (h : code ≠ []) :
    Emits (emitAll code) := by
  induction code with
  | nil => exact absurd rfl h
  | cons head rest ih =>
      obtain ⟨name, i⟩ := head
      rw [emitAll_cons]
      by_cases last : rest = []
      · subst last
        exact (emits_emit name i).bind_quiet fun _ => quiet_pure _
      · exact (emits_emit name i).bind fun _ => ih last

theorem emits_pushImmediate (value : UInt64) : Emits (pushImmediate value) := by
  rw [pushImmediate_eq]
  exact emits_emitAll (by simp [pushes, Word.parts])

theorem emits_jump (target : UInt64) : Emits (jump target) := by
  rw [jump_eq]
  exact emits_emitAll (by simp [jumpCode])

theorem emits_emitTrampoline (function argument : UInt64) (position : Position) :
    Emits (emitTrampoline function argument position) :=
  quiet_current.bind_emits fun _ => quiet_get.bind_emits fun _ =>
    (quiet_record _).bind_emits fun _ => (emits_emit _ _).bind fun _ =>
      (emits_emit _ _).bind fun _ => (emits_jump _).bind_quiet fun _ => quiet_pure _

theorem emits_bind (function argument index : UInt64) : Emits (bind function argument index) := by
  simp only [Assembler.bind]
  split
  · exact emits_emitTrampoline ..
  · exact emits_throw _

end Assembler

namespace Command

/-- The commands that emit code or move the cursor, and meet a fault where they cannot. -/
def emits : Command → Bool
  | .ensure _ | .current | .written | .tryBind .. => false
  | _ => true

theorem emits_perform {command : Command} (h : command.emits = true) :
    Assembler.Emits command.perform := by
  cases command with
  | writeByte _ | writeBytes _ =>
      exact (Assembler.emits_write _).bind_quiet fun _ => Assembler.quiet_pure _
  | push16 _ | pushRax | popRax | pop _ | loadRax _ | movFromRax _ | movToRax _ | ret
  | breakpoint =>
      exact (Assembler.emits_emit _ _).bind_quiet fun _ => Assembler.quiet_pure _
  | pushImmediate value =>
      exact (Assembler.emits_pushImmediate value).bind_quiet fun _ => Assembler.quiet_pure _
  | jump target => exact (Assembler.emits_jump target).bind_quiet fun _ => Assembler.quiet_pure _
  | advance size => exact (Assembler.emits_advance size).bind_quiet fun _ => Assembler.quiet_pure _
  | bind function argument index =>
      exact (Assembler.emits_bind ..).bind_quiet fun _ => Assembler.quiet_pure _
  | emitTrampoline function argument position =>
      exact (Assembler.emits_emitTrampoline ..).bind_quiet fun _ => Assembler.quiet_pure _
  | ensure _ | current | written | tryBind _ _ _ => cases h

def replyTo : Except BindError UInt64 → Reply
  | .ok entry => .offset entry
  | .error e => .refused e

theorem run_of_tryBind {function argument index : UInt64} {c : Cursor}
    {r : Except BindError UInt64} {a : Assembler}
    (h : Assembler.tryBind function argument index { cursor := c } = .ok r a) :
    (Command.tryBind function argument index).run c = ⟨.ok (replyTo r), a.cursor, a.log⟩ := by
  have performed : (Command.tryBind function argument index).perform { cursor := c } =
      .ok (replyTo r) a := by
    have unfolded : (Command.tryBind function argument index).perform = (do
        match ← Assembler.tryBind function argument index with
        | .ok entry => return .offset entry
        | .error e => return .refused e) := rfl
    rw [unfolded, bind_of_ok h]
    cases r <;> rfl
  simp only [run, performed]

/-- A fallible binding is refused without a change, or there is room and it puts a trampoline. -/
theorem run_tryBind (function argument index : UInt64) (c : Cursor) :
    let o := (Command.tryBind function argument index).run c
    (∃ e, o.reply = .ok (.refused e) ∧ o.cursor = c ∧ o.events = []) ∨
      (Trampoline.size ≤ c.remaining ∧ o.reply = .ok (.offset c.position) ∧
        ∃ position, o.cursor = c.put (Trampoline.bytes function argument position)) := by
  cases hp : Position.ofIndex? index.toNat with
  | none =>
      rw [run_of_tryBind (Assembler.tryBind_of_no_position { cursor := c } hp)]
      exact .inl ⟨_, rfl, rfl, rfl⟩
  | some position =>
      by_cases room : Trampoline.size ≤ c.remaining
      · rw [run_of_tryBind (Assembler.tryBind_of_room hp room)]
        exact .inr ⟨room, rfl, position, rfl⟩
      · rw [run_of_tryBind (Assembler.tryBind_of_shortage hp (Nat.lt_of_not_le room))]
        exact .inl ⟨_, rfl, rfl, rfl⟩

theorem run_ends {command : Command} {done failed : Cursor → Cursor → Prop}
    (h : Assembler.Ends command.perform done failed) (c : Cursor) :
    (∃ reply, (command.run c).reply = .ok reply ∧ done c (command.run c).cursor) ∨
      ∃ f, (command.run c).reply = .error f ∧ failed c (command.run c).cursor := by
  simp only [run]
  cases hp : command.perform { cursor := c } with
  | ok reply a => exact .inl ⟨reply, rfl, h.ok hp⟩
  | error f a => exact .inr ⟨f, rfl, h.error hp⟩

theorem leads_of_quiet {command : Command} (h : Assembler.Quiet command.perform) (c : Cursor) :
    c.Leads (command.run c).cursor := by
  obtain ⟨_, _, same⟩ | ⟨_, _, same⟩ := run_ends h c <;> exact same ▸ .refl c

/-- Whatever becomes of a command, it leads the cursor forward. -/
theorem leads_run (command : Command) (c : Cursor) : c.Leads (command.run c).cursor := by
  by_cases h : command.emits = true
  · obtain ⟨_, _, done⟩ | ⟨_, _, failed⟩ := run_ends (emits_perform h) c
    · exact done.1
    · exact failed
  · cases command with
    | ensure size =>
        apply leads_of_quiet
        apply Assembler.quiet_get.bind
        intro a
        cases a.cursor.ensure size.toNat <;> exact Assembler.quiet_pure _
    | current =>
        apply leads_of_quiet
        exact Assembler.quiet_current.bind fun _ => Assembler.quiet_pure _
    | written =>
        apply leads_of_quiet
        exact Assembler.quiet_written.bind fun _ => Assembler.quiet_pure _
    | tryBind function argument index =>
        obtain ⟨_, _, same, _⟩ | ⟨room, _, position, put⟩ := run_tryBind function argument index c
        · rw [same]
          exact .refl c
        · rw [put]
          apply Cursor.leads_put
          rw [Trampoline.length_bytes]
          have fits := (Cursor.le_remaining_iff (by decide)).1 room
          omega
    | _ => exact absurd rfl h

/-- Behind a command that emitted there is a margin. -/
theorem hasMargin_of_emits {command : Command} (h : command.emits = true) {c : Cursor}
    {reply : Reply} (ok : (command.run c).reply = .ok reply) :
    (command.run c).cursor.HasMargin := by
  obtain ⟨_, _, done⟩ | ⟨f, failed, _⟩ := run_ends (emits_perform h) c
  · exact done.2
  · rw [failed] at ok
    cases ok

/-- Without a margin nothing can be emitted. -/
theorem fault_of_no_margin {command : Command} (h : command.emits = true) {c : Cursor}
    (lost : ¬ c.HasMargin) : ∃ f, (command.run c).reply = .error f := by
  obtain ⟨_, _, done⟩ | ⟨f, failed, _⟩ := run_ends (emits_perform h) c
  · exact absurd (done.1.hasMargin done.2) lost
  · exact ⟨f, failed⟩

theorem hasMargin_of_tryBind {function argument index entry : UInt64} {c : Cursor}
    (ok : ((Command.tryBind function argument index).run c).reply = .ok (.offset entry)) :
    ((Command.tryBind function argument index).run c).cursor.HasMargin := by
  obtain ⟨e, refused, _⟩ | ⟨room, _, position, put⟩ := run_tryBind function argument index c
  · rw [refused] at ok
    cases ok
  · have fits := (Cursor.le_remaining_iff (by decide)).1 room
    rw [put, Cursor.HasMargin, Cursor.position_put, Cursor.length_put, Trampoline.length_bytes]
    · exact fits
    · rw [Trampoline.length_bytes]
      omega

theorem refused_of_no_margin (function argument index : UInt64) {c : Cursor}
    (lost : ¬ c.HasMargin) :
    ∃ e, ((Command.tryBind function argument index).run c).reply = .ok (.refused e) := by
  obtain ⟨e, refused, _⟩ | ⟨room, _⟩ := run_tryBind function argument index c
  · exact ⟨e, refused⟩
  · have fits := (Cursor.le_remaining_iff (by decide)).1 room
    simp only [Cursor.HasMargin] at lost
    omega

end Command

namespace Session

theorem leads_final (commands : List Command) (c : Cursor) : c.Leads (final commands c) := by
  induction commands generalizing c with
  | nil => exact .refl c
  | cons command rest ih => exact (command.leads_run c).trans (ih _)

theorem final_append (past future : List Command) (c : Cursor) :
    final (past ++ future) c = final future (final past c) :=
  List.foldl_append ..

/-- The outcome behind a past is that of the next command on the cursor the past leaves. -/
theorem getElem?_run (past : List Command) (command : Command) (future : List Command)
    (c : Cursor) :
    (run (past ++ command :: future) c)[past.length]? = some (command.run (final past c)) := by
  induction past generalizing c with
  | nil => rfl
  | cons first rest ih => exact ih _

/-- The account of a session, across all faults. The past of a session keeps the length of the
buffer and every byte that the cursor has not passed. The next command moves the cursor forward, if
at all, changes bytes only where the cursor passes, and leaves a margin, with exactly the room that
is counted, if it emits and returns normally. No future changes a byte that the cursor has passed;
and a margin that is lost stays lost, so that every later emission faults and every fallible binding
is refused. -/
theorem byte_accounting (start : Cursor) (past : List Command) :
    let c := final past start
    c.buffer.length = start.buffer.length ∧
    (∀ i, c.position.toNat ≤ i → c.buffer.bytes[i]? = start.buffer.bytes[i]?) ∧
    (∀ (command : Command) (future : List Command), ∃ o,
      (run (past ++ command :: future) start)[past.length]? = some o ∧
      o.cursor.buffer.length = start.buffer.length ∧
      c.position.toNat ≤ o.cursor.position.toNat ∧
      (∀ i, o.cursor.buffer.bytes[i]? ≠ c.buffer.bytes[i]? →
        c.position.toNat ≤ i ∧ i < o.cursor.position.toNat) ∧
      (∀ reply, o.reply = .ok reply →
        command.emits = true ∨ (∃ f x n entry, command = .tryBind f x n ∧ reply = .offset entry) →
        o.cursor.position.toNat + Instruction.maxLength ≤ o.cursor.buffer.length ∧
        o.cursor.position.toNat + Instruction.maxLength + o.cursor.remaining =
          o.cursor.buffer.length)) ∧
    (∀ future : List Command, let d := final (past ++ future) start
      (∀ i, i < c.position.toNat → d.buffer.bytes[i]? = c.buffer.bytes[i]?) ∧
      (c.buffer.length < c.position.toNat + Instruction.maxLength →
        d.buffer.length < d.position.toNat + Instruction.maxLength ∧
        (∀ command : Command, command.emits = true → ∃ f, (command.run d).reply = .error f) ∧
        ∀ f x n, ∃ e, ((Command.tryBind f x n).run d).reply = .ok (.refused e))) := by
  intro c
  have passed := leads_final past start
  refine ⟨passed.length_eq, fun i hi => passed.same i (.inr hi), ?_, ?_⟩
  · intro command future
    have next := command.leads_run c
    refine ⟨command.run c, getElem?_run past command future start,
      next.length_eq.trans passed.length_eq, next.le, ?_, ?_⟩
    · intro i changed
      apply Classical.byContradiction
      intro outside
      exact changed (next.same i (by omega))
    · intro reply ok emitted
      have margin : (command.run c).cursor.HasMargin := by
        obtain h | ⟨f, x, n, entry, rfl, rfl⟩ := emitted
        · exact Command.hasMargin_of_emits h ok
        · exact Command.hasMargin_of_tryBind ok
      exact ⟨margin, margin.remaining_eq⟩
  · intro future d
    have later : c.Leads d := by
      rw [show d = final future c from final_append past future start]
      exact leads_final future c
    refine ⟨fun i hi => later.same i (.inl hi), ?_⟩
    intro lost
    have lostLater : ¬ d.HasMargin := fun margin => Nat.not_le_of_lt lost (later.hasMargin margin)
    exact ⟨Nat.lt_of_not_le lostLater,
      fun command h => Command.fault_of_no_margin h lostLater,
      fun f x n => Command.refused_of_no_margin f x n lostLater⟩

end Session
end Prebind
