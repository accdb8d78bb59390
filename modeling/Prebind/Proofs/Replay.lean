import Prebind.Proofs.Logging

/-!
The log of a session is a second account of what became of its buffer: its lines, read back and
carried out on the buffer that the session started from, lead to the buffer it leaves, across all
faults. In between, the lines of each command tell what that command wrote and where.
-/

namespace Prebind

open Event (traced?)

/-- Puts the bytes of entries into a buffer, each at its offset if it fits there. -/
def Buffer.replay (b : Buffer) (entries : List (UInt64 × List UInt8)) : Buffer :=
  entries.foldl (fun b (offset, bytes) => b.overwrite offset.toNat bytes) b

namespace Cursor

/-- Writes the bytes of entries one after the other, each of which has to show the place of the
cursor that writes it. -/
def retrace (c : Cursor) : List (UInt64 × List UInt8) → Option Cursor
  | [] => some c
  | (offset, bytes) :: rest => if offset = c.position then (c.wrote bytes).retrace rest else none

/-- The bytes between the place of an earlier cursor and that of this one. -/
def since (d c : Cursor) : List UInt8 :=
  (d.buffer.bytes.drop c.position.toNat).take (d.position.toNat - c.position.toNat)

theorem since_self (c : Cursor) : c.since c = [] := by
  rw [since, Nat.sub_self, List.take_zero]

theorem since_put {c : Cursor} {bytes : List UInt8}
    (fits : c.position.toNat + bytes.length ≤ c.buffer.length) : (c.put bytes).since c = bytes := by
  have held := Buffer.slice?_overwrite fits
  rw [Buffer.slice?, if_pos (by rwa [Buffer.length_overwrite])] at held
  rw [since, position_put fits, Nat.add_sub_cancel_left]
  exact Option.some.inj held

theorem replay_of_retrace {c d : Cursor} {entries : List (UInt64 × List UInt8)}
    (h : c.retrace entries = some d) : c.buffer.replay entries = d.buffer := by
  induction entries generalizing c with
  | nil =>
      cases h
      rfl
  | cons entry rest ih =>
      obtain ⟨offset, bytes⟩ := entry
      simp only [retrace] at h
      split at h
      · next place =>
        have later := ih h
        rw [buffer_wrote, ← place] at later
        exact later
      · cases h

end Cursor

theorem Logged.retrace {c d : Cursor} {events : List Event} (h : Logged c events d) :
    c.retrace (Event.entries events) = some d := by
  induction h with
  | none c => rfl
  | instruction name i rest ih =>
      rw [Event.entries_instruction, Cursor.retrace, if_pos rfl]
      exact ih
  | binding function argument position rest ih =>
      rw [Event.entries_binding]
      exact ih

namespace Assembler

theorem entries_trace (position : UInt64) (code : List (String × Instruction)) :
    (Event.entries (trace position code)).map Prod.snd = code.map fun (_, i) => i.encode := by
  induction code generalizing position with
  | nil => rfl
  | cons head rest ih => rw [trace, Event.entries_instruction, List.map_cons, ih, List.map_cons]

theorem shown?_of_mem_trace {position : UInt64} {code : List (String × Instruction)} {e : Event}
    (h : e ∈ trace position code) : e.shown?.isSome = true := by
  induction code generalizing position with
  | nil => cases h
  | cons head rest ih =>
      obtain rfl | h := List.mem_cons.1 h
      · rfl
      · exact ih h

theorem length_trace (position : UInt64) (code : List (String × Instruction)) :
    (trace position code).length = code.length := by
  induction code generalizing position with
  | nil => rfl
  | cons head rest ih => rw [trace, List.length_cons, ih, List.length_cons]

end Assembler

/-- The lines of the log that a command adds. -/
def Outcome.lines (o : Outcome) : List String :=
  o.events.map Event.line

theorem Buffer.replay_append (b : Buffer) (xs ys : List (UInt64 × List UInt8)) :
    b.replay (xs ++ ys) = (b.replay xs).replay ys :=
  List.foldl_append

namespace Command

/-- What a command that met no fault has logged stands between its cursors. -/
theorem since_run {command : Command} (step : command.assembles = true)
    (writes : command.moves = false) {c : Cursor} {reply : Reply}
    (ok : (command.run c).reply = .ok reply) :
    (Event.entries (command.run c).events).flatMap Prod.snd = (command.run c).cursor.since c := by
  have still {o : Outcome} (same : o.cursor = c) (silent : o.events = []) :
      (Event.entries o.events).flatMap Prod.snd = o.cursor.since c := by
    rw [same, silent, Cursor.since_self]
    rfl
  have written (margin : (command.run c).cursor.HasMargin) :
      (Event.entries (command.run c).events).flatMap Prod.snd =
        (command.run c).cursor.since c := by
    obtain ⟨fits, put⟩ := (logged_run step writes c).eq_put margin
    rw [put]
    exact (Cursor.since_put fits).symm
  by_cases emits : command.emits = true
  · exact written (hasMargin_of_emits emits ok)
  · cases command with
    | ensure _ | current | written =>
        exact still (run_of_looks rfl c).1 (run_of_looks rfl c).2
    | tryBind function argument index =>
        obtain ⟨e, _, same, silent⟩ | ⟨_, offered, _⟩ := run_tryBind function argument index c
        · exact still same silent
        · exact written (hasMargin_of_tryBind offered)
    | _ => exact absurd rfl emits

theorem short_run {command : Command} (step : command.assembles = true) (c : Cursor) :
    ∀ e ∈ (command.run c).events, e.Short := by
  by_cases moves : command.moves = true
  · cases command with
    | advance size =>
        rw [(run_advance size c).2]
        intro e none
        cases none
    | _ => cases moves
  · exact (logged_run step (Bool.eq_false_of_not_eq_true moves) c).short

theorem traced?_run {command : Command} (step : command.assembles = true) (c : Cursor) :
    traced? (command.run c).lines = some (Event.entries (command.run c).events) :=
  Event.traced?_lines (short_run step c)

theorem replay_run {command : Command} (step : command.assembles = true) (c : Cursor) :
    c.buffer.replay (Event.entries (command.run c).events) = (command.run c).cursor.buffer := by
  by_cases moves : command.moves = true
  · cases command with
    | advance size =>
        obtain ⟨same, silent⟩ := run_advance size c
        rw [same, silent]
        rfl
    | _ => cases moves
  · have logged := logged_run step (Bool.eq_false_of_not_eq_true moves) c
    exact Cursor.replay_of_retrace logged.retrace

end Command

namespace Session

def log (commands : List Command) (start : Cursor) : List String :=
  (run commands start).flatMap Outcome.lines

theorem replay_log {commands : List Command}
    (steps : ∀ command ∈ commands, command.assembles = true) (start : Cursor) :
    (traced? (log commands start)).map start.buffer.replay =
      some (final commands start).buffer := by
  induction commands generalizing start with
  | nil => rfl
  | cons command rest ih =>
      have step := steps command List.mem_cons_self
      have later := ih (fun c h => steps c (List.mem_cons_of_mem _ h)) (command.run start).cursor
      obtain ⟨entries, traced, replayed⟩ := Option.map_eq_some_iff.1 later
      have first := Command.traced?_run step start
      have whole : log (command :: rest) start =
          (command.run start).lines ++ log rest (command.run start).cursor := rfl
      rw [whole, Event.traced?_append first traced, Option.map_some, Buffer.replay_append,
        Command.replay_run step, replayed]
      rfl

/-- The log of a session tells what became of its buffer. Its trace lines can all be read, and what
they show, carried out on the buffer from the start, gives the buffer at the end. Each command on
the way adds lines of its own. A move adds none. The lines of any other command show, instruction by
instruction, the place of the cursor that wrote it or was to write it, and once the command returns,
the bytes that stand between its cursors. A trampoline that is complete has one line that announces
it and seven that show its instructions. -/
theorem replay_of_log (start : Cursor) (commands : List Command)
    (steps : ∀ command ∈ commands, command.assembles = true) :
    (traced? (log commands start)).map start.buffer.replay = some (final commands start).buffer ∧
    ∀ (past : List Command) (command : Command) (future : List Command),
      commands = past ++ command :: future →
      let c := final past start
      ∃ o, (run commands start)[past.length]? = some o ∧
        (command.moves = true → o.lines = []) ∧
        (command.moves = false → ∃ entries, traced? o.lines = some entries ∧
          c.retrace entries = some o.cursor ∧
          ∀ reply, o.reply = .ok reply → entries.flatMap Prod.snd = o.cursor.since c) ∧
        ∀ (function argument : UInt64) (position : Position),
          command.trampoline? = some (function, argument, position) →
          let stop := c.position.toNat + Trampoline.size
          (∀ entry, o.reply = .ok (.offset entry) → o.cursor.position.toNat = stop) ∧
          (o.cursor.position.toNat = stop →
            ∃ traces entries,
              o.lines =
                ("DEBUG binding " ++ Hex.number argument.toNat ++ " as argument " ++
                  toString position.index ++ " (" ++ position.register.name ++ ") of " ++
                  Hex.number function.toNat ++ " at offset " ++
                  Hex.number c.position.toNat) :: traces ∧
              traces.length = 7 ∧ (∀ line ∈ traces, Event.isTrace line = true) ∧
              traced? traces = some entries ∧
              entries.map Prod.snd =
                (Trampoline.code function argument position).map Instruction.encode ∧
              o.cursor.since c = Trampoline.bytes function argument position) := by
  refine ⟨replay_log steps start, ?_⟩
  intro past command future whole c
  have step : command.assembles = true := by
    apply steps
    rw [whole]
    exact List.mem_append_right past List.mem_cons_self
  refine ⟨command.run c, ?_, ?_, ?_, ?_⟩
  · rw [whole]
    exact getElem?_run past command future start
  · intro moves
    cases command with
    | advance size => rw [Outcome.lines, (Command.run_advance size c).2, List.map_nil]
    | _ => cases moves
  · intro writes
    have logged := Command.logged_run step writes c
    exact ⟨_, Command.traced?_run step c, logged.retrace,
      fun reply ok => Command.since_run step writes ok⟩
  · intro function argument position h stop
    obtain ⟨offered, complete⟩ := Command.complete_of_trampoline h c
    refine ⟨offered, fun far => ?_⟩
    obtain ⟨fits, put, events⟩ := complete far
    have short := Command.short_run step c
    rw [events] at short
    refine ⟨(Assembler.trace c.position
        (Assembler.trampolineCode function argument position)).map Event.line, _, ?_, ?_, ?_,
      Event.traced?_lines fun e h => short e (List.mem_cons_of_mem _ h), ?_, ?_⟩
    · rw [Outcome.lines, events, List.map_cons, Event.line_binding]
    · rw [List.length_map, Assembler.length_trace]
      rfl
    · intro line h
      obtain ⟨e, traced, rfl⟩ := List.mem_map.1 h
      rw [Event.isTrace_line]
      exact Assembler.shown?_of_mem_trace traced
    · exact Assembler.entries_trace ..
    · rw [put]
      apply Cursor.since_put
      rwa [Trampoline.length_bytes]

theorem replay_of_log_past_the_margin :
    let start : Cursor := { buffer := .filled 64 0, position := 4 }
    let commands : List Command := [.tryBind 0x1122 7 2, .advance 20, .loadRax 1, .ret]
    (∀ command ∈ commands, command.assembles = true) ∧
    (traced? (log commands start)).map start.buffer.replay = some (final commands start).buffer ∧
    ∃ o, (run commands start)[0]? = some o ∧
      (traced? o.lines).map (·.flatMap Prod.snd) = some (o.cursor.since start) ∧
      o.lines.head? = some "DEBUG binding 0x7 as argument 2 (rsi) of 0x1122 at offset 0x4" := by
  intro start commands
  have steps : ∀ command ∈ commands, command.assembles = true := by decide
  obtain ⟨replayed, each⟩ := replay_of_log start commands steps
  obtain ⟨o, found, _, shown, announced⟩ := each [] _ _ rfl
  have bound : Assembler.tryBind 0x1122 7 2 { cursor := start } = _ :=
    Assembler.tryBind_of_room rfl (by decide)
  have reply : o.reply = .ok (.offset 4) := by
    have first := getElem?_run [] (.tryBind 0x1122 7 2) [.advance 20, .loadRax 1, .ret] start
    rw [← Option.some.inj (first.symm.trans found)]
    exact congrArg Outcome.reply (Command.run_of_tryBind bound)
  refine ⟨steps, replayed, o, found, ?_, ?_⟩
  · obtain ⟨entries, traced, _, joined⟩ := shown rfl
    rw [traced, Option.map_some, joined _ reply]
    rfl
  · obtain ⟨offered, complete⟩ := announced 0x1122 7 .second rfl
    obtain ⟨traces, entries, lines, _⟩ := complete (offered 4 reply)
    rw [lines, List.head?_cons]
    exact congrArg some (by decide)

end Session
end Prebind
