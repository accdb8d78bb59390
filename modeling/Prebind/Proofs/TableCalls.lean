import Prebind.Proofs.Calls
import Prebind.Proofs.TableLayout

/-!
Calls through a finished table. Every push that was answered with an offset has left an entry, later
pushes have left its bytes alone, and the address that the table gives for its name is where these
bytes are loaded. So a call by name reaches the pushed function with the pushed argument.
-/

namespace Prebind
namespace Table

open Machine

/-! Answers and entries -/

/-- The entry of a request that was answered with an offset. -/
theorem WellFormed.entry_of_answer {t : Table} (h : t.WellFormed) {requests : List Request}
    {i : Nat} {r : Request} {offset : Nat} (asked : requests[i]? = some r)
    (answered : (Table.run requests t).1[i]? = some (.ok (.ok offset))) :
    ∃ position, Position.ofIndex? r.index.toNat = some position ∧
      { name := r.name, function := r.function, argument := r.argument, position, offset } ∈
        (Table.run requests t).2.entries := by
  induction requests generalizing t i with
  | nil => cases asked
  | cons first rest ih =>
      obtain ⟨answer, u, pushed, hu, -, -, hentries⟩ := h.push first
      simp only [Table.run, pushed] at answered ⊢
      cases i with
      | zero =>
          cases asked
          cases answered
          obtain ⟨position, hposition⟩ := h.position_of_answer pushed
          obtain ⟨-, -, -, kept⟩ := hu.run rest
          refine ⟨position, hposition, ?_⟩
          rw [kept, hentries]
          simp only [Request.entry?, hposition]
          exact List.mem_append_left _ (List.mem_append_right _ List.mem_cons_self)
      | succ i => exact ih hu asked answered

theorem Request.entry?_eq_some {r : Request} {answer : Answer} {e : Entry}
    (h : r.entry? answer = some e) :
    ∃ offset, answer = .ok (.ok offset) ∧ r.name = e.name := by
  match answer with
  | .error fault => cases h
  | .ok (.error cause) => cases h
  | .ok (.ok offset) =>
      obtain ⟨position, -, rfl⟩ := Option.map_eq_some_iff.1 h
      exact ⟨offset, rfl, rfl⟩

theorem asked_of_mem_accepted {requests : List Request} {answers : List Answer} {e : Entry}
    (he : e ∈ accepted requests answers) :
    ∃ (i : Nat) (r : Request) (offset : Nat), requests[i]? = some r ∧
      answers[i]? = some (.ok (.ok offset)) ∧ r.name = e.name := by
  induction requests generalizing answers with
  | nil => cases he
  | cons r rest ih =>
      cases answers with
      | nil => cases he
      | cons answer others =>
          obtain here | later := List.mem_append.1 he
          · obtain ⟨offset, rfl, same⟩ := Request.entry?_eq_some (Option.mem_toList.1 here)
            exact ⟨0, r, offset, rfl, rfl, same⟩
          · obtain ⟨i, s, offset, asked, answered, same⟩ := ih later
            exact ⟨i + 1, s, offset, asked, answered, same⟩

/-! Addresses -/

theorem WellFormed.offset_add_size_le {t : Table} (h : t.WellFormed) {e : Entry}
    (he : e ∈ t.entries) : e.offset + Trampoline.size ≤ t.region.size := by
  obtain ⟨i, hi⟩ := List.mem_iff_getElem?.1 he
  rw [h.placed i e hi]
  exact h.place_le hi

theorem WellFormed.entry?_of_mem {t : Table} (h : t.WellFormed) {e : Entry} (he : e ∈ t.entries)
    (base : UInt64) : t.callable.entry? base e.name = some (base + .ofNat e.offset) := by
  have found : find? t.callable.entries e.name = some e := find?_of_mem h.distinct he
  rw [CallableTable.entry?, found, Option.map_some]

/-- The address of a trampoline may be used as a function. -/
theorem WellFormed.function?_of_mem {t : Table} (h : t.WellFormed) {e : Entry} (he : e ∈ t.entries)
    (base : UInt64) : t.callable.function? base e.name = some (base + .ofNat e.offset) := by
  have found : find? t.callable.entries e.name = some e := find?_of_mem h.distinct he
  have inside : e.offset < t.callable.region.size :=
    Nat.lt_of_lt_of_le (Nat.lt_add_of_pos_right (by decide)) (h.offset_add_size_le he)
  have usable : t.callable.region.function? 8 e.offset = some e.offset := if_pos ⟨inside, rfl⟩
  rw [CallableTable.function?, found, Option.bind_eq_bind, Option.bind_some, usable]
  rfl

theorem addresses_of_not_mem {t : Table} {name : String} (absent : name ∉ t.entries.map Entry.name)
    (base : UInt64) :
    t.callable.entry? base name = none ∧ t.callable.function? base name = none := by
  have missing : find? t.callable.entries name = none := find?_of_not_mem absent
  constructor
  · rw [CallableTable.entry?, missing, Option.map_none]
  · rw [CallableTable.function?, missing]
    rfl

/-- Where the region is loaded, the trampoline of an entry stands at its address. -/
theorem WellFormed.holds_code {t : Table} (h : t.WellFormed) {e : Entry} (he : e ∈ t.entries)
    {memory : UInt64 → UInt8} {base : UInt64}
    (loaded : Holds memory base t.region.buffer.bytes) :
    Holds memory (base + .ofNat e.offset) e.code := by
  obtain ⟨i, hi⟩ := List.mem_iff_getElem?.1 he
  have fits := h.offset_add_size_le he
  have stored : (t.region.buffer.bytes.drop e.offset).take Trampoline.size = e.code := by
    rw [h.bytes, h.placed i e hi, take_drop_flatMap_of_length Entry.length_code _ hi]
  have inside : e.offset ≤ t.region.buffer.bytes.length := by
    rw [t.region.buffer.length_eq]
    exact Nat.le_trans (Nat.le_add_right ..) fits
  rw [← stored]
  exact loaded.slice inside Trampoline.size

/-! Calls -/

/-- Calls through a table that is finished behind any run of pushes on a new one. Each push that was
answered with an offset has a position, and its name has one address, which may be used as a
function. On every machine with the region loaded at its base and the stack apart from it, calling
this address with the arguments in front of the position runs seven instructions of the region and
then the pushed function; the caller gets back what the function makes of these arguments and the
pushed one, and the stack as after a call of the function itself. A name without such a push has no
address. -/
theorem call_of_run {capacity : UInt64} {grants : UInt64 → Bool} {t : Table}
    (created : create capacity grants = .ok (.ok t)) (requests : List Request) :
    let answers := (run requests t).1
    ∃ table, (run requests t).2.finish = .ok table ∧
    (∀ (i : Nat) (r : Request) (offset : Nat), requests[i]? = some r →
      answers[i]? = some (.ok (.ok offset)) →
      ∃ position, Position.ofIndex? r.index.toNat = some position ∧
        ∀ base, ∃ entry, table.entry? base r.name = some entry ∧
          table.function? base r.name = some entry ∧
          ∀ (m : Machine) (back : UInt64) (arguments : List UInt64) (body : Machine → Machine)
            (f : List UInt64 → UInt64),
            Holds m.memory base table.region.buffer.bytes →
            (∀ x, Within base table.region.size x → ¬ Within (m.registers .rsp - 16) 16 x) →
            arguments.length + 1 = position.index →
            ActsAs body r.function position.index f →
            ∃ last, (m.enter entry back arguments).steps? 7 = some last ∧
              last.rip = r.function ∧ (body last).rip = back ∧
              (body last).registers .rax = f (arguments ++ [r.argument]) ∧
              (body last).registers .rsp = m.registers .rsp ∧
              (body last).registers .rsp =
                (body (m.enter r.function back (arguments ++ [r.argument]))).registers .rsp) ∧
    ∀ name, (∀ (i : Nat) (r : Request) (offset : Nat), requests[i]? = some r →
        answers[i]? = some (.ok (.ok offset)) → r.name ≠ name) →
      ∀ base, table.entry? base name = none ∧ table.function? base name = none := by
  obtain ⟨hnew, -, hempty⟩ := wellFormed_of_create created
  obtain ⟨h, -, -, hentries⟩ := hnew.run requests
  rw [hempty, List.nil_append] at hentries
  refine ⟨(run requests t).2.callable, finish_eq _ true, fun i r offset asked answered => ?_,
    fun name never base => ?_⟩
  · obtain ⟨position, hposition, he⟩ := hnew.entry_of_answer asked answered
    refine ⟨position, hposition, fun base => ⟨_, h.entry?_of_mem he base,
      h.function?_of_mem he base, fun m back arguments body f loaded apart count acts => ?_⟩⟩
    have inside : ∀ x, Within (base + .ofNat offset) Trampoline.size x →
        ¬ Within (m.registers .rsp - 16) 16 x :=
      fun x hx => apart x (hx.widen (h.offset_add_size_le he))
    obtain ⟨last, stepped, reached, returned, given, top⟩ :=
      Trampoline.call_of_holds (h.holds_code he loaded) inside count acts back
    have total : (arguments ++ [r.argument]).length = position.index := by
      rw [List.length_append, List.length_singleton, count]
    have few : (arguments ++ [r.argument]).length ≤ argumentRegisters.length := by
      rw [total]
      cases position <;> decide
    obtain ⟨-, -, direct⟩ := (total ▸ acts).call few m back
    exact ⟨last, stepped, reached, returned, given, top, top.trans direct.symm⟩
  · apply addresses_of_not_mem
    intro mem
    obtain ⟨e, he, same⟩ := List.mem_map.1 mem
    rw [hentries] at he
    obtain ⟨i, r, offset, asked, answered, named⟩ := asked_of_mem_accepted he
    exact never i r offset asked answered (named.trans same)

theorem call_of_run_with_duplicate :
    let t : Table := { region := ⟨.filled 4096 0⟩, capacity := 2 }
    let requests : List Request := [⟨"a", 0x1000, 5, 2⟩, ⟨"a", 0x2000, 6, 3⟩]
    let sum : Native := { arity := 2, apply := fun values => values.foldl (· + ·) 0 }
    let idle : Machine :=
      { registers := fun _ => 0x7ffe00000000, rip := 0, memory := fun _ => 0 }
    create 2 = .ok (.ok t) ∧ ∃ table, (run requests t).2.finish = .ok table ∧
      let m := idle.withBytes 0x7f0000000000 table.region.buffer.bytes
      ∃ entry last, table.entry? 0x7f0000000000 "a" = some entry ∧
        (m.enter entry 0x400000 [7]).steps? 7 = some last ∧
        (runNative sum last).rip = 0x400000 ∧ (runNative sum last).registers .rax = 12 := by
  intro t requests sum idle
  have required : requiredSize? 2 = some 75 := by decide
  have created : create 2 = .ok (.ok t) :=
    create_of_required required (by decide) (by decide) (by decide)
  obtain ⟨h, -, -⟩ := wellFormed_of_create created
  have pushed : Request.push ⟨"a", 0x1000, 5, 2⟩ t =
      .ok (.ok 0) (t.extend "a" 0x1000 5 .second) := h.push_eq ..
  have answered : (run requests t).1[0]? = some (.ok (.ok 0)) := by
    simp only [requests, run, pushed]
    rfl
  obtain ⟨table, finished, calls, -⟩ := call_of_run created requests
  have same : table = (run requests t).2.callable :=
    (Except.ok.inj ((finish_eq _ true).symm.trans finished)).symm
  have size : table.region.size = 4096 := by
    rw [same, size_callable, (h.run requests).2.2.1]
    decide
  let m := idle.withBytes 0x7f0000000000 table.region.buffer.bytes
  have loaded : Holds m.memory 0x7f0000000000 table.region.buffer.bytes := by
    apply holds_withBytes
    rw [table.region.buffer.length_eq]
    exact Nat.le_of_lt table.region.buffer.length_lt
  have apart : ∀ x, Within 0x7f0000000000 table.region.size x →
      ¬ Within (m.registers .rsp - 16) 16 x := by
    intro x hx
    have top : m.registers .rsp = 0x7ffe00000000 := rfl
    rw [size] at hx
    rw [top]
    exact hx.not_within (by decide) (by decide)
  obtain ⟨position, hposition, called⟩ := calls 0 _ 0 rfl answered
  cases hposition
  obtain ⟨entry, found, -, call⟩ := called 0x7f0000000000
  obtain ⟨last, stepped, -, returned, given, -⟩ :=
    call m 0x400000 [7] (runNative sum) sum.apply loaded apart rfl (actsAs_runNative sum 0x1000)
  exact ⟨created, table, finished, entry, last, found, stepped, returned, given⟩

end Table
end Prebind
