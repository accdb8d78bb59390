import Prebind.Trampoline.Table
import Prebind.Proofs.Emission
import Prebind.Proofs.Paging

/-!
The layout of a table over whole runs of pushes. The region holds the trampolines of the entries
side by side, in order, and zeros behind them; names are distinct, and each entry knows its place. A
push that is refused changes nothing, and one that is answered puts exactly the next trampoline.
-/

namespace Prebind

/-! Strings of one length side by side -/

section

variable {α : Type} {f : α → List UInt8} {size : Nat} (length : ∀ a, (f a).length = size)
include length

theorem length_flatMap_of_length (xs : List α) : (xs.flatMap f).length = size * xs.length := by
  induction xs with
  | nil => rfl
  | cons x rest ih =>
      rw [List.flatMap_cons, List.length_append, ih, length, List.length_cons, Nat.mul_succ,
        Nat.add_comm]

theorem take_flatMap_of_length {xs : List α} (rest : List UInt8) {n : Nat} (h : n ≤ xs.length) :
    (xs.flatMap f ++ rest).take (size * n) = (xs.take n).flatMap f := by
  have front : ((xs.take n).flatMap f).length = size * n := by
    rw [length_flatMap_of_length length, List.length_take, Nat.min_eq_left h]
  have split : xs.flatMap f = (xs.take n).flatMap f ++ (xs.drop n).flatMap f := by
    rw [← List.flatMap_append, List.take_append_drop]
  rw [split, List.append_assoc, List.take_left' front]

theorem take_drop_flatMap_of_length {xs : List α} (rest : List UInt8) {i : Nat} {x : α}
    (h : xs[i]? = some x) :
    ((xs.flatMap f ++ rest).drop (size * i)).take size = f x := by
  induction xs generalizing i with
  | nil => cases h
  | cons first others ih =>
      rw [List.flatMap_cons, List.append_assoc]
      cases i with
      | zero =>
          cases h
          exact List.take_left' (length x)
      | succ i =>
          rw [Nat.mul_succ, Nat.add_comm, ← List.drop_drop, List.drop_left' (length first)]
          exact ih h

end

namespace Table

def Entry.code (e : Entry) : List UInt8 :=
  Trampoline.bytes e.function e.argument e.position

theorem Entry.length_code (e : Entry) : e.code.length = Trampoline.size :=
  Trampoline.length_bytes ..

structure WellFormed (t : Table) : Prop where
  room : Trampoline.size * t.capacity.toNat + Instruction.maxLength ≤ t.region.size
  count : t.entries.length ≤ t.capacity.toNat
  distinct : (t.entries.map Entry.name).Nodup
  placed : ∀ (i : Nat) (e : Entry), t.entries[i]? = some e → e.offset = Trampoline.size * i
  bytes : t.region.buffer.bytes = t.entries.flatMap Entry.code ++
    List.replicate (t.region.size - Trampoline.size * t.entries.length) 0

theorem wellFormed_of_create {capacity : UInt64} {grants : UInt64 → Bool} {t : Table}
    (h : create capacity grants = .ok (.ok t)) :
    t.WellFormed ∧ t.capacity = capacity ∧ t.entries = [] := by
  simp only [create] at h
  split at h
  · cases h
  · next size required =>
    split at h
    · cases h
    · next region mapped =>
      cases h
      obtain ⟨whole, rounded, filled⟩ := Region.map_eq_ok mapped
      have hpage : Region.pageSize.toNat = Nat.pow 2 12 := rfl
      have hle := Region.le_of_roundUp? hpage rounded
      obtain ⟨product, hproduct, hsum⟩ := Option.bind_eq_some_iff.1 required
      have hp : product.toNat = capacity.toNat * Trampoline.size := Word.ofNat?_eq_some.1 hproduct
      have hs : size.toNat = product.toNat + Instruction.maxLength := Word.add?_eq_some.1 hsum
      refine ⟨⟨?_, Nat.zero_le _, List.nodup_nil, ?_, ?_⟩, rfl, rfl⟩
      · rw [Region.size, filled]
        change Trampoline.size * capacity.toNat + Instruction.maxLength ≤ whole.toNat
        rw [Nat.mul_comm]
        omega
      · intro i e he
        cases he
      · simp only [Region.size, filled]
        rfl

theorem requiredSize?_eq_some {capacity size : UInt64}
    (needed : size.toNat = Trampoline.size * capacity.toNat + Instruction.maxLength) :
    requiredSize? capacity = some size := by
  have small := size.toNat_lt_size
  have product : (UInt64.ofNat (capacity.toNat * Trampoline.size)).toNat =
      capacity.toNat * Trampoline.size := by
    refine UInt64.toNat_ofNat_of_lt' ?_
    rw [Nat.mul_comm]
    omega
  have multiplied : Word.mul? capacity (.ofNat Trampoline.size) =
      some (.ofNat (capacity.toNat * Trampoline.size)) := Word.ofNat?_eq_some.2 product
  rw [requiredSize?, multiplied]
  refine Word.add?_eq_some.2 ?_
  rw [needed, product, Nat.mul_comm]
  rfl

theorem create_of_map {capacity size : UInt64} {grants : UInt64 → Bool} {region : Region .writable}
    (required : requiredSize? capacity = some size)
    (mapped : Region.map size Region.pageSize grants = .ok region) :
    create capacity grants = .ok (.ok { region, capacity }) := by
  rw [create, required]
  simp only [mapped]

theorem create_of_required {capacity size whole : UInt64}
    (required : requiredSize? capacity = some size) (positive : size ≠ 0)
    (rounded : Region.roundUp? Region.pageSize size = some whole)
    (small : whole.toNat < Region.limit) :
    create capacity = .ok (.ok { region := ⟨.filled whole 0⟩, capacity }) := by
  refine create_of_map required ?_
  have granted : Region.hasRoom whole = true := decide_eq_true small
  simp only [Region.map, if_neg positive, rounded, if_pos granted]

theorem length_flatMap_code (entries : List Entry) :
    (entries.flatMap Entry.code).length = Trampoline.size * entries.length :=
  length_flatMap_of_length Entry.length_code entries

/-! One push -/

/-- The table with a trampoline written behind the last one. -/
def extend (t : Table) (name : String) (function argument : UInt64) (position : Position) : Table :=
  let offset := t.entries.length * Trampoline.size
  { t with
    region := ⟨t.region.buffer.overwrite offset (Trampoline.bytes function argument position)⟩
    entries := t.entries ++ [{ name, function, argument, position, offset }]
    log := t.log ++ Assembler.events function argument position (.ofNat offset) }

theorem writeEntry_of_room {function argument : UInt64} {position : Position} {a : Assembler}
    (room : a.cursor.position.toNat + Trampoline.size + Instruction.maxLength ≤
      a.cursor.buffer.length) :
    writeEntry function argument position a =
      .ok (.ok ()) ((a.announce function argument position).after
        (Assembler.trampolineCode function argument position)) := by
  have granted : a.cursor.ensure Trampoline.size = .ok () :=
    if_pos ((Cursor.le_remaining_iff (by decide)).2 room)
  have got : (get : Assembler.Action Assembler) a = .ok a a := rfl
  rw [writeEntry, bind_of_ok got]
  simp only [granted]
  rw [bind_of_ok (Assembler.emitTrampoline_of_room room)]
  rfl

theorem assemble_of_room {t : Table} {offset function argument : UInt64} {position : Position}
    (room : offset.toNat + Trampoline.size + Instruction.maxLength ≤ t.region.size) :
    assemble offset (writeEntry function argument position) t =
      .ok (.ok ()) { t with
        region :=
          ⟨t.region.buffer.overwrite offset.toNat (Trampoline.bytes function argument position)⟩
        log := t.log ++ Assembler.events function argument position offset } := by
  have started : Cursor.start t.region.buffer offset =
      .ok { buffer := t.region.buffer, position := offset } :=
    Cursor.start_of_room (Nat.le_trans (by omega) room)
  simp only [assemble, started]
  rw [writeEntry_of_room room]
  simp only [Assembler.log_after_announce]
  simp only [Assembler.after, Assembler.announce, Cursor.put, Assembler.bytesOf_trampolineCode]

/-- Below the capacity there is room for a trampoline and the margin. -/
theorem WellFormed.room_for_next {t : Table} (h : t.WellFormed)
    (free : t.entries.length ≠ t.capacity.toNat) :
    t.entries.length * Trampoline.size + Trampoline.size + Instruction.maxLength ≤
      t.region.size := by
  have hroom := h.room
  have hcount := h.count
  have more : (t.entries.length + 1) * Trampoline.size ≤ t.capacity.toNat * Trampoline.size :=
    Nat.mul_le_mul_right _ (by omega)
  rw [Nat.succ_mul, Nat.mul_comm t.capacity.toNat] at more
  omega

/-- The product that the next trampoline's offset comes from is a word: it lies in the region. -/
theorem WellFormed.offset_for_next {t : Table} (h : t.WellFormed)
    (free : t.entries.length ≠ t.capacity.toNat) :
    ∃ offset : UInt64, Word.ofNat? (t.entries.length * Trampoline.size) = some offset ∧
      offset.toNat = t.entries.length * Trampoline.size := by
  have room := h.room_for_next free
  have inside : t.region.size < UInt64.size := t.region.buffer.length_lt
  have word := UInt64.toNat_ofNat_of_lt'
    (show t.entries.length * Trampoline.size < UInt64.size by omega)
  exact ⟨_, Word.ofNat?_eq_some.2 word, word⟩

/-- What a push on a table with this layout answers, and the table behind it. It meets no fault and
finds room whenever the capacity is not used up. -/
theorem WellFormed.push_eq {t : Table} (h : t.WellFormed) (name : String)
    (function argument index : UInt64) :
    push name function argument index t =
      match Position.ofIndex? index.toNat with
      | none => .ok (.error (.bind (.noPosition index.toNat))) t
      | some position =>
        if t.entries.length = t.capacity.toNat then .ok (.error (.full t.capacity.toNat)) t
        else if t.entries.any (·.name = name) then .ok (.error (.duplicate name)) t
        else .ok (.ok (t.entries.length * Trampoline.size))
          (t.extend name function argument position) := by
  have got : (get : Action Table) t = .ok t t := rfl
  rw [push, bind_of_ok got]
  cases Position.ofIndex? index.toNat with
  | none => rfl
  | some position =>
      by_cases full : t.entries.length = t.capacity.toNat
      · simp only [if_pos full]
        rfl
      · by_cases taken : t.entries.any (·.name = name) = true
        · simp only [if_neg full, if_pos taken]
          rfl
        · simp only [if_neg full, if_neg taken]
          obtain ⟨offset, product, value⟩ := h.offset_for_next full
          have room := h.room_for_next full
          rw [← value] at room
          simp only [product]
          rw [bind_of_ok (assemble_of_room room), Table.extend, ← value,
            UInt64.ofNat_toNat]
          rfl

theorem WellFormed.extend {t : Table} (h : t.WellFormed) {name : String}
    (function argument : UInt64) (position : Position)
    (free : t.entries.length ≠ t.capacity.toNat) (fresh : t.entries.any (·.name = name) = false) :
    (t.extend name function argument position).WellFormed where
  room := by
    have hroom := h.room
    rwa [Region.size, ← Buffer.length_overwrite] at hroom
  count := by
    have hcount := h.count
    change (t.entries ++ [_]).length ≤ t.capacity.toNat
    rw [List.length_append, List.length_singleton]
    omega
  distinct := by
    change ((t.entries ++ [_]).map Entry.name).Nodup
    rw [List.map_append, List.nodup_append]
    refine ⟨h.distinct, List.pairwise_singleton .., ?_⟩
    intro other hother new hnew
    obtain ⟨e, he, rfl⟩ := List.mem_map.1 hother
    rw [List.mem_singleton.1 hnew]
    simpa using List.any_eq_false.1 fresh e he
  placed := by
    intro i e he
    change (t.entries ++ [_])[i]? = some e at he
    obtain hi | rfl | hi := Nat.lt_trichotomy i t.entries.length
    · rw [List.getElem?_append_left hi] at he
      exact h.placed i e he
    · rw [List.getElem?_concat_length] at he
      cases he
      exact Nat.mul_comm ..
    · rw [List.getElem?_eq_none (by rw [List.length_append, List.length_singleton]; omega)] at he
      cases he
  bytes := by
    have room := h.room_for_next free
    have hlen := Trampoline.length_bytes function argument position
    have front := length_flatMap_code t.entries
    rw [Nat.mul_comm] at front
    change (t.region.buffer.overwrite _ _).bytes = (t.entries ++ [_]).flatMap Entry.code ++
      List.replicate ((t.region.buffer.overwrite _ _).length -
        Trampoline.size * (t.entries ++ [_]).length) 0
    rw [Buffer.bytes_overwrite (by rw [hlen]; exact Nat.le_trans (Nat.le_add_right ..) room),
      h.bytes, List.take_left' front, hlen, ← List.drop_drop, List.drop_left' front,
      List.drop_replicate, Buffer.length_overwrite, List.flatMap_append, List.length_append,
      List.length_singleton, Nat.mul_succ, Nat.sub_add_eq]
    simp only [List.flatMap_cons, List.flatMap_nil, List.append_nil, Entry.code]
    rfl

/-- A push under a new name, while there is room, puts its trampoline and keeps the layout. -/
theorem WellFormed.push_of_fresh {t : Table} (h : t.WellFormed) {name : String}
    (function argument : UInt64) {index : UInt64} {position : Position}
    (bindable : Position.ofIndex? index.toNat = some position)
    (free : t.entries.length ≠ t.capacity.toNat) (fresh : ∀ e ∈ t.entries, e.name ≠ name) :
    Table.push name function argument index t =
        .ok (.ok (t.entries.length * Trampoline.size)) (t.extend name function argument position) ∧
      (t.extend name function argument position).WellFormed := by
  have new : t.entries.any (·.name = name) = false :=
    List.any_eq_false.2 fun e he => by simpa using fresh e he
  refine ⟨?_, h.extend function argument position free new⟩
  rw [h.push_eq, bindable]
  simp only [if_neg free, new]
  rfl

/-! Reading the layout -/

theorem WellFormed.place_le {t : Table} (h : t.WellFormed) {i : Nat} {e : Entry}
    (he : t.entries[i]? = some e) : Trampoline.size * i + Trampoline.size ≤ t.region.size := by
  have hi : i < t.entries.length := (List.getElem?_eq_some_iff.1 he).1
  have hroom := h.room
  have hcount := h.count
  have more : Trampoline.size * (i + 1) ≤ Trampoline.size * t.capacity.toNat :=
    Nat.mul_le_mul_left _ (by omega)
  rw [Nat.mul_succ] at more
  exact Nat.le_trans more (Nat.le_trans (Nat.le_add_right ..) hroom)

/-- Each entry's bytes stand at its place. -/
theorem WellFormed.slice?_eq {t : Table} (h : t.WellFormed) {i : Nat} {e : Entry}
    (he : t.entries[i]? = some e) :
    t.region.buffer.slice? (Trampoline.size * i) Trampoline.size = some e.code := by
  have fits : Trampoline.size * i + Trampoline.size ≤ t.region.buffer.length := h.place_le he
  rw [Buffer.slice?, if_pos fits, h.bytes,
    take_drop_flatMap_of_length Entry.length_code _ he]

/-- Behind the last entry the region is blank. -/
theorem WellFormed.getElem?_blank {t : Table} (h : t.WellFormed) {i : Nat}
    (low : Trampoline.size * t.entries.length ≤ i) (high : i < t.region.size) :
    t.region.buffer.bytes[i]? = some 0 := by
  have front := length_flatMap_code t.entries
  rw [h.bytes, List.getElem?_append_right (by omega), front, List.getElem?_replicate]
  exact if_pos (by omega)

theorem find?_of_mem {entries : List Entry} (distinct : (entries.map Entry.name).Nodup) {e : Entry}
    (he : e ∈ entries) : find? entries e.name = some e := by
  induction entries with
  | nil => cases he
  | cons first others ih =>
      rw [List.map_cons, List.nodup_cons] at distinct
      simp only [find?]
      obtain rfl | he := List.mem_cons.1 he
      · exact List.find?_cons_of_pos (by simp)
      · have other : first.name ≠ e.name := fun same =>
          distinct.1 (same ▸ List.mem_map_of_mem he)
        rw [List.find?_cons_of_neg (by simpa using other)]
        exact ih distinct.2 he

theorem find?_of_not_mem {entries : List Entry} {name : String}
    (absent : name ∉ entries.map Entry.name) : find? entries name = none := by
  apply List.find?_eq_none.2
  intro e he
  have other : e.name ≠ name := fun same => absent (same ▸ List.mem_map_of_mem he)
  simpa using other

theorem WellFormed.code?_of_mem {t : Table} (h : t.WellFormed) {e : Entry} (he : e ∈ t.entries) :
    t.code? e.name = some e.code := by
  obtain ⟨i, hi⟩ := List.mem_iff_getElem?.1 he
  rw [code?, find?_of_mem h.distinct he, Option.bind_eq_bind, Option.bind_some, h.placed i e hi]
  exact h.slice?_eq hi

theorem code?_of_not_mem {t : Table} {name : String} (absent : name ∉ t.entries.map Entry.name) :
    t.code? name = none := by
  rw [code?, find?_of_not_mem absent]
  rfl

/-! The finished table -/

/-- The table as one that can be called. -/
def callable (t : Table) : CallableTable :=
  ⟨t.region.executable, t.entries⟩

theorem finish_eq (t : Table) (permits : Bool) :
    t.finish permits = if permits then .ok t.callable else .error (.memory .protectionFailed) := by
  cases permits <;> rfl

@[simp] theorem size_callable (t : Table) : t.callable.region.size = t.region.size :=
  rfl

/-! Runs of pushes -/

/-- What a push is asked to add. -/
structure Request where
  name : String
  function : UInt64
  argument : UInt64
  index : UInt64
  deriving DecidableEq, Repr

abbrev Answer := Except Fault (Except TableError Nat)

def Request.push (r : Request) : Action (Except TableError Nat) :=
  Table.push r.name r.function r.argument r.index

/-- The entry that a request has made if it is answered with an offset. -/
def Request.entry? (r : Request) : Answer → Option Entry
  | .ok (.ok offset) =>
    (Position.ofIndex? r.index.toNat).map fun position =>
      { name := r.name, function := r.function, argument := r.argument, position, offset }
  | _ => none

/-- Carries out pushes in order, whatever becomes of them, and gives their answers and the table
behind the last one. -/
def run : List Request → Table → List Answer × Table
  | [], t => ([], t)
  | r :: rest, t =>
    match r.push t with
    | .ok answer u =>
      let later := run rest u
      (.ok answer :: later.1, later.2)
    | .error fault u =>
      let later := run rest u
      (.error fault :: later.1, later.2)

/-- The entries of the successful requests, in order. -/
def accepted : List Request → List Answer → List Entry
  | r :: requests, answer :: answers => (r.entry? answer).toList ++ accepted requests answers
  | _, _ => []

/-- One push keeps the layout and adds the entry it has accepted, if any. -/
theorem WellFormed.push {t : Table} (h : t.WellFormed) (r : Request) :
    ∃ answer u, r.push t = .ok answer u ∧ u.WellFormed ∧ u.capacity = t.capacity ∧
      u.region.size = t.region.size ∧ u.entries = t.entries ++ (r.entry? (.ok answer)).toList := by
  rw [Request.push, h.push_eq]
  cases hp : Position.ofIndex? r.index.toNat with
  | none => exact ⟨_, _, rfl, h, rfl, rfl, (List.append_nil _).symm⟩
  | some position =>
      by_cases full : t.entries.length = t.capacity.toNat
      · simp only [if_pos full]
        exact ⟨_, _, rfl, h, rfl, rfl, (List.append_nil _).symm⟩
      · by_cases taken : t.entries.any (·.name = r.name) = true
        · simp only [if_neg full, if_pos taken]
          exact ⟨_, _, rfl, h, rfl, rfl, (List.append_nil _).symm⟩
        · simp only [if_neg full, if_neg taken]
          have fresh : t.entries.any (·.name = r.name) = false := by simpa using taken
          refine ⟨_, _, rfl, h.extend r.function r.argument position full fresh, rfl,
            Buffer.length_overwrite .., ?_⟩
          simp only [Request.entry?, hp]
          rfl

theorem WellFormed.position_of_answer {t u : Table} (h : t.WellFormed) {r : Request} {offset : Nat}
    (pushed : r.push t = .ok (.ok offset) u) :
    ∃ position, Position.ofIndex? r.index.toNat = some position := by
  rw [Request.push, h.push_eq] at pushed
  cases hp : Position.ofIndex? r.index.toNat with
  | none =>
      rw [hp] at pushed
      cases pushed
  | some position => exact ⟨position, rfl⟩

theorem WellFormed.run {t : Table} (h : t.WellFormed) (requests : List Request) :
    (Table.run requests t).2.WellFormed ∧
      (Table.run requests t).2.capacity = t.capacity ∧
      (Table.run requests t).2.region.size = t.region.size ∧
      (Table.run requests t).2.entries =
        t.entries ++ accepted requests (Table.run requests t).1 := by
  induction requests generalizing t with
  | nil => exact ⟨h, rfl, rfl, (List.append_nil _).symm⟩
  | cons r rest ih =>
      obtain ⟨answer, u, pushed, hu, hcapacity, hsize, hentries⟩ := h.push r
      obtain ⟨hv, hcapacity', hsize', hentries'⟩ := ih hu
      simp only [Table.run, pushed]
      refine ⟨hv, hcapacity'.trans hcapacity, hsize'.trans hsize, ?_⟩
      rw [hentries', hentries, List.append_assoc, accepted]

/-- The table behind any run of pushes on a new one, failing pushes among them. It holds exactly the
accepted entries, in order, under distinct names and never more than its capacity; each entry stands
at its place, and its trampoline with it; the rest of the region, which keeps its size and has room
for every entry and the margin, is blank. Code is found under the names of entries and under no
other. Finishing the table changes none of this, and is refused only where the region may not be
executed. -/
theorem layout_of_run {capacity : UInt64} {grants : UInt64 → Bool} {t : Table}
    (created : create capacity grants = .ok (.ok t)) (requests : List Request) :
    let answers := (run requests t).1
    let u := (run requests t).2
    u.entries.length ≤ capacity.toNat ∧
    u.entries = accepted requests answers ∧
    (u.entries.map Entry.name).Nodup ∧
    (∀ (i : Nat) (e : Entry), u.entries[i]? = some e → e.offset = 30 * i ∧
      u.region.buffer.slice? (30 * i) 30 =
        some (Trampoline.bytes e.function e.argument e.position)) ∧
    (∀ i, 30 * u.entries.length ≤ i → i < u.region.size →
      u.region.buffer.bytes[i]? = some 0) ∧
    u.region.size = t.region.size ∧
    30 * capacity.toNat + 15 ≤ u.region.size ∧
    (∀ e ∈ u.entries,
      u.code? e.name = some (Trampoline.bytes e.function e.argument e.position)) ∧
    (∀ name, name ∉ u.entries.map Entry.name → u.code? name = none) ∧
    (∃ finished, u.finish = .ok finished ∧
      finished.entries = u.entries ∧
      finished.region.buffer = u.region.buffer ∧
      ∀ name, finished.code? name = u.code? name) ∧
    u.finish false = .error (.memory .protectionFailed) := by
  intro answers u
  obtain ⟨hnew, hcapacity, hempty⟩ := wellFormed_of_create created
  obtain ⟨h, sameCapacity, sameSize, hentries⟩ := hnew.run requests
  rw [hcapacity] at sameCapacity
  rw [hempty, List.nil_append] at hentries
  have count := h.count
  have room := h.room
  rw [sameCapacity] at count room
  exact ⟨count, hentries, h.distinct, fun i e he => ⟨h.placed i e he, h.slice?_eq he⟩,
    fun i low high => h.getElem?_blank low high, sameSize, room,
    fun e he => h.code?_of_mem he, fun name absent => code?_of_not_mem absent,
    ⟨u.callable, u.finish_eq true, rfl, rfl, fun _ => rfl⟩, u.finish_eq false⟩

theorem layout_of_run_with_duplicate :
    let t : Table := { region := ⟨.filled 4096 0⟩, capacity := 2 }
    let requests : List Request :=
      [⟨"a", 0x1000, 5, 2⟩, ⟨"a", 0x2000, 6, 3⟩, ⟨"b", 0x3000, 7, 9⟩, ⟨"c", 0x4000, 8, 4⟩]
    create 2 = .ok (.ok t) ∧ (run requests t).2.entries.length ≤ 2 ∧
      (run requests t).2.entries = accepted requests (run requests t).1 ∧
      30 * 2 + 15 ≤ (run requests t).2.region.size := by
  intro t requests
  have required : requiredSize? 2 = some 75 := by decide
  have created : create 2 = .ok (.ok t) :=
    create_of_required required (by decide) (by decide) (by decide)
  obtain ⟨count, entries, -, -, -, -, room, -⟩ := layout_of_run created requests
  exact ⟨created, count, entries, room⟩

end Table
end Prebind
