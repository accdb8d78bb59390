import Mathlib.Data.List.Forall2
import Prebind.Proofs.TableLayout

/-!
Histories of pushes. On every table that a history can lead to, a push is decided by its position,
the number of entries and their names, in this order; the room in the region has no say in it. A
push that is refused leaves the table as it is, so that a history without its refused pushes leads
to the same table. A new table takes as many trampolines as it was made for.
-/

namespace Prebind

theorem getElem?_of_forall₂ {α β : Type} {R : α → β → Prop} {xs : List α} {ys : List β}
    (h : List.Forall₂ R xs ys) {i : Nat} {x : α} (hx : xs[i]? = some x) :
    ∃ y, ys[i]? = some y ∧ R x y := by
  induction h generalizing i with
  | nil => cases hx
  | cons first _ ih =>
      cases i with
      | zero =>
          cases hx
          exact ⟨_, rfl, first⟩
      | succ i => exact ih hx

namespace Table

variable {t : Table}

/-- The position of a request exists. -/
def Request.Bindable (r : Request) : Prop :=
  r.index = 2 ∨ r.index = 3 ∨ r.index = 4

theorem Request.bindable_iff {r : Request} :
    r.Bindable ↔ ∃ position, Position.ofIndex? r.index.toNat = some position :=
  (Position.exists_ofIndex?_iff r.index).symm

/-! One push -/

/-- How a push on a table with room for so many entries is answered, and what it leaves behind. -/
structure Decided (capacity : Nat) (r : Request) (before : Table) (answer : Except TableError Nat)
    (behind : Table) : Prop where
  no_position : ¬ r.Bindable → answer = .error (.bind (.noPosition r.index.toNat))
  full : r.Bindable → before.entries.length = capacity → answer = .error (.full capacity)
  duplicate : r.Bindable → before.entries.length ≠ capacity →
    (∃ e ∈ before.entries, e.name = r.name) → answer = .error (.duplicate r.name)
  accepted : r.Bindable → before.entries.length ≠ capacity →
    (∀ e ∈ before.entries, e.name ≠ r.name) → answer = .ok (30 * before.entries.length)
  roomy : ∀ s, answer ≠ .error (.bind (.shortage s))
  unchanged : ∀ e, answer = .error e → behind = before

theorem WellFormed.push_decided (h : t.WellFormed) (r : Request) :
    ∃ answer u, r.push t = .ok answer u ∧ Decided t.capacity.toNat r t answer u := by
  rw [Request.push, h.push_eq]
  cases hp : Position.ofIndex? r.index.toNat with
  | none =>
      have lacking : ¬ r.Bindable := fun bindable => by
        obtain ⟨position, found⟩ := Request.bindable_iff.1 bindable
        rw [hp] at found
        cases found
      exact ⟨_, _, rfl,
        { no_position := fun _ => rfl
          full := fun bindable => absurd bindable lacking
          duplicate := fun bindable => absurd bindable lacking
          accepted := fun bindable => absurd bindable lacking
          roomy := by simp
          unchanged := fun _ _ => rfl }⟩
  | some position =>
      have bindable : r.Bindable := Request.bindable_iff.2 ⟨position, hp⟩
      by_cases full : t.entries.length = t.capacity.toNat
      · simp only [if_pos full]
        exact ⟨_, _, rfl,
          { no_position := fun lacking => absurd bindable lacking
            full := fun _ _ => rfl
            duplicate := fun _ room => absurd full room
            accepted := fun _ room => absurd full room
            roomy := by simp
            unchanged := fun _ _ => rfl }⟩
      · by_cases taken : ∃ e ∈ t.entries, e.name = r.name
        · have clash : t.entries.any (·.name = r.name) = true := by simpa using taken
          simp only [if_neg full, if_pos clash]
          obtain ⟨e, among, same⟩ := taken
          exact ⟨_, _, rfl,
            { no_position := fun lacking => absurd bindable lacking
              full := fun _ least => absurd least full
              duplicate := fun _ _ _ => rfl
              accepted := fun _ _ fresh => absurd same (fresh e among)
              roomy := by simp
              unchanged := fun _ _ => rfl }⟩
        · have clear : ¬ t.entries.any (·.name = r.name) = true := by simpa using taken
          simp only [if_neg full, if_neg clear]
          exact ⟨_, _, rfl,
            { no_position := fun lacking => absurd bindable lacking
              full := fun _ least => absurd least full
              duplicate := fun _ _ known => absurd known taken
              accepted := fun _ _ _ => congrArg Except.ok (Nat.mul_comm ..)
              roomy := by simp
              unchanged := by simp }⟩

/-! Histories without what was refused -/

theorem run_cons_of_ok {r : Request} {answer : Except TableError Nat} {u : Table}
    (pushed : r.push t = .ok answer u) (rest : List Request) :
    run (r :: rest) t = (.ok answer :: (run rest u).1, (run rest u).2) := by
  simp only [run, pushed]

def Answer.succeeded : Answer → Bool
  | .ok (.ok _) => true
  | _ => false

/-- The requests of a history that have succeeded, each with its answer. -/
def kept (requests : List Request) (t : Table) : List (Request × Answer) :=
  (requests.zip (run requests t).1).filter (·.2.succeeded)

/-- A history without its refused pushes has the same answers to the others and leads to the same
table. -/
theorem WellFormed.run_kept (h : t.WellFormed) (requests : List Request) :
    Table.run ((kept requests t).map Prod.fst) t =
      ((kept requests t).map Prod.snd, (Table.run requests t).2) := by
  induction requests generalizing t with
  | nil => rfl
  | cons r rest ih =>
      obtain ⟨answer, u, pushed, laid, -⟩ := h.push r
      have first := run_cons_of_ok pushed rest
      cases answer with
      | error e =>
          -- Without this request, the rest starts from the same table.
          obtain ⟨_, _, again, decided⟩ := h.push_decided r
          cases again.symm.trans pushed
          have same : u = t := decided.unchanged e rfl
          subst same
          have dropped : kept (r :: rest) u = kept rest u := by
            simp only [kept, first]
            rfl
          rw [dropped, first]
          exact ih h
      | ok offset =>
          have added : kept (r :: rest) t = (r, .ok (.ok offset)) :: kept rest u := by
            simp only [kept, first]
            rfl
          rw [added, first, List.map_cons, List.map_cons, run_cons_of_ok pushed, ih laid]

theorem run_append (xs ys : List Request) (t : Table) :
    run (xs ++ ys) t =
      ((run xs t).1 ++ (run ys (run xs t).2).1, (run ys (run xs t).2).2) := by
  induction xs generalizing t with
  | nil => rfl
  | cons r rest ih =>
      rw [List.cons_append, run, run]
      cases r.push t <;> simp only [ih, List.cons_append]

/-! Filling a table -/

/-- An entry is what a request asks for. -/
structure Request.Made (r : Request) (e : Entry) : Prop where
  name : e.name = r.name
  function : e.function = r.function
  argument : e.argument = r.argument
  position : Position.ofIndex? r.index.toNat = some e.position

/-- While there is room, requests with positions and new names all succeed. -/
theorem WellFormed.run_of_fresh {requests : List Request} (h : t.WellFormed)
    (bindable : ∀ r ∈ requests, r.Bindable) (distinct : (requests.map Request.name).Nodup)
    (fresh : ∀ r ∈ requests, ∀ e ∈ t.entries, e.name ≠ r.name)
    (room : t.entries.length + requests.length ≤ t.capacity.toNat) :
    ∃ made, (Table.run requests t).2.entries = t.entries ++ made ∧
      List.Forall₂ Request.Made requests made ∧
      (Table.run requests t).1 =
        (List.range' t.entries.length requests.length).map fun i => .ok (.ok (30 * i)) := by
  induction requests generalizing t with
  | nil => exact ⟨[], (List.append_nil _).symm, .nil, rfl⟩
  | cons r rest ih =>
      obtain ⟨position, found⟩ := Request.bindable_iff.1 (bindable r List.mem_cons_self)
      obtain ⟨apart, distinct⟩ := List.nodup_cons.1 distinct
      rw [List.length_cons] at room
      obtain ⟨pushed, laid⟩ := h.push_of_fresh r.function r.argument found (by omega)
        (fresh r List.mem_cons_self)
      let entry : Entry :=
        ⟨r.name, r.function, r.argument, position, t.entries.length * Trampoline.size⟩
      let next := t.extend r.name r.function r.argument position
      have grown : next.entries = t.entries ++ [entry] := rfl
      have count : next.entries.length = t.entries.length + 1 := by
        rw [grown, List.length_append, List.length_singleton]
      have fresh' : ∀ other ∈ rest, ∀ e ∈ next.entries, e.name ≠ other.name := by
        intro other among e he
        rw [grown, List.mem_append, List.mem_singleton] at he
        obtain he | rfl := he
        · exact fresh other (List.mem_cons_of_mem _ among) e he
        · exact fun same => apart (List.mem_map.2 ⟨other, among, same.symm⟩)
      obtain ⟨made, entries, matching, answers⟩ :=
        ih laid (fun other among => bindable other (List.mem_cons_of_mem _ among)) distinct fresh'
          (by rw [count]; change _ ≤ t.capacity.toNat; omega)
      have first := run_cons_of_ok (r := r) pushed rest
      refine ⟨entry :: made, ?_, .cons ⟨rfl, rfl, rfl, found⟩ matching, ?_⟩
      · rw [first, entries, grown, List.append_assoc]
        rfl
      · rw [first, answers, count, Nat.mul_comm, List.length_cons, List.range'_succ, List.map_cons]
        rfl

/-- On the table behind any history, a push meets no fault and is decided by its position, the
number of entries and their names, in this order, without regard to the room in the region; if it is
refused, nothing has changed. The same history without its refused pushes has the same answers to
the others and leads to the same table. On the new table, as many pushes as its capacity says, with
positions and distinct names, succeed one behind the other and fill it. -/
theorem decided_of_run {capacity : UInt64} {grants : UInt64 → Bool}
    (created : create capacity grants = .ok (.ok t)) (earlier : List Request) :
    let u := (run earlier t).2
    (∀ r : Request, ∃ answer v, r.push u = .ok answer v ∧
      Decided capacity.toNat r u answer v) ∧
    run ((kept earlier t).map Prod.fst) t = ((kept earlier t).map Prod.snd, u) ∧
    ∀ requests : List Request, requests.length = capacity.toNat →
      (∀ r ∈ requests, r.Bindable) → (requests.map Request.name).Nodup →
      (run requests t).1 = (List.range capacity.toNat).map (fun i => .ok (.ok (30 * i))) ∧
        (run requests t).2.entries.length = capacity.toNat := by
  obtain ⟨fresh, sized, empty⟩ := wellFormed_of_create created
  obtain ⟨laid, kept, -, -⟩ := fresh.run earlier
  have none : t.entries.length = 0 := by rw [empty, List.length_nil]
  rw [sized] at kept
  refine ⟨fun r => ?_, fresh.run_kept earlier, fun requests count bindable distinct => ?_⟩
  · rw [← kept]
    exact laid.push_decided r
  · have new : ∀ r ∈ requests, ∀ e ∈ t.entries, e.name ≠ r.name := by
      rw [empty]
      exact fun _ _ => nofun
    obtain ⟨made, entries, matching, answers⟩ :=
      fresh.run_of_fresh bindable distinct new (by rw [sized, none, count]; omega)
    refine ⟨?_, ?_⟩
    · rw [answers, none, count, List.range_eq_range']
    · rw [entries, empty, List.nil_append, ← matching.length_eq, count]

theorem decided_of_run_behind_refusals :
    let t : Table := { region := ⟨.filled 4096 0⟩, capacity := 2 }
    let requests : List Request :=
      [⟨"a", 0x1000, 5, 2⟩, ⟨"a", 0x2000, 6, 3⟩, ⟨"b", 0x3000, 7, 9⟩, ⟨"c", 0x4000, 8, 4⟩]
    create 2 = .ok (.ok t) ∧
      ∃ answer v, Request.push ⟨"c", 0x5000, 9, 5⟩ (run requests t).2 = .ok answer v ∧
        answer = .error (.bind (.noPosition 5)) ∧ v = (run requests t).2 := by
  intro t requests
  have required : requiredSize? 2 = some 75 := by decide
  have created : create 2 = .ok (.ok t) :=
    create_of_required required (by decide) (by decide) (by decide)
  obtain ⟨answer, v, pushed, decided⟩ :=
    (decided_of_run created requests).1 ⟨"c", 0x5000, 9, 5⟩
  have refused := decided.no_position (by unfold Request.Bindable; decide)
  exact ⟨created, answer, v, pushed, refused, decided.unchanged _ refused⟩

end Table
end Prebind
