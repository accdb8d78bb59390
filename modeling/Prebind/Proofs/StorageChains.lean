import Mathlib.Data.List.Nodup
import Prebind.Proofs.Pushes
import Prebind.Proofs.StorageCalls

/-!
Chains of calls that bind into storage, each at the offset that the one before it has reported. They
fill the storage from the first offset on with trampolines side by side, as many as fit in front of
the margin; the first call that finds no room leaves the offset where it is, and so does every later
one. A table that is given the same bindings has the same bytes at the same offsets.
-/

namespace Prebind

/-- What a trampoline binds. -/
structure Binding where
  function : UInt64
  argument : UInt64
  position : Position
  deriving DecidableEq, Repr

namespace Binding

def code (b : Binding) : List UInt8 :=
  Trampoline.bytes b.function b.argument b.position

/-- The call that binds at an offset, with all of the storage for use. -/
def call (b : Binding) (offset : UInt64) : Storage.Call where
  offset
  function := b.function
  argument := b.argument
  index := .ofNat b.position.index

def request (b : Binding) (name : String) : Table.Request where
  name
  function := b.function
  argument := b.argument
  index := .ofNat b.position.index

theorem ofIndex?_index (b : Binding) :
    Position.ofIndex? (UInt64.ofNat b.position.index).toNat = some b.position := by
  cases b.position <;> rfl

theorem length_code (b : Binding) : b.code.length = 30 :=
  Trampoline.length_bytes ..

end Binding

namespace Storage

/-- Answers calls in order, each at the offset that the variable of the caller holds behind the one
before it, and gives what this variable and the storage hold in the end. -/
def chain (offset : UInt64) (storage : Buffer) :
    List Binding → Except Fault (List Answer × UInt64 × Buffer)
  | [] => .ok ([], offset, storage)
  | b :: rest => do
    let (answer, storage) ← bind storage (b.call offset)
    let (answers, next, storage) ← chain (answer.out offset) storage rest
    return (answer :: answers, next, storage)

theorem chain_concat {offset next : UInt64} {storage middle last : Buffer} {bs : List Binding}
    {b : Binding} {answers : List Answer} {answer : Answer}
    (before : chain offset storage bs = .ok (answers, next, middle))
    (bound : bind middle (b.call next) = .ok (answer, last)) :
    chain offset storage (bs ++ [b]) = .ok (answers ++ [answer], answer.out next, last) := by
  induction bs generalizing offset storage answers with
  | nil =>
      cases before
      rw [List.nil_append, chain, bound]
      rfl
  | cons first rest ih =>
      rw [chain] at before
      cases called : bind storage (first.call offset) with
      | error f =>
          rw [called] at before
          cases before
      | ok result =>
          obtain ⟨answer', storage'⟩ := result
          rw [called] at before
          change (chain (answer'.out offset) storage' rest >>= _) = _ at before
          cases later : chain (answer'.out offset) storage' rest with
          | error f =>
              rw [later] at before
              cases before
          | ok results =>
              rw [later] at before
              cases before
              rw [List.cons_append, chain, called]
              change (chain (answer'.out offset) storage' (rest ++ [b]) >>= _) = _
              rw [ih later]
              rfl

/-! The places of a chain -/

theorem effect_of_accepted {storage : Buffer} {call : Call} {position : Position}
    (found : Position.ofIndex? call.index.toNat = some position)
    (accepted : call.Accepted (call.usable storage)) :
    call.effect storage = storage.overwrite call.offset.toNat
      (Trampoline.bytes call.function call.argument position) := by
  obtain ⟨starts, -, fits⟩ := accepted_iff.1 accepted
  rw [Call.effect, found]
  exact if_pos ⟨starts, fits⟩

section

variable (storage : Buffer) (offset : UInt64) (b : Nat → Binding)

/-- How many trampolines there is room for from an offset on. -/
def fitting (size : Nat) (offset : UInt64) : Nat :=
  if offset.toNat + 15 ≤ size then (size - 15 - offset.toNat) / 30 else 0

/-- The offset of a call of the chain. -/
def place (k : Nat) : UInt64 :=
  offset + .ofNat (30 * min k (fitting storage.length offset))

/-- The storage with the first trampolines of the chain in it. -/
def filledWith (k : Nat) : Buffer :=
  storage.overwrite offset.toNat ((List.range k).flatMap fun j => (b j).code)

/-- The answer to a call of the chain. -/
def chainAnswer (k : Nat) : Answer :=
  ((b k).call (place storage offset k)).answer storage.length

end

section

variable {storage : Buffer} {offset : UInt64} {b : Nat → Binding} {k : Nat}

theorem lt_fitting_iff {size : Nat} :
    k < fitting size offset ↔ offset.toNat + 30 * k + 45 ≤ size := by
  rw [fitting]
  split <;> omega

theorem toNat_place (storage : Buffer) (offset : UInt64) (k : Nat) :
    (place storage offset k).toNat =
      offset.toNat + 30 * min k (fitting storage.length offset) := by
  refine Word.toNat_add_ofNat ?_
  have small := offset.toNat_lt_size
  have inside := storage.length_lt
  obtain none | some := Nat.eq_zero_or_pos (fitting storage.length offset)
  · omega
  · have last : fitting storage.length offset - 1 < fitting storage.length offset := by omega
    have room := lt_fitting_iff.1 last
    omega

theorem accepted_place_iff :
    ((b k).call (place storage offset k)).Accepted storage.length ↔
      k < fitting storage.length offset := by
  have position := (Position.exists_ofIndex?_iff _).1 ⟨_, (b k).ofIndex?_index⟩
  have here := toNat_place storage offset k
  rw [Call.Accepted]
  change true = true ∧ _ ∧ (place storage offset k).toNat + 45 ≤ storage.length ↔ _
  rw [here]
  refine ⟨fun accepted => ?_, fun before => ⟨rfl, position, ?_⟩⟩
  · have room := accepted.2.2
    refine Nat.lt_of_not_le fun behind => ?_
    rw [Nat.min_eq_right behind] at room
    exact Nat.lt_irrefl _ (lt_fitting_iff.2 room)
  · rw [Nat.min_eq_left (Nat.le_of_lt before)]
    exact lt_fitting_iff.1 before

theorem effect_of_lt (before : k < fitting storage.length offset) :
    ((b k).call (place storage offset k)).effect (filledWith storage offset b k) =
      filledWith storage offset b (k + 1) := by
  have length : (filledWith storage offset b k).length = storage.length :=
    Buffer.length_overwrite ..
  have code := length_flatMap_of_length (fun j => (b j).length_code) (List.range k)
  have room := lt_fitting_iff.1 before
  have here : (place storage offset k).toNat =
      offset.toNat + ((List.range k).flatMap fun j => (b j).code).length := by
    rw [toNat_place, Nat.min_eq_left (Nat.le_of_lt before), code, List.length_range]
  have accepted := (accepted_place_iff (b := b)).2 before
  rw [← length] at accepted
  rw [effect_of_accepted (b k).ofIndex?_index accepted, filledWith, filledWith, List.range_succ,
    List.flatMap_append, List.flatMap_singleton, Buffer.overwrite_append]
  · rw [← here]
    rfl
  · rw [List.length_append, code, Binding.length_code, List.length_range]
    omega

/-! What a chain leaves -/

theorem slice?_filledWith {m : Nat} (few : m ≤ fitting storage.length offset) (before : k < m) :
    (filledWith storage offset b m).slice? (offset.toNat + 30 * k) 30 = some (b k).code := by
  have length : (filledWith storage offset b m).length = storage.length :=
    Buffer.length_overwrite ..
  have code := length_flatMap_of_length (fun j => (b j).length_code) (List.range m)
  have room : offset.toNat + 30 * (m - 1) + 45 ≤ storage.length := lt_fitting_iff.1 (by omega)
  have front : (storage.bytes.take offset.toNat).length = offset.toNat := by
    rw [List.length_take, storage.length_eq, Nat.min_eq_left (by omega)]
  have there : (List.range m)[k]? = some k := List.getElem?_range before
  rw [List.length_range] at code
  rw [Buffer.slice?, length, if_pos (by omega), filledWith, Buffer.bytes_overwrite (by omega),
    List.append_assoc, ← List.drop_drop, List.drop_left' front]
  exact congrArg some
    (take_drop_flatMap_of_length (fun j => (b j).length_code) _ there)

theorem getElem?_filledWith {m i : Nat}
    (outside : i < offset.toNat ∨ offset.toNat + 30 * m ≤ i) :
    (filledWith storage offset b m).bytes[i]? = storage.bytes[i]? := by
  have code := length_flatMap_of_length (fun j => (b j).length_code) (List.range m)
  rw [List.length_range] at code
  exact Buffer.getElem?_overwrite_of_outside _ _ _ (by rwa [code])

theorem take_filledWith_zero {m d : Nat} (few : m ≤ fitting storage.length 0) (h : d ≤ m) :
    (filledWith storage 0 b m).bytes.take (30 * d) =
      (List.range d).flatMap fun k => (b k).code := by
  have code := length_flatMap_of_length (fun j => (b j).length_code) (List.range m)
  rw [List.length_range] at code
  have room : 30 * m ≤ storage.length := by
    obtain rfl | some := Nat.eq_zero_or_pos m
    · exact Nat.zero_le _
    · have last : m - 1 < fitting storage.length 0 := by omega
      have room := lt_fitting_iff.1 last
      omega
  have zero : (0 : UInt64).toNat = 0 := rfl
  rw [filledWith, Buffer.bytes_overwrite (by omega), zero, List.take_zero, List.nil_append,
    take_flatMap_of_length (fun j => (b j).length_code) _ (by rwa [List.length_range]),
    List.take_range, Nat.min_eq_left h]

/-! The chain as a whole -/

variable {base : UInt64} (start : 0 < base.toNat)
  (ends : base.toNat + storage.length < UInt64.size)
include start ends

theorem out_chainAnswer (k : Nat) :
    (chainAnswer storage offset b k).out (place storage offset k) =
      place storage offset (k + 1) := by
  have here := toNat_place storage offset k
  have next := toNat_place storage offset (k + 1)
  by_cases before : k < fitting storage.length offset
  · have bound := bound_of_accepted start ends ((accepted_place_iff (b := b)).2 before)
    have out : ((chainAnswer storage offset b k).out (place storage offset k)).toNat =
        (place storage offset k).toNat + 30 := bound.next rfl _
    apply UInt64.toNat_inj.1
    omega
  · have refused := refused_of_not_accepted base (mt (accepted_place_iff (b := b)).1 before)
    have out : (chainAnswer storage offset b k).out (place storage offset k) =
        place storage offset k := refused.out _
    rw [out]
    apply UInt64.toNat_inj.1
    omega

/-- The chain in closed form: its answers, the offset it comes to, and the storage it leaves. -/
theorem chain_range (n : Nat) :
    chain offset storage ((List.range n).map b) =
      .ok ((List.range n).map (chainAnswer storage offset b), place storage offset n,
        filledWith storage offset b (min n (fitting storage.length offset))) := by
  induction n with
  | zero =>
      have first : place storage offset 0 = offset := by
        rw [place, Nat.zero_min]
        exact UInt64.add_zero offset
      rw [first, Nat.zero_min, filledWith, List.range_zero, List.flatMap_nil, Buffer.overwrite_nil]
      rfl
  | succ n ih =>
      let middle := filledWith storage offset b (min n (fitting storage.length offset))
      have length : middle.length = storage.length := Buffer.length_overwrite ..
      have effect : ((b n).call (place storage offset n)).effect middle =
          filledWith storage offset b (min (n + 1) (fitting storage.length offset)) := by
        by_cases before : n < fitting storage.length offset
        · have filled : middle = filledWith storage offset b n := by
            rw [← Nat.min_eq_left (Nat.le_of_lt before)]
          rw [filled, effect_of_lt before, Nat.min_eq_left before]
        · -- The storage is full, so that one call more changes neither side.
          have full := mt (accepted_place_iff (b := b)).1 before
          rw [← length] at full
          have same : min n (fitting storage.length offset) =
              min (n + 1) (fitting storage.length offset) := by omega
          rw [(refused_of_not_accepted base full).storage, ← same]
      have answered : ((b n).call (place storage offset n)).answer
          (((b n).call (place storage offset n)).usable middle) = chainAnswer storage offset b n :=
        congrArg _ length
      have called : bind middle ((b n).call (place storage offset n)) = .ok (_, _) :=
        bind_eq (by omega) _
      rw [answered, effect] at called
      rw [List.range_succ, List.map_append, List.map_append, List.map_singleton, List.map_singleton,
        chain_concat ih called, out_chainAnswer start ends]

end

end Storage

namespace Table

variable {t : Table} {capacity : UInt64} {grants : UInt64 → Bool}

theorem flatMap_code_of_made {α : Type} {b : α → Binding} {names : α → String} {ks : List α}
    {made : List Entry}
    (h : List.Forall₂ (fun k e => Request.Made ((b k).request (names k)) e) ks made) :
    made.flatMap Entry.code = ks.flatMap fun k => (b k).code := by
  induction h with
  | nil => rfl
  | @cons k e _ _ same _ ih =>
      have position := same.position
      rw [Binding.request, Binding.ofIndex?_index, Option.some.injEq] at position
      have code : e.code = (b k).code := by
        rw [Entry.code, same.function, same.argument, ← position]
        rfl
      rw [List.flatMap_cons, List.flatMap_cons, code, ih]

/-- A new table that is asked for a sequence of bindings has their code side by side, as far as its
capacity goes. -/
theorem run_requests (created : create capacity grants = .ok (.ok t)) (b : Nat → Binding)
    {names : Nat → String} (distinct : Function.Injective names) {n d : Nat} (few : d ≤ n)
    (room : d ≤ capacity.toNat) :
    let pushed := run ((List.range n).map fun k => (b k).request (names k)) t
    pushed.2.region.buffer.bytes.take (30 * d) = (List.range d).flatMap (fun k => (b k).code) ∧
      ∀ k < d, pushed.1[k]? = some (.ok (.ok (30 * k))) ∧
        ∃ e, pushed.2.entries[k]? = some e ∧ e.name = names k ∧ e.offset = 30 * k := by
  obtain ⟨fresh, sized, empty⟩ := wellFormed_of_create created
  let request : Nat → Request := fun k => (b k).request (names k)
  have bindable : ∀ r ∈ (List.range d).map request, r.Bindable := by
    intro r among
    obtain ⟨k, -, rfl⟩ := List.mem_map.1 among
    exact Request.bindable_iff.2 ⟨_, (b k).ofIndex?_index⟩
  have apart : (((List.range d).map request).map Request.name).Nodup := by
    rw [List.map_map]
    exact List.nodup_range.map distinct
  have new : ∀ r ∈ (List.range d).map request, ∀ e ∈ t.entries, e.name ≠ r.name := by
    rw [empty]
    exact fun _ _ => nofun
  obtain ⟨made, entries, matching, answers⟩ := fresh.run_of_fresh bindable apart new
    (by rw [sized, empty, List.length_map, List.length_range, List.length_nil]; omega)
  rw [empty, List.nil_append] at entries
  rw [empty, List.length_nil, List.length_map, List.length_range, ← List.range_eq_range'] at answers
  have count : made.length = d := by
    rw [← matching.length_eq, List.length_map, List.length_range]
  -- The requests beyond the capacity may be refused; they only come behind the others.
  have split : (List.range n).map request =
      (List.range d).map request ++ ((List.range (n - d)).map (d + ·)).map request := by
    rw [← List.map_append, ← List.range_add, Nat.add_sub_cancel' few]
  let firsts := (List.range d).map request
  let others := ((List.range (n - d)).map (d + ·)).map request
  obtain ⟨laid, -, -, all⟩ := (fresh.run firsts).1.run others
  rw [entries] at all
  have pushed : run ((List.range n).map request) t = run (firsts ++ others) t :=
    congrArg (run · t) split
  rw [run_append] at pushed
  change let pushed := run ((List.range n).map request) t; _
  rw [pushed]
  have code := flatMap_code_of_made (List.forall₂_map_left_iff.1 matching)
  refine ⟨?_, fun k before => ⟨?_, ?_⟩⟩
  · have few : d ≤ (run others (run firsts t).2).2.entries.length := by
      rw [all, List.length_append]
      omega
    rw [laid.bytes]
    refine (take_flatMap_of_length Entry.length_code _ few).trans ?_
    rw [all, List.take_left' count, code]
  · rw [answers, List.getElem?_append_left (by rwa [List.length_map, List.length_range]),
      List.getElem?_map, List.getElem?_range before]
    rfl
  · have asked : firsts[k]? = some (request k) := by
      rw [List.getElem?_map, List.getElem?_range before]
      rfl
    obtain ⟨e, there, same⟩ := getElem?_of_forall₂ matching asked
    have within : (run others (run firsts t).2).2.entries[k]? = some e := by
      rw [all, List.getElem?_append_left (by omega), there]
    exact ⟨e, within, same.name, laid.placed k e within⟩

end Table

namespace Storage

variable {storage : Buffer} {base : UInt64}

/-- Calls without end that bind into storage at `base`, each at the offset that the one before it
has reported. None meets a fault. As many of them succeed as trampolines of 30 bytes fit between the
first offset and the margin, and these come first: each gives the address behind that of the one
before it, and its trampoline stays from then on. All others give the null address and leave the
offset and the storage as they are. No byte outside of the trampolines changes. If the first offset
is zero, a new table that is asked for the same bindings under distinct names has the same bytes at
the same offsets, as far as its capacity goes. -/
theorem filled_of_chain {storage : Buffer} {base : UInt64} (start : 0 < base.toNat)
    (ends : base.toNat + storage.length < UInt64.size) (offset : UInt64) (b : Nat → Binding) :
    let fitting := if offset.toNat + 15 ≤ storage.length
      then (storage.length - 15 - offset.toNat) / 30 else 0
    ∃ (answer : Nat → Answer) (behind : Nat → Buffer), ∀ n,
      (∃ next, chain offset storage ((List.range n).map b) =
          .ok ((List.range n).map answer, next, behind n) ∧
        next.toNat = offset.toNat + 30 * min n fitting) ∧
      (n < fitting → (answer n).pointer base ≠ 0 ∧
        ((answer n).pointer base).toNat = base.toNat + (offset.toNat + 30 * n)) ∧
      (fitting ≤ n → (answer n).pointer base = 0 ∧ behind n = behind fitting) ∧
      (∀ k < min n fitting, (behind n).slice? (offset.toNat + 30 * k) 30 =
        some (Trampoline.bytes (b k).function (b k).argument (b k).position)) ∧
      (∀ i, i < offset.toNat ∨ offset.toNat + 30 * min n fitting ≤ i →
        (behind n).bytes[i]? = storage.bytes[i]?) ∧
      (offset = 0 → ∀ (capacity : UInt64) (grants : UInt64 → Bool) (t : Table)
        (names : Nat → String), Table.create capacity grants = .ok (.ok t) →
        Function.Injective names →
        let pushed := Table.run ((List.range n).map fun k => (b k).request (names k)) t
        ∀ d, d ≤ min n fitting → d ≤ capacity.toNat →
          pushed.2.region.buffer.bytes.take (30 * d) = (behind n).bytes.take (30 * d) ∧
          ∀ k < d, pushed.1[k]? = some (.ok (.ok (30 * k))) ∧
            ∃ e, pushed.2.entries[k]? = some e ∧ e.name = names k ∧ e.offset = 30 * k) := by
  intro fits
  have fits_eq : fits = fitting storage.length offset := rfl
  refine ⟨chainAnswer storage offset b, fun n => filledWith storage offset b (min n fits),
    fun n => ⟨⟨place storage offset n, chain_range start ends n, toNat_place storage offset n⟩,
      fun before => ?_, fun behind => ⟨?_, ?_⟩, fun k before => ?_, fun i => getElem?_filledWith,
      ?_⟩⟩
  · have bound := bound_of_accepted start ends ((accepted_place_iff (b := b)).2 before)
    have here := toNat_place storage offset n
    have room := lt_fitting_iff.1 before
    refine ⟨bound.not_null, ?_⟩
    have pointer : (chainAnswer storage offset b n).pointer base = base + place storage offset n :=
      bound.pointer
    rw [pointer, Word.toNat_add_of_lt (by omega), here, ← fits_eq,
      Nat.min_eq_left (Nat.le_of_lt before)]
  · have full := mt (accepted_place_iff (b := b)).1 (Nat.not_lt_of_le behind)
    exact (refused_of_not_accepted base full).null
  · exact congrArg _ (by omega)
  · exact slice?_filledWith (Nat.min_le_right ..) before
  · rintro rfl capacity grants t names created distinct pushed d few room
    obtain ⟨bytes, each⟩ := Table.run_requests created b distinct
      (Nat.le_trans few (Nat.min_le_left ..)) room
    exact ⟨bytes.trans (take_filledWith_zero (Nat.min_le_right ..) few).symm, each⟩

theorem filled_of_chain_to_the_margin :
    let storage := Buffer.filled 100 0xCC
    let b : Nat → Binding := fun k => ⟨0x1000, .ofNat k, .third⟩
    let names : Nat → String := fun k => .ofList (List.replicate k 'a')
    let t : Table := { region := ⟨.filled 4096 0⟩, capacity := 2 }
    0 < (0x7f0000000000 : UInt64).toNat ∧
      (0x7f0000000000 : UInt64).toNat + storage.length < UInt64.size ∧
      Table.create 2 = .ok (.ok t) ∧ Function.Injective names ∧
      ∃ (answer : Nat → Answer) (behind : Nat → Buffer) (next : UInt64),
        chain 0 storage ((List.range 3).map b) = .ok ((List.range 3).map answer, next, behind 3) ∧
        next.toNat = 60 ∧ ((answer 1).pointer 0x7f0000000000).toNat = 0x7f000000001E ∧
        (answer 2).pointer 0x7f0000000000 = 0 ∧ behind 3 = behind 2 ∧
        (Table.run ((List.range 3).map fun k => (b k).request (names k)) t).2.region.buffer.bytes.take
          60 = (behind 3).bytes.take 60 := by
  intro storage b names t
  have start : 0 < (0x7f0000000000 : UInt64).toNat := by decide
  have ends : (0x7f0000000000 : UInt64).toNat + storage.length < UInt64.size := by decide
  have required : Table.requiredSize? 2 = some 75 := by decide
  have created : Table.create 2 = .ok (.ok t) :=
    Table.create_of_required required (by decide) (by decide) (by decide)
  have distinct : Function.Injective names := by
    intro i j same
    have length := congrArg (fun s => s.toList.length) same
    simpa [names] using length
  obtain ⟨answer, behind, each⟩ := filled_of_chain start ends 0 b
  obtain ⟨-, second, -⟩ := each 1
  obtain ⟨-, -, third, -⟩ := each 2
  obtain ⟨⟨next, chained, counted⟩, -, full, -, -, table⟩ := each 3
  have two : (if (0 : UInt64).toNat + 15 ≤ storage.length
      then (storage.length - 15 - (0 : UInt64).toNat) / 30 else 0) = 2 := by decide
  rw [two] at counted full table
  exact ⟨start, ends, created, distinct, answer, behind, next, chained, counted,
    (second (by decide)).2, (third (by decide)).1, (full (by decide)).2,
    (table rfl 2 _ t names created distinct 2 (by decide) (by decide)).1⟩

end Storage
end Prebind
