import Mathlib.Data.List.GetD
import Prebind.Machine.Step
import Prebind.Proofs.Words

/-!
The memory of a machine under loads and stores. Addresses wrap around, so a stretch of memory is
named by its start and its length, and an address lies in it by its distance from the start. A store
changes its own stretch and no other address; bytes that memory holds stay there as long as their
stretch is left alone.
-/

namespace Prebind
namespace Machine

/-- An address is one of the `n` from `start` on. -/
def Within (start : UInt64) (n : Nat) (a : UInt64) : Prop :=
  (a - start).toNat < n

instance (start : UInt64) (n : Nat) (a : UInt64) : Decidable (Within start n a) :=
  inferInstanceAs (Decidable (_ < _))

theorem within_add {start : UInt64} {n i : Nat} (hi : i < n) :
    Within start n (start + .ofNat i) := by
  rw [Within, Word.add_sub_self_left, UInt64.toNat_ofNat']
  exact Nat.lt_of_le_of_lt (Nat.mod_le ..) hi

/-- A stretch inside a larger one. -/
theorem Within.widen {start a : UInt64} {n d size : Nat} (h : Within (start + .ofNat d) n a)
    (fits : d + n ≤ size) : Within start size a := by
  simp only [Within] at *
  have hd : (UInt64.ofNat d).toNat ≤ d := by
    rw [UInt64.toNat_ofNat']
    exact Nat.mod_le ..
  have whole : a - start = (a - (start + .ofNat d)) + .ofNat d := by grind
  rw [whole, UInt64.toNat_add]
  refine Nat.lt_of_le_of_lt (Nat.mod_le ..) ?_
  omega

/-- Two stretches are apart if each ends before the other starts. -/
theorem Within.not_within {a b x : UInt64} {n k : Nat} (h : Within a n x)
    (before : n ≤ (b - a).toNat) (behind : k ≤ (a - b).toNat) : ¬ Within b k x := by
  intro both
  simp only [Within] at h both
  have up : b - a = (x - a) - (x - b) := by grind
  have down : a - b = (x - b) - (x - a) := by grind
  obtain order | order := Nat.le_total (x - b).toNat (x - a).toNat
  · rw [up, Word.toNat_sub_of_le order] at before
    omega
  · rw [down, Word.toNat_sub_of_le order] at behind
    omega

/-! Loads -/

theorem length_load (memory : UInt64 → UInt8) (a : UInt64) (n : Nat) :
    (load memory a n).length = n := by
  induction n generalizing a with
  | zero => rfl
  | succ n ih => rw [load, List.length_cons, ih]

theorem load_add (memory : UInt64 → UInt8) (a : UInt64) (i j : Nat) :
    load memory a (i + j) = load memory a i ++ load memory (a + .ofNat i) j := by
  induction i generalizing a with
  | zero => simp [load]
  | succ i ih =>
      rw [Nat.succ_add, load, load, ih, Word.add_one_add_ofNat, List.cons_append]

theorem getElem?_load {memory : UInt64 → UInt8} {a : UInt64} {i n : Nat} (hi : i < n) :
    (load memory a n)[i]? = some (memory (a + .ofNat i)) := by
  obtain ⟨j, rfl⟩ := Nat.exists_eq_add_of_lt hi
  have front : (load memory a i).length = i := length_load ..
  rw [Nat.add_assoc, load_add, List.getElem?_append_right (Nat.le_of_eq front), front, Nat.sub_self,
    load, List.getElem?_cons_zero]

theorem load_congr {memory other : UInt64 → UInt8} {a : UInt64} {n : Nat}
    (same : ∀ x, Within a n x → other x = memory x) : load other a n = load memory a n := by
  apply List.ext_getElem?
  intro i
  by_cases hi : i < n
  · rw [getElem?_load hi, getElem?_load hi, same _ (within_add hi)]
  · rw [List.getElem?_eq_none (by rw [length_load]; omega),
      List.getElem?_eq_none (by rw [length_load]; omega)]

/-! Stores -/

/-- Each address by its distance from the store. -/
theorem store_apply {bytes : List UInt8} (memory : UInt64 → UInt8) (a x : UInt64)
    (fits : bytes.length ≤ UInt64.size) :
    store memory a bytes x = bytes.getD (x - a).toNat (memory x) := by
  induction bytes generalizing memory a with
  | nil => rfl
  | cons b rest ih =>
      rw [List.length_cons] at fits
      rw [store, ih _ _ (by omega)]
      by_cases here : x = a
      · subst here
        rw [Word.toNat_sub_add_one, UInt64.sub_self, List.getD_eq_default _ _ (by omega),
          if_pos rfl]
        rfl
      · rw [Word.toNat_sub_of_ne here, List.getD_cons_succ, if_neg here]

theorem store_of_not_within {memory : UInt64 → UInt8} {a x : UInt64} {bytes : List UInt8}
    (fits : bytes.length ≤ UInt64.size) (h : ¬ Within a bytes.length x) :
    store memory a bytes x = memory x := by
  rw [store_apply _ _ _ fits, List.getD_eq_default _ _ (Nat.not_lt.1 h)]

/-- Outside the `k` bytes of a number that is stored, nothing changes. -/
theorem store_bytesOf_of_not_within {memory : UInt64 → UInt8} {a x : UInt64} {k n : Nat}
    (small : k ≤ UInt64.size) (h : ¬ Within a k x) :
    store memory a (Word.bytesOf k n) x = memory x := by
  rw [← Word.length_bytesOf k n] at small h
  exact store_of_not_within small h

/-- Two stores side by side are one, whichever comes first. -/
theorem store_store {memory : UInt64 → UInt8} {a : UInt64} {xs ys : List UInt8}
    (fits : xs.length + ys.length ≤ UInt64.size) :
    store (store memory (a + .ofNat xs.length) ys) a xs = store memory a (xs ++ ys) := by
  funext x
  rw [store_apply _ _ _ (by omega), store_apply _ _ _ (by omega),
    store_apply _ _ _ (by rw [List.length_append]; exact fits)]
  by_cases low : (x - a).toNat < xs.length
  · rw [List.getD_append _ _ _ _ low, List.getD_eq_getElem _ _ low, List.getD_eq_getElem _ _ low]
  · have hl : (UInt64.ofNat xs.length).toNat = xs.length := by
      have := (x - a).toNat_lt_size
      exact UInt64.toNat_ofNat_of_lt' (by omega)
    have behind : (x - (a + .ofNat xs.length)).toNat = (x - a).toNat - xs.length := by
      have split : x - (a + .ofNat xs.length) = (x - a) - .ofNat xs.length := by grind
      rw [split, Word.toNat_sub_of_le (by omega), hl]
    rw [List.getD_append_right _ _ _ _ (by omega), behind, List.getD_eq_default xs _ (by omega)]

/-! Bytes in memory -/

/-- The bytes stand in memory from an address on. -/
def Holds (memory : UInt64 → UInt8) (a : UInt64) (bytes : List UInt8) : Prop :=
  load memory a bytes.length = bytes

theorem holds_of_getElem? {memory : UInt64 → UInt8} {a : UInt64} {bytes : List UInt8}
    (h : ∀ i < bytes.length, bytes[i]? = some (memory (a + .ofNat i))) :
    Holds memory a bytes := by
  apply List.ext_getElem?
  intro i
  by_cases hi : i < bytes.length
  · rw [getElem?_load hi, h i hi]
  · rw [List.getElem?_eq_none (by rw [length_load]; omega), List.getElem?_eq_none (by omega)]

theorem holds_store {memory : UInt64 → UInt8} {a : UInt64} {bytes : List UInt8}
    (fits : bytes.length ≤ UInt64.size) : Holds (store memory a bytes) a bytes := by
  apply holds_of_getElem?
  intro i hi
  have distance : (UInt64.ofNat i).toNat = i := UInt64.toNat_ofNat_of_lt' (by omega)
  rw [store_apply _ _ _ fits, Word.add_sub_self_left, distance, List.getD_eq_getElem _ _ hi,
    List.getElem?_eq_getElem hi]

theorem holds_store_word (memory : UInt64 → UInt8) (a w : UInt64) :
    Holds (store memory a (Word.bytesOf 8 w.toNat)) a (Word.bytesOf 8 w.toNat) :=
  holds_store (by rw [Word.length_bytesOf]; decide)

theorem holds_withBytes {bytes : List UInt8} (m : Machine) (a : UInt64)
    (fits : bytes.length ≤ UInt64.size) : Holds (m.withBytes a bytes).memory a bytes := by
  have stored : (m.withBytes a bytes).memory = store m.memory a bytes :=
    funext fun x => (store_apply m.memory a x fits).symm
  rw [stored]
  exact holds_store fits

theorem holds_append {memory : UInt64 → UInt8} {a : UInt64} {xs ys : List UInt8} :
    Holds memory a (xs ++ ys) ↔ Holds memory a xs ∧ Holds memory (a + .ofNat xs.length) ys := by
  rw [Holds, List.length_append, load_add]
  constructor
  · exact fun h => List.append_inj h (length_load ..)
  · rintro ⟨hx, hy⟩
    rw [hx, hy]

theorem Holds.congr {memory other : UInt64 → UInt8} {a : UInt64} {bytes : List UInt8}
    (h : Holds memory a bytes) (same : ∀ x, Within a bytes.length x → other x = memory x) :
    Holds other a bytes :=
  (load_congr same).trans h

theorem Holds.slice {memory : UInt64 → UInt8} {a : UInt64} {bytes : List UInt8}
    (h : Holds memory a bytes) {start : Nat} (inside : start ≤ bytes.length) (n : Nat) :
    Holds memory (a + .ofNat start) ((bytes.drop start).take n) := by
  have front : (bytes.take start).length = start := by
    rw [List.length_take]
    omega
  rw [← List.take_append_drop start bytes, holds_append, front] at h
  have behind := h.2
  rw [← List.take_append_drop n (bytes.drop start), holds_append] at behind
  exact behind.1

/-! Registers -/

theorem eq_of_registers {m other : Machine} (registers : ∀ r, m.registers r = other.registers r)
    (rip : m.rip = other.rip) (memory : m.memory = other.memory) : m = other := by
  cases m
  cases other
  cases funext registers
  cases rip
  cases memory
  rfl

@[simp] theorem registers_set_self (m : Machine) (r : Register) (value : UInt64) :
    (m.set r value).registers r = value :=
  if_pos rfl

theorem registers_set_of_ne {m : Machine} {r s : Register} {value : UInt64} (h : s ≠ r) :
    (m.set r value).registers s = m.registers s :=
  if_neg h

@[simp] theorem memory_set (m : Machine) (r : Register) (value : UInt64) :
    (m.set r value).memory = m.memory :=
  rfl

/-! The stack -/

@[simp] theorem registers_push_rsp (m : Machine) (bytes : List UInt8) :
    (m.push bytes).registers .rsp = m.registers .rsp - .ofNat bytes.length :=
  registers_set_self m .rsp _

theorem registers_push_of_ne {m : Machine} {bytes : List UInt8} {r : Register} (h : r ≠ .rsp) :
    (m.push bytes).registers r = m.registers r :=
  if_neg h

@[simp] theorem memory_push (m : Machine) (bytes : List UInt8) :
    (m.push bytes).memory = store m.memory (m.registers .rsp - .ofNat bytes.length) bytes :=
  rfl

theorem push_nil (m : Machine) : m.push [] = m := by
  refine eq_of_registers (fun r => ?_) rfl rfl
  by_cases h : r = .rsp
  · subst h
    rw [registers_push_rsp]
    exact UInt64.sub_zero _
  · exact registers_push_of_ne h

@[simp] theorem registers_pushWord_rsp (m : Machine) (w : UInt64) :
    (m.pushWord w).registers .rsp = m.registers .rsp - 8 := by
  rw [pushWord, registers_push_rsp, Word.length_bytesOf]
  rfl

theorem registers_pushWord_of_ne {m : Machine} {w : UInt64} {r : Register} (h : r ≠ .rsp) :
    (m.pushWord w).registers r = m.registers r :=
  registers_push_of_ne h

@[simp] theorem memory_pushWord (m : Machine) (w : UInt64) :
    (m.pushWord w).memory = store m.memory (m.registers .rsp - 8) (Word.bytesOf 8 w.toNat) := by
  rw [pushWord, memory_push, Word.length_bytesOf]
  rfl

/-- Pushes one after the other are one push of all the bytes, the last on top. -/
theorem push_push {m : Machine} {xs ys : List UInt8}
    (fits : xs.length + ys.length ≤ UInt64.size) : (m.push ys).push xs = m.push (xs ++ ys) := by
  have top : m.registers .rsp - .ofNat ys.length - .ofNat xs.length =
      m.registers .rsp - .ofNat (xs ++ ys).length := by
    rw [List.length_append, UInt64.ofNat_add]
    grind
  have joined : m.registers .rsp - .ofNat ys.length =
      m.registers .rsp - .ofNat (xs ++ ys).length + .ofNat xs.length := by
    rw [List.length_append, UInt64.ofNat_add]
    grind
  apply eq_of_registers
  · intro r
    by_cases h : r = .rsp
    · subst h
      rw [registers_push_rsp, registers_push_rsp, registers_push_rsp, top]
    · rw [registers_push_of_ne h, registers_push_of_ne h, registers_push_of_ne h]
  · rfl
  · rw [memory_push, memory_push, memory_push, registers_push_rsp, top, joined, store_store fits]

/-- A word in memory is taken off the stack. -/
theorem popWord_of_holds {m : Machine} {w : UInt64}
    (h : Holds m.memory (m.registers .rsp) (Word.bytesOf 8 w.toNat)) :
    m.popWord = (w, m.set .rsp (m.registers .rsp + 8)) := by
  have loaded : load m.memory (m.registers .rsp) 8 = Word.bytesOf 8 w.toNat := by
    rw [Holds, Word.length_bytesOf] at h
    exact h
  simp only [popWord, loaded, Word.ofNat_ofBytes_bytesOf]

theorem popWord_pushWord (m : Machine) (w : UInt64) :
    (m.pushWord w).popWord =
      (w, (m.pushWord w).set .rsp (m.registers .rsp)) := by
  have held : Holds (m.pushWord w).memory ((m.pushWord w).registers .rsp)
      (Word.bytesOf 8 w.toNat) := by
    rw [memory_pushWord, registers_pushWord_rsp]
    exact holds_store_word ..
  have restored : (m.pushWord w).registers .rsp + 8 = m.registers .rsp := by
    rw [registers_pushWord_rsp, UInt64.sub_add_cancel]
  rw [popWord_of_holds held, restored]

end Machine
end Prebind
