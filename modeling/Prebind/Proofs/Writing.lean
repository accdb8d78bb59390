import Prebind.Code.Cursor
import Prebind.Proofs.Overwriting
import Prebind.Proofs.Words

/-!
What the actions of a cursor do, fault by fault. A move keeps the margin, loses it, or is beyond the
largest word; a write puts its bytes into the buffer in the first two cases and does nothing where
they would not fit. In every case the cursor leads forward: bytes change only between the place it
leaves and the place it comes to.
-/

namespace Prebind

section Sequences

variable {ε σ α β : Type}

theorem bind_of_ok {x : EStateM ε σ α} {f : α → EStateM ε σ β} {a b : σ} {r : α}
    (h : x a = .ok r b) : (x >>= f) a = f r b := by
  have hr := EStateM.run_bind (s := a) x f
  simp only [EStateM.run, h] at hr
  exact hr

theorem bind_of_error {x : EStateM ε σ α} {f : α → EStateM ε σ β} {a b : σ} {e : ε}
    (h : x a = .error e b) : (x >>= f) a = .error e b := by
  have hr := EStateM.run_bind (s := a) x f
  simp only [EStateM.run, h] at hr
  exact hr

theorem bind_eq_ok {x : EStateM ε σ α} {f : α → EStateM ε σ β} {a c : σ} {r : β}
    (h : (x >>= f) a = .ok r c) : ∃ s b, x a = .ok s b ∧ f s b = .ok r c := by
  cases hx : x a with
  | ok s b =>
      rw [bind_of_ok hx] at h
      exact ⟨s, b, rfl, h⟩
  | error e b =>
      rw [bind_of_error hx] at h
      cases h

theorem bind_eq_error {x : EStateM ε σ α} {f : α → EStateM ε σ β} {a c : σ} {e : ε}
    (h : (x >>= f) a = .error e c) :
    x a = .error e c ∨ ∃ s b, x a = .ok s b ∧ f s b = .error e c := by
  cases hx : x a with
  | ok s b =>
      rw [bind_of_ok hx] at h
      exact .inr ⟨s, b, rfl, h⟩
  | error e' b =>
      rw [bind_of_error hx] at h
      cases h
      exact .inl rfl

end Sequences

namespace Cursor

/-- There is room for one more instruction of the greatest length. -/
def HasMargin (c : Cursor) : Prop :=
  c.position.toNat + Instruction.maxLength ≤ c.buffer.length

instance (c : Cursor) : Decidable c.HasMargin :=
  inferInstanceAs (Decidable (_ ≤ _))

/-- The fault of a cursor without a margin. -/
def lostMargin (c : Cursor) : Fault :=
  if c.position.toNat + Instruction.maxLength < UInt64.size then
    .margin c.position.toNat c.buffer.length
  else .arithmetic

/-- The cursor behind bytes that it has written. -/
def put (c : Cursor) (bytes : List UInt8) : Cursor where
  buffer := c.buffer.overwrite c.position.toNat bytes
  position := c.position + .ofNat bytes.length

@[simp] theorem length_put (c : Cursor) (bytes : List UInt8) :
    (c.put bytes).buffer.length = c.buffer.length :=
  Buffer.length_overwrite ..

theorem position_put {c : Cursor} {bytes : List UInt8}
    (fits : c.position.toNat + bytes.length ≤ c.buffer.length) :
    (c.put bytes).position.toNat = c.position.toNat + bytes.length := by
  have hl := c.buffer.length_lt
  exact Word.toNat_add_ofNat (by omega)

theorem put_nil (c : Cursor) : c.put [] = c := by
  simp [put, Buffer.overwrite_nil]

theorem put_append {c : Cursor} {xs ys : List UInt8}
    (fits : c.position.toNat + (xs ++ ys).length ≤ c.buffer.length) :
    (c.put xs).put ys = c.put (xs ++ ys) := by
  have hx : c.position.toNat + xs.length ≤ c.buffer.length := by
    rw [List.length_append] at fits
    omega
  have hp : c.position + .ofNat xs.length + .ofNat ys.length =
      c.position + .ofNat (xs ++ ys).length := by
    rw [List.length_append, UInt64.ofNat_add, UInt64.add_assoc]
  simp only [put]
  rw [hp, Buffer.overwrite_append fits, Word.toNat_add_ofNat]
  have hl := c.buffer.length_lt
  omega

/-! Moves -/

theorem advance_of_sum {c : Cursor} {size : UInt64}
    (h : c.position.toNat + size.toNat < UInt64.size) :
    advance size c =
      let moved := { c with position := c.position + size }
      if moved.HasMargin then .ok () moved else .error moved.lostMargin moved := by
  have hsum : Word.add? c.position size = some (c.position + size) :=
    Word.add?_eq_some.2 (Word.toNat_add_of_lt h)
  have hmax : (UInt64.ofNat Instruction.maxLength).toNat = Instruction.maxLength := rfl
  have hl := c.buffer.length_lt
  simp only [advance, hsum, HasMargin, lostMargin]
  cases hstop : Word.add? (c.position + size) (.ofNat Instruction.maxLength) with
  | none =>
      have hbig := Word.add?_eq_none.1 hstop
      rw [hmax] at hbig
      rw [if_neg (by omega), if_neg (by omega)]
  | some stop =>
      have hs := Word.add?_eq_some.1 hstop
      have hlt := stop.toNat_lt_size
      rw [hmax] at hs
      rw [hs] at hlt
      simp only [hs, hlt, if_true]

theorem advance_of_overflow {c : Cursor} {size : UInt64}
    (h : UInt64.size ≤ c.position.toNat + size.toNat) : advance size c = .error .arithmetic c := by
  simp only [advance, Word.add?_eq_none.2 h]

theorem start_of_room {buffer : Buffer} {offset : UInt64}
    (room : offset.toNat + Instruction.maxLength ≤ buffer.length) :
    start buffer offset = .ok { buffer, position := offset } := by
  have hp : (0 : UInt64) + offset = offset := UInt64.zero_add offset
  have sum : (0 : UInt64).toNat + offset.toNat < UInt64.size := by
    have hl := offset.toNat_lt_size
    rwa [UInt64.toNat_zero, Nat.zero_add]
  rw [start, advance_of_sum sum]
  simp only [hp, HasMargin]
  rw [if_pos room]

/-! Writes -/

theorem write_of_fits {c : Cursor} {bytes : List UInt8}
    (fits : c.position.toNat + bytes.length ≤ c.buffer.length) :
    write bytes c =
      if (c.put bytes).HasMargin then .ok () (c.put bytes)
      else .error (c.put bytes).lostMargin (c.put bytes) := by
  have hl := c.buffer.length_lt
  have hsum : c.position.toNat + bytes.length < UInt64.size := by omega
  have hn : (UInt64.ofNat bytes.length).toNat = bytes.length :=
    UInt64.toNat_ofNat_of_lt' (by omega)
  have hword : Word.ofNat? (c.position.toNat + bytes.length) =
      some (c.position + .ofNat bytes.length) :=
    Word.ofNat?_eq_some.2 (Word.toNat_add_ofNat hsum)
  simp only [write, hword, Word.toNat_add_ofNat hsum, if_pos fits]
  rw [advance_of_sum (by rwa [hn])]
  rfl

/-- The fault of bytes that do not fit. -/
def outside (c : Cursor) (size : Nat) : Fault :=
  if c.position.toNat + size < UInt64.size then .bounds else .arithmetic

theorem write_of_outside {c : Cursor} {bytes : List UInt8}
    (h : c.buffer.length < c.position.toNat + bytes.length) :
    write bytes c = .error (c.outside bytes.length) c := by
  simp only [write, outside]
  cases hword : Word.ofNat? (c.position.toNat + bytes.length) with
  | none =>
      have hbig := Word.ofNat?_eq_none.1 hword
      rw [if_neg (by omega)]
  | some stop =>
      have hs := Word.ofNat?_eq_some.1 hword
      have hlt := stop.toNat_lt_size
      rw [if_pos (by omega)]
      exact if_neg (by omega)

theorem write_of_room {c : Cursor} {bytes : List UInt8}
    (room : c.position.toNat + bytes.length + Instruction.maxLength ≤ c.buffer.length) :
    write bytes c = .ok () (c.put bytes) := by
  have fits : c.position.toNat + bytes.length ≤ c.buffer.length := by omega
  rw [write_of_fits fits, if_pos]
  rwa [HasMargin, position_put fits, length_put]

theorem write_eq_ok {c d : Cursor} {bytes : List UInt8} (h : write bytes c = .ok () d) :
    c.position.toNat + bytes.length + Instruction.maxLength ≤ c.buffer.length ∧
      d = c.put bytes := by
  by_cases fits : c.position.toNat + bytes.length ≤ c.buffer.length
  · rw [write_of_fits fits] at h
    split at h
    · next margin =>
      cases h
      rw [HasMargin, position_put fits, length_put] at margin
      exact ⟨margin, rfl⟩
    · cases h
  · rw [write_of_outside (by omega)] at h
    cases h

/-- Some bytes fit before the margin just where the margin is still there behind them. -/
theorem le_remaining_iff {c : Cursor} {size : Nat} (h : 0 < size) :
    size ≤ c.remaining ↔
      c.position.toNat + size + Instruction.maxLength ≤ c.buffer.length := by
  simp only [remaining]
  omega

theorem HasMargin.remaining_eq {c : Cursor} (h : c.HasMargin) :
    c.position.toNat + Instruction.maxLength + c.remaining = c.buffer.length := by
  simp only [HasMargin] at h
  simp only [remaining]
  omega

/-! Leading forward -/

/-- One cursor comes from another by moves and writes: the buffer is as long as before, the position
does not lie in front of the earlier one, and no byte outside of what was passed has changed. -/
structure Leads (c d : Cursor) : Prop where
  length_eq : d.buffer.length = c.buffer.length
  le : c.position.toNat ≤ d.position.toNat
  same : ∀ i, i < c.position.toNat ∨ d.position.toNat ≤ i →
    d.buffer.bytes[i]? = c.buffer.bytes[i]?

theorem Leads.refl (c : Cursor) : Leads c c :=
  ⟨rfl, Nat.le_refl _, fun _ _ => rfl⟩

theorem Leads.trans {c d e : Cursor} (h : Leads c d) (k : Leads d e) : Leads c e where
  length_eq := k.length_eq.trans h.length_eq
  le := Nat.le_trans h.le k.le
  same := by
    intro i hi
    have hh := h.le
    have hk := k.le
    rw [k.same i (by omega), h.same i (by omega)]

/-- A margin that is there was there before. -/
theorem Leads.hasMargin {c d : Cursor} (h : Leads c d) (margin : d.HasMargin) : c.HasMargin := by
  have hl := h.length_eq
  have hp := h.le
  simp only [HasMargin] at *
  omega

theorem leads_put {c : Cursor} {bytes : List UInt8}
    (fits : c.position.toNat + bytes.length ≤ c.buffer.length) : Leads c (c.put bytes) where
  length_eq := length_put c bytes
  le := by
    rw [position_put fits]
    omega
  same := by
    intro i hi
    rw [position_put fits] at hi
    exact Buffer.getElem?_overwrite_of_outside _ _ _ hi

theorem leads_moved {c : Cursor} {size : UInt64}
    (h : c.position.toNat + size.toNat < UInt64.size) :
    Leads c { c with position := c.position + size } where
  length_eq := rfl
  le := by
    rw [Word.toNat_add_of_lt h]
    omega
  same := fun _ _ => rfl

end Cursor
end Prebind
