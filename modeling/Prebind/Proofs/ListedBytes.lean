import Prebind.Proofs.ManifestLines
import Prebind.Proofs.SingleListings
import Prebind.Proofs.Streams

/-!
What a listing says twice. The function, the constant and the register of a trampoline are shown as
texts, and they are in its bytes, which are shown as well. Whoever reads the digit pairs of the
bytes, decodes the instructions and puts the parts of the pushed word together finds what the texts
say. So the bytes of a listing leave nothing open of the trampoline.
-/

namespace Prebind

/-! Words from their parts -/

namespace Word

/-- The word that is put together from 16-bit parts, the most significant first. -/
def ofParts (parts : List UInt16) : UInt64 :=
  .ofNat (parts.foldl (fun n part => 65536 * n + part.toNat) 0)

theorem map_toNat_parts (w : UInt64) : (parts w).map UInt16.toNat =
    [w.toNat / 281474976710656 % 65536, w.toNat / 4294967296 % 65536, w.toNat / 65536 % 65536,
      w.toNat % 65536] := by
  have second : (w >>> 16).toNat = w.toNat / 65536 := Nat.shiftRight_eq_div_pow w.toNat 16
  have third : (w >>> 32).toNat = w.toNat / 4294967296 := Nat.shiftRight_eq_div_pow w.toNat 32
  have fourth : (w >>> 48).toNat = w.toNat / 281474976710656 :=
    Nat.shiftRight_eq_div_pow w.toNat 48
  simp only [parts, List.map_cons, List.map_nil, UInt64.toNat_toUInt16, second, third, fourth]

theorem ofParts_parts (w : UInt64) : ofParts (parts w) = w := by
  have word : w.toNat < 18446744073709551616 := w.toNat_lt_size
  have value : (parts w).foldl (fun n part => 65536 * n + part.toNat) 0 = w.toNat := by
    rw [← List.foldl_map (f := UInt16.toNat) (g := fun n part => 65536 * n + part), map_toNat_parts]
    simp only [List.foldl_cons, List.foldl_nil]
    omega
  rw [ofParts, value, UInt64.ofNat_toNat]

theorem parts_ofParts (a b c d : UInt16) : parts (ofParts [a, b, c, d]) = [a, b, c, d] := by
  have first := a.toNat_lt
  have second := b.toNat_lt
  have third := c.toNat_lt
  have fourth := d.toNat_lt
  have value : (ofParts [a, b, c, d]).toNat =
      65536 * (65536 * (65536 * a.toNat + b.toNat) + c.toNat) + d.toNat := by
    simp only [ofParts, List.foldl_cons, List.foldl_nil, Nat.mul_zero, Nat.zero_add]
    refine UInt64.toNat_ofNat_of_lt' ?_
    change _ < 18446744073709551616
    omega
  apply List.map_injective_iff.2 (fun _ _ => UInt16.toNat_inj.1)
  rw [map_toNat_parts, value]
  simp only [List.map_cons, List.map_nil, List.cons.injEq, and_true]
  omega

end Word

/-! Digit pairs -/

namespace Hex

/-- Reads a byte from its two digits. -/
def readPair? : List Char → Option UInt8
  | [high, low] => do
    let high ← digit? high
    let low ← digit? low
    return .ofNat (16 * high + low)
  | _ => none

/-- Reads digit pairs with a single space between each two of them. -/
def readSpaced? (s : List Char) : Option (List UInt8) :=
  if s = [] then some [] else (s.splitOn ' ').mapM readPair?

theorem readPair?_pair (b : UInt8) : readPair? (pair b) = some b := by
  have byte := b.toNat_lt
  have high : digit? (b.toNat / 16).digitChar = some (b.toNat / 16) := digit?_digitChar (by omega)
  have low : digit? (b.toNat % 16).digitChar = some (b.toNat % 16) := digit?_digitChar (by omega)
  simp only [pair, readPair?, high, low, Option.bind_eq_bind, Option.bind_some, Nat.div_add_mod,
    UInt8.ofNat_toNat]
  rfl

theorem mapM_readPair?_pair (bs : List UInt8) : (bs.map pair).mapM readPair? = some bs := by
  induction bs with
  | nil => rfl
  | cons b rest ih => simp [readPair?_pair, ih]

theorem spaced_ne_nil {b : UInt8} {rest : List UInt8} : (spaced (b :: rest)).toList ≠ [] := by
  cases rest <;> simp [spaced, pair]

theorem readSpaced?_spaced (bs : List UInt8) : readSpaced? (spaced bs).toList = some bs := by
  cases bs with
  | nil => rfl
  | cons b rest =>
      have apart : ∀ s ∈ (b :: rest).map pair, ' ' ∉ s := by
        intro s among space
        obtain ⟨byte, -, rfl⟩ := List.mem_map.1 among
        obtain ⟨d, digit⟩ := digit?_pair space
        cases digit
      rw [readSpaced?, if_neg spaced_ne_nil, spaced, String.toList_ofList,
        List.splitOn_intercalate ' ' apart (List.cons_ne_nil _ _), mapM_readPair?_pair]

theorem spaced_injective {bs cs : List UInt8} (h : spaced bs = spaced cs) : bs = cs := by
  have read := readSpaced?_spaced bs
  rw [h, readSpaced?_spaced] at read
  exact (Option.some.inj read).symm

end Hex

theorem Address.render_injective {a b : UInt64} (h : render a = render b) : a = b := by
  have read := parse_render a
  rw [h, parse_render] at read
  exact (Except.ok.inj read).symm

namespace Position

theorem index_injective {p q : Position} (h : p.index = q.index) : p = q := by
  cases p <;> cases q <;> first | rfl | cases h

theorem register_injective {p q : Position} (h : p.register = q.register) : p = q := by
  cases p <;> cases q <;> first | rfl | cases h

end Position

/-! Trampolines from their bytes -/

namespace Trampoline

/-- What a trampoline does: it loads a register with a constant and goes on in a function. -/
structure Binding where
  function : UInt64
  argument : UInt64
  register : Register
  deriving DecidableEq, Repr

/-- What instructions do if they are one trampoline. -/
def ofCode? : List Instruction → Option Binding
  | [.loadRax argument, .movFromRax register, .pushImm16 a, .pushImm16 b, .pushImm16 c,
      .pushImm16 d, .ret] => some ⟨Word.ofParts [a, b, c, d], argument, register⟩
  | _ => none

/-- What bytes do if they are one trampoline. -/
def ofBytes? (bytes : List UInt8) : Option Binding :=
  (Instruction.decodeAll? bytes).bind ofCode?

/-- What is read from bytes is a trampoline for a position just if they are its bytes. -/
theorem ofBytes?_eq_some_iff {bs : List UInt8} {function argument : UInt64} {position : Position} :
    ofBytes? bs = some ⟨function, argument, position.register⟩ ↔
      bs = bytes function argument position := by
  constructor
  · intro read
    obtain ⟨code, decoded, same⟩ := Option.bind_eq_some_iff.1 read
    unfold ofCode? at same
    split at same
    · next a b c d =>
      cases same
      rw [← Instruction.encodeAll_of_decodeAll? decoded, bytes, Trampoline.code,
        Word.parts_ofParts]
      rfl
    · cases same
  · rintro rfl
    have decoded : Instruction.decodeAll? (bytes function argument position) =
        some (code function argument position) := Instruction.decodeAll?_encodeAll _
    rw [ofBytes?, decoded, Option.bind_some]
    exact congrArg (fun w => some (⟨w, argument, position.register⟩ : Binding))
      (Word.ofParts_parts function)

theorem bytes_injective {f a g b : UInt64} {p q : Position} (h : bytes f a p = bytes g b q) :
    f = g ∧ a = b ∧ p = q := by
  have read := ofBytes?_eq_some_iff.2 h
  rw [ofBytes?_eq_some_iff.2 rfl] at read
  obtain ⟨rfl, rfl, same⟩ := Binding.mk.inj (Option.some.inj read)
  exact ⟨rfl, rfl, Position.register_injective same⟩

end Trampoline

/-! Listings -/

namespace Listing

/-- Listings that are made, of one trampoline by itself or in a table. -/
inductive Generated : Listing → Prop where
  | single {system : System} {target value index : UInt64} {config : Config} {l : Listing}
      (shown : Listing.single system target value index config = .ok (.ok l)) : Generated l
  | ofManifest {system : System} {m : Manifest} {config : Config} {listings : List Listing}
      {l : Listing} (built : Listing.ofManifest system m config = .ok (.ok listings))
      (among : l ∈ listings) : Generated l

/-- The bytes of a listing are read and do what its texts say. -/
structure ReadsAs (l : Listing) (bytes : List UInt8) (binding : Trampoline.Binding) : Prop where
  read : Hex.readSpaced? l.bytes.toList = some bytes
  length : bytes.length = 30
  decoded : Trampoline.ofBytes? bytes = some binding
  target : Address.parse l.target = .ok binding.function
  value : Address.parse l.value = .ok binding.argument
  named : l.register = binding.register.name
  placed : ∃ position, Position.ofIndex? l.position = some position ∧
    position.register = binding.register

theorem ofEntry_eq_ok {t : Table} (laid : t.WellFormed) {e : Table.Entry} (he : e ∈ t.entries)
    {base : UInt64} {l : Listing} (shown : ofEntry t base e = .ok l) :
    ∃ address, l = make e.name e.position e.function e.argument e.offset address e.code := by
  rw [ofEntry_eq laid he] at shown
  split at shown
  · cases shown
  · cases shown
    exact ⟨_, rfl⟩

theorem Generated.eq_make {l : Listing} (h : Generated l) :
    ∃ name position function argument offset address,
      l = make name position function argument offset address
        (Trampoline.bytes function argument position) := by
  cases h with
  | @single system target value index config _ shown =>
      obtain ⟨position, -, same⟩ | ⟨-, refused⟩ := single_cases system target value index config
      · rw [same] at shown
        cases shown
        exact ⟨_, _, _, _, _, _, rfl⟩
      · rw [refused] at shown
        cases shown
  | ofManifest built among =>
      obtain ⟨t, laid, -, shown⟩ := table_of_ofManifest built
      have answers := (mapM_eq_ok_iff fun _ _ _ => Iff.rfl).1 shown
      obtain ⟨i, there⟩ := List.mem_iff_getElem?.1 among
      obtain ⟨e, he, answer⟩ := getElem?_of_forall₂ answers.flip there
      obtain ⟨address, rfl⟩ := ofEntry_eq_ok laid (List.mem_of_getElem? he) answer
      exact ⟨_, _, _, _, _, _, rfl⟩

/-- The thirty bytes that a listing shows are one trampoline, and it binds what the texts of the
listing say: the numbers that are read from the target and from the value, in the register that is
named and that belongs to the position. So two listings show the same bytes just if they show the
same target, value and position, and then the same register. -/
theorem texts_agree_with_bytes {l : Listing} (h : Generated l) :
    (∃ bytes binding, l.ReadsAs bytes binding) ∧
    ∀ other, Generated other →
      (other.bytes = l.bytes ↔
        other.target = l.target ∧ other.value = l.value ∧ other.position = l.position) ∧
      (other.bytes = l.bytes → other.register = l.register) := by
  obtain ⟨name, position, function, argument, offset, address, rfl⟩ := h.eq_make
  refine ⟨⟨Trampoline.bytes function argument position, ⟨function, argument, position.register⟩,
    ?_⟩, fun other h' => ?_⟩
  · exact {
      read := Hex.readSpaced?_spaced _
      length := Trampoline.length_bytes ..
      decoded := Trampoline.ofBytes?_eq_some_iff.2 rfl
      target := Address.parse_render _
      value := Address.parse_render _
      named := rfl
      placed := ⟨position, Position.ofIndex?_eq_some.2 rfl, rfl⟩ }
  · obtain ⟨name', position', function', argument', offset', address', rfl⟩ := h'.eq_make
    have same (shown : Hex.spaced (Trampoline.bytes function' argument' position') =
        Hex.spaced (Trampoline.bytes function argument position)) :
        function' = function ∧ argument' = argument ∧ position' = position :=
      Trampoline.bytes_injective (Hex.spaced_injective shown)
    refine ⟨⟨fun shown => ?_, fun ⟨target, value, index⟩ => ?_⟩, fun shown => ?_⟩
    · obtain ⟨rfl, rfl, rfl⟩ := same shown
      exact ⟨rfl, rfl, rfl⟩
    · cases Address.render_injective target
      cases Address.render_injective value
      cases Position.index_injective index
      rfl
    · obtain ⟨rfl, rfl, rfl⟩ := same shown
      rfl

/-- Two targets that differ by where a zero stands. -/
theorem texts_agree_with_bytes_zeros :
    let place := System.bare.scratch
    let l := make "trampoline" .second 0x1000 7 0 place (Trampoline.bytes 0x1000 7 .second)
    let other := make "trampoline" .second 0x100 7 0 place (Trampoline.bytes 0x100 7 .second)
    single .bare 0x1000 7 2 {} = .ok (.ok l) ∧ single .bare 0x100 7 2 {} = .ok (.ok other) ∧
      (∃ bytes binding, l.ReadsAs bytes binding) ∧ other.bytes ≠ l.bytes := by
  intro place l other
  have shown : single .bare 0x1000 7 2 {} = .ok (.ok l) := single_of_position rfl
  have shown' : single .bare 0x100 7 2 {} = .ok (.ok other) := single_of_position rfl
  obtain ⟨reads, determined⟩ := texts_agree_with_bytes (.single shown)
  refine ⟨shown, shown', reads, fun same => ?_⟩
  obtain ⟨target, -, -⟩ := (determined other (.single shown')).1.1 same
  exact absurd target (by decide)

end Listing
end Prebind
