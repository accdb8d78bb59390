import Prebind.Manifest.Store
import Prebind.Proofs.FileUpdates
import Prebind.Proofs.ManifestTexts

/-!
A valid manifest that is saved in a directory is loaded from there as it was, whatever its addresses
are, and whatever its names are up to an overflow in the writer: it counts runs of one kind of quote
in a byte. Neither the checks of a manifest nor its reader have a bound of this kind.
-/

namespace Prebind

namespace Toml.Written

theorem eq_nil_of_prefix_cons {n : Nat} {c d : Char} {s : List Char} (other : d ≠ c)
    (h : List.replicate n c <+: d :: s) : n = 0 := by
  cases n with
  | zero => rfl
  | succ n => exact absurd (List.cons_prefix_cons.1 h).1.symm other

/-- The longest run is the greatest number of copies that stand side by side. -/
theorem le_longestRun_iff (n : Nat) (c : Char) (run : Nat) (s : List Char) :
    n ≤ longestRun c run s ↔ List.replicate n c <:+: List.replicate run c ++ s := by
  induction s generalizing run with
  | nil =>
      rw [longestRun, List.append_nil, List.infix_replicate_iff]
      simp
  | cons d s ih =>
      rw [longestRun]
      by_cases same : d = c
      · subst same
        rw [if_pos rfl, ih, List.replicate_succ', List.append_assoc]
        rfl
      · rw [if_neg same, le_max_iff, ih 0, List.replicate_zero, List.nil_append,
          List.infix_append_iff]
        constructor
        · rintro (few | inside)
          · exact .inl (List.infix_replicate_iff.2 (by simpa using few))
          · exact .inr (.inl (inside.trans (List.suffix_cons d s).isInfix))
        · rintro (inside | inside | ⟨front, back, split, ends, begins⟩)
          · exact .inl (by simpa using (List.infix_replicate_iff.1 inside).1)
          · obtain begins | inside := List.infix_cons_iff.1 inside
            · exact .inl (by rw [eq_nil_of_prefix_cons same begins]; exact Nat.zero_le run)
            · exact .inr inside
          · -- A run across the border would go on with another character: its back part is empty.
            obtain ⟨total, _, copies⟩ := List.append_eq_replicate_iff.1 split.symm
            rw [copies] at begins
            have none := eq_nil_of_prefix_cons same begins
            have few := ends.length_le
            rw [List.length_replicate] at few
            exact .inl (by omega)

theorem isQuotable_iff (s : List Char) :
    isQuotable s = true ↔
      ¬ List.replicate 256 '"' <:+: s ∧ ¬ List.replicate 256 '\'' <:+: s := by
  have short (c : Char) : longestRun c 0 s < UInt8.size ↔ ¬ List.replicate 256 c <:+: s := by
    rw [← Nat.not_le, UInt8.size, le_longestRun_iff, List.replicate_zero, List.nil_append]
  rw [isQuotable, Bool.and_eq_true, decide_eq_true_iff, decide_eq_true_iff, short, short]

end Toml.Written

namespace Manifest

/-- A name has so many quotes of one kind in a row that they cannot be counted in a byte. -/
def Unquotable (name : String) : Prop :=
  List.replicate 256 '"' <:+: name.toList ∨ List.replicate 256 '\'' <:+: name.toList

theorem write_of_valid {m : Manifest} (valid : m.validate = .ok ()) :
    m.write =
      if m.entries.all (Toml.Written.isQuotable ·.name.toList) then .ok (.ok m.text)
      else .error .arithmetic := by
  have small : m.entries.any (0x8000000000000000 ≤ ·.position.toNat) = false := by
    rw [List.any_eq_false]
    intro e h
    obtain ⟨position, bound⟩ := bindable_of_flawAfter? (validate_eq_ok.1 valid) e h
    rw [bound]
    cases position <;> decide
  rw [write, small]
  rfl

theorem isQuotable_name_iff (e : Entry) :
    Toml.Written.isQuotable e.name.toList = true ↔ ¬ Unquotable e.name := by
  rw [Toml.Written.isQuotable_iff, Unquotable, not_or]

theorem not_unquotable_of_length {name : String} (short : name.toList.length < 256) :
    ¬ Unquotable name := by
  rintro (long | long)
  · have least := long.length_le
    rw [List.length_replicate] at least
    omega
  · have least := long.length_le
    rw [List.length_replicate] at least
    omega

theorem write_of_quotable {m : Manifest} (valid : m.validate = .ok ())
    (quotable : ∀ e ∈ m.entries, ¬ Unquotable e.name) : m.write = .ok (.ok m.text) := by
  rw [write_of_valid valid, if_pos]
  exact List.all_eq_true.2 fun e h => (isQuotable_name_iff e).2 (quotable e h)

theorem save_of_unquotable {m : Manifest} (valid : m.validate = .ok ()) {e : Entry}
    (h : e ∈ m.entries) (long : Unquotable e.name) (f : Files) (directory : String) :
    m.save f directory = .error .arithmetic := by
  have refused : m.write = .error .arithmetic := by
    rw [write_of_valid valid, if_neg]
    intro all
    exact (isQuotable_name_iff e).1 (List.all_eq_true.1 all e h) long
  simp only [save, refused]

/-- A valid manifest is saved in any place that a file can be written to, and loaded from there as
it was: the same entries in the same order. It fails where the writer loses count of the quotes of a
name, and nowhere else. That is a fault, and not an error that is given back. -/
theorem load_of_save {m : Manifest} (valid : m.validate = .ok ()) {f : Files} {directory : String}
    (place : f.Admits (pathIn directory)) :
    ((∀ e ∈ m.entries, ¬ Unquotable e.name) →
      ∃ g, m.save f directory = .ok (.ok g) ∧ load g directory = .ok m) ∧
    ((∃ e ∈ m.entries, Unquotable e.name) → m.save f directory = .error .arithmetic) := by
  constructor
  · intro quotable
    obtain ⟨g, saved, held⟩ := Files.read_of_write place m.text
    refine ⟨g, ?_, ?_⟩
    · simp only [save, write_of_quotable valid quotable, saved]
      rfl
    · simp only [load, loadFile, held, ofContent, parse_text valid]
      rfl
  · rintro ⟨e, h, long⟩
    exact save_of_unquotable valid h long f directory

theorem load_of_save_awkward_names :
    let m : Manifest :=
      ⟨[⟨"say \"it's\"\n", 0xffffffffffffffff, 0, 2⟩, ⟨"\\\x07", 0x8000000000000000, 1, 3⟩,
        ⟨"", 0, 0x7f0000001000, 4⟩]⟩
    let f : Files := { root := "/work", nodes := [(["stubs.toml"], .text "old")] }
    m.validate = .ok () ∧ f.Admits (pathIn "/work") ∧
      ∃ g, m.save f "/work" = .ok (.ok g) ∧ load g "/work" = .ok m := by
  intro m f
  have valid : m.validate = .ok () := by decide
  have place : f.Admits (pathIn "/work") := ⟨["stubs.toml"], by decide, by decide⟩
  have short : ∀ e ∈ m.entries, e.name.toList.length < 256 := by decide
  exact ⟨valid, place,
    (load_of_save valid place).1 fun e h => not_unquotable_of_length (short e h)⟩

/-- A name of quotes that cannot be counted is valid, but not saved. -/
theorem not_saved_with_long_run :
    let m : Manifest := ⟨[⟨.ofList (List.replicate 256 '"'), 1, 2, 2⟩]⟩
    let f : Files := { root := "/work" }
    m.validate = .ok () ∧ f.Admits (pathIn "/work") ∧
      ¬ ∃ g, m.save f "/work" = .ok (.ok g) ∧ load g "/work" = .ok m := by
  intro m f
  have valid : m.validate = .ok () := rfl
  have long : Unquotable (.ofList (List.replicate 256 '"')) := by
    rw [Unquotable, String.toList_ofList]
    exact .inl List.infix_rfl
  refine ⟨valid, ⟨["stubs.toml"], by decide, by decide⟩, ?_⟩
  rintro ⟨g, saved, _⟩
  rw [save_of_unquotable valid List.mem_cons_self long] at saved
  cases saved

end Manifest
end Prebind
