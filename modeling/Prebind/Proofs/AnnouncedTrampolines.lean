import Prebind.Proofs.SingleListings

/-!
What is logged of trampolines. Each of them is announced, and each of its instructions is logged
before it is written. The log of a table tells of its entries, in order, and of nothing else: a push
that is refused leaves no word in it.
-/

namespace Prebind

/-! Tables -/

namespace Table

/-- What is logged of an entry. -/
def Entry.events (e : Entry) : List Event :=
  Assembler.events e.function e.argument e.position (.ofNat e.offset)

/-- The log tells of the entries and of nothing else. -/
def Announced (t : Table) : Prop :=
  t.log = t.entries.flatMap Entry.events

variable {t u : Table}

theorem Announced.extend (h : t.Announced) (name : String) (function argument : UInt64)
    (position : Position) : (t.extend name function argument position).Announced := by
  rw [Announced] at h
  change t.log ++ _ = (t.entries ++ [_]).flatMap Entry.events
  rw [h, List.flatMap_append, List.flatMap_singleton]
  rfl

theorem Announced.push (h : t.Announced) (laid : t.WellFormed) {r : Request}
    {answer : Except TableError Nat} (pushed : r.push t = .ok answer u) : u.Announced := by
  rw [Request.push, laid.push_eq] at pushed
  split at pushed
  · cases pushed
    exact h
  · split at pushed
    · cases pushed
      exact h
    · split at pushed <;> cases pushed
      · exact h
      · exact h.extend ..

theorem Announced.run (h : t.Announced) (laid : t.WellFormed) (requests : List Request) :
    (Table.run requests t).2.Announced := by
  induction requests generalizing t with
  | nil => exact h
  | cons r rest ih =>
      obtain ⟨answer, u, pushed, laid', -⟩ := laid.push r
      rw [run_cons_of_ok pushed]
      exact ih (h.push laid pushed) laid'

end Table

/-! Manifests -/

namespace Manifest

/-- What is logged of an entry behind so many others. -/
def Entry.events (e : Entry) (i : Nat) : List Event :=
  match Position.ofIndex? e.position.toNat with
  | none => []
  | some position => Assembler.events e.target e.value position (.ofNat (30 * i))

/-- What is logged of all entries. -/
def events (m : Manifest) : List Event :=
  (m.entries.mapIdx fun i e => e.events i).flatten

end Manifest

namespace Listing

end Listing
end Prebind
