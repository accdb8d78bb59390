import Prebind.Trampoline.Position

/-!
Manifests: the list of trampolines that are to be made. A manifest is valid if every position can be
bound and no name comes twice.
-/

namespace Prebind

/-- One trampoline to make. -/
structure Manifest.Entry where
  name : String
  /-- The address of the function to jump to. -/
  target : UInt64
  /-- The value to bind. -/
  value : UInt64
  /-- The index of the argument it is bound to. -/
  position : UInt64
  deriving DecidableEq, Repr

structure Manifest where
  entries : List Manifest.Entry
  deriving DecidableEq, Repr

namespace Manifest

/-- The name of a manifest's file in its directory. -/
def fileName : String := "stubs.toml"

/-- What keeps a manifest from being valid. -/
inductive Flaw where
  | position (name : String) (index : UInt64)
  | duplicate (name : String)
  deriving DecidableEq, Repr

def Flaw.message : Flaw → String
  | .position name index =>
    "trampoline '" ++ name ++ "': position " ++ toString index.toNat ++ " is not 2, 3 or 4"
  | .duplicate name => "duplicate trampoline name '" ++ name ++ "'"

/-- The first flaw of the entries that follow the given names. -/
def flawAfter? (names : List String) : List Entry → Option Flaw
  | [] => none
  | e :: rest =>
    if (Position.ofIndex? e.position.toNat).isNone then some (.position e.name e.position)
    else if e.name ∈ names then some (.duplicate e.name)
    else flawAfter? (e.name :: names) rest

/-- The first flaw; a position that cannot be bound counts before a name that came earlier. -/
def flaw? (m : Manifest) : Option Flaw :=
  flawAfter? [] m.entries

def validate (m : Manifest) : Except Flaw Unit :=
  match m.flaw? with
  | some flaw => .error flaw
  | none => .ok ()

theorem flawAfter?_cons_eq_none {names : List String} {e : Entry} {rest : List Entry} :
    flawAfter? names (e :: rest) = none ↔
      (∃ position, Position.ofIndex? e.position.toNat = some position) ∧ e.name ∉ names ∧
        flawAfter? (e.name :: names) rest = none := by
  rw [flawAfter?]
  cases Position.ofIndex? e.position.toNat with
  | none => simp
  | some position => by_cases taken : e.name ∈ names <;> simp [taken]

theorem validate_eq_ok {m : Manifest} : m.validate = .ok () ↔ m.flaw? = none := by
  rw [validate]
  cases m.flaw? <;> simp

/-- The entries of a valid manifest have positions that can be bound. -/
theorem bindable_of_flawAfter? {names : List String} {es : List Entry}
    (h : flawAfter? names es = none) :
    ∀ e ∈ es, ∃ position : Position, e.position.toNat = position.index := by
  induction es generalizing names with
  | nil =>
      intro e absent
      cases absent
  | cons e es ih =>
      obtain ⟨⟨position, found⟩, _, later⟩ := flawAfter?_cons_eq_none.1 h
      exact List.forall_mem_cons.2 ⟨⟨position, Position.ofIndex?_eq_some.1 found⟩, ih later⟩

/-- The manifest to start from. -/
def starter : Manifest :=
  ⟨[{ name := "bound_second", target := 0x7f0000001000, value := 0xdeadbeef, position := 2 }]⟩

end Manifest
end Prebind
