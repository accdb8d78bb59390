import Prebind.Files

/-!
What is written to a file is read back from it. A file is put where no directory was, so that the
way to it, which leads through directories, is the same behind the change.
-/

namespace Prebind
namespace Files

variable {f : Files} {names : List String}

/-- A path leads to a file, or to a free place in a directory. -/
def Admits (f : Files) (path : String) : Prop :=
  ∃ names, f.resolve path = .ok names ∧ f.node? names ≠ some .directory

theorem lookup_map (nodes : List (List String × Node)) (names other : List String) (node : Node) :
    (nodes.map fun (n, old) => (n, if n = names then node else old)).lookup other =
      (nodes.lookup other).map fun old => if other = names then node else old := by
  induction nodes with
  | nil => rfl
  | cons first rest ih =>
      obtain ⟨n, old⟩ := first
      rw [List.map_cons, List.lookup_cons, List.lookup_cons, ih]
      by_cases same : other = n
      · subst same
        simp
      · simp [beq_eq_false_iff_ne.2 same]

theorem lookup_put (f : Files) (names other : List String) (node : Node) :
    (f.put names node).nodes.lookup other =
      if other = names then some node else f.nodes.lookup other := by
  rw [put]
  cases there : f.nodes.lookup names with
  | some old =>
      rw [if_pos Option.isSome_some, lookup_map]
      by_cases same : other = names
      · simp [same, there]
      · simp [same]
  | none =>
      rw [if_neg (by simp), List.lookup_append]
      by_cases same : other = names
      · simp [same, there]
      · simp [same, List.lookup_cons, beq_eq_false_iff_ne.2 same]

theorem node?_put_self (place : f.node? names ≠ some .directory) (node : Node) :
    (f.put names node).node? names = some node := by
  rw [node?] at place ⊢
  by_cases special : names = [] ∨ names = outside
  · rw [if_pos special] at place
    exact absurd rfl place
  · rw [if_neg special]
    rw [lookup_put, if_pos rfl]

theorem node?_put_of_ne {other : List String} (apart : other ≠ names) (node : Node) :
    (f.put names node).node? other = f.node? other := by
  rw [node?, node?, lookup_put, if_neg apart]

theorem isSome_node?_put (place : f.node? names ≠ some .directory) (node : Node)
    {other : List String} (there : (f.node? other).isNone = false) :
    ((f.put names node).node? other).isNone = false := by
  by_cases same : other = names
  · rw [same, node?_put_self place]
    rfl
  · rwa [node?_put_of_ne same]

theorem follow_put (place : f.node? names ≠ some .directory) (node : Node)
    {components here found : List String} (h : f.follow here components = .ok found) :
    (f.put names node).follow here components = .ok found := by
  -- The change is made where no directory was, so that no step of the way can notice it.
  have kept {here : List String} (directory : f.node? here = some .directory) :
      (f.put names node).node? here = some .directory := by
    rwa [node?_put_of_ne]
    rintro rfl
    exact place directory
  fun_induction follow f here components with
  | case1 here => exact h
  | case2 here c rest directory stays ih =>
      rw [follow, kept directory]
      dsimp only
      rw [if_pos stays]
      exact ih h
  | case3 here rest directory stays ih =>
      rw [follow, kept directory]
      dsimp only
      rw [if_neg stays, if_pos rfl]
      exact ih h
  | case4 | case6 | case8 | case9 => cases h
  | case5 here c directory stays up short =>
      rw [follow, kept directory]
      dsimp only
      rw [if_neg stays, if_neg up, if_neg short, if_pos rfl]
      exact h
  | case7 here c rest directory stays up short last there ih =>
      have there := isSome_node?_put place node (Bool.not_eq_true _ ▸ there)
      rw [follow, kept directory]
      dsimp only
      rw [if_neg stays, if_neg up, if_neg short, if_neg last, if_neg (by rw [there]; decide)]
      exact ih h

theorem walk_put (place : f.node? names ≠ some .directory) (node : Node) {here found : List String}
    {s : List Char} (h : f.walk here s = .ok found) :
    (f.put names node).walk here s = .ok found := by
  rw [walk] at h ⊢
  split
  · next nul =>
    rw [if_pos nul] at h
    cases h
  split
  · next nul long =>
    rw [if_neg nul, if_pos long] at h
    cases h
  · next nul long =>
    rw [if_neg nul, if_neg long] at h
    exact follow_put place node h

theorem root_put (f : Files) (names : List String) (node : Node) :
    (f.put names node).root = f.root := by
  rw [put]
  split <;> rfl

theorem resolve_put (place : f.node? names ≠ some .directory) (node : Node) {path : String}
    {found : List String} (h : f.resolve path = .ok found) :
    (f.put names node).resolve path = .ok found := by
  rw [resolve] at h ⊢
  rw [root_put]
  split
  · next inside prefixed =>
    rw [prefixed] at h
    exact walk_put place node h
  · next prefixed =>
    rw [prefixed] at h
    dsimp only at h
    split
    · next empty =>
      rw [if_pos empty] at h
      cases h
    split
    · next empty root =>
      rw [if_neg empty, if_pos root] at h
      exact h
    · next empty root =>
      rw [if_neg empty, if_neg root] at h
      exact walk_put place node h

theorem read_of_write {path : String} (h : f.Admits path) (content : String) :
    ∃ g, f.write path content = .ok g ∧ g.read path = .ok content := by
  obtain ⟨names, found, place⟩ := h
  have written : f.write path content = .ok (f.put names (.text content)) := by
    rw [write, found]
    exact if_neg place
  refine ⟨_, written, ?_⟩
  rw [read, resolve_put place _ found]
  simp only [bind, Except.bind, node?_put_self place]
  rfl

/-- Just these paths can be written to. -/
theorem admits_iff {path : String} (content : String) :
    f.Admits path ↔ ∃ g, f.write path content = .ok g := by
  constructor
  · intro h
    obtain ⟨g, written, _⟩ := read_of_write h content
    exact ⟨g, written⟩
  · rintro ⟨g, written⟩
    rw [write] at written
    cases found : f.resolve path with
    | error e =>
        rw [found] at written
        cases written
    | ok names =>
        refine ⟨names, found, fun directory => ?_⟩
        rw [found] at written
        simp only [bind, Except.bind, if_pos directory] at written
        cases written

end Files
end Prebind
