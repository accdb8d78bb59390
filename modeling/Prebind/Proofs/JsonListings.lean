import Prebind.Listing
import Prebind.Proofs.JsonReading

/-!
Listings as JSON. Whoever reads the text finds every listing in its place with all of its fields,
whatever their texts are, so that the text leaves nothing open of the listings.
-/

namespace Prebind
namespace Listing

/-- The object that shows a listing. -/
def tree (l : Listing) : Json.Tree :=
  .object
    [("name", .text l.name), ("position", .number l.position), ("register", .text l.register),
      ("target", .text l.target), ("value", .text l.value), ("offset", .number l.offset),
      ("address", .text l.address), ("bytes", .text l.bytes)]

theorem tree_injective {l m : Listing} (same : l.tree = m.tree) : l = m := by
  cases l
  cases m
  simp only [tree, Json.Tree.object.injEq, List.cons.injEq, Prod.mk.injEq, Json.Tree.text.injEq,
    Json.Tree.number.injEq, Nat.cast_inj, true_and, and_true] at same
  simp only [Listing.mk.injEq]
  exact same

theorem toList_render_json (ls : List Listing) :
    (render ls .json).toList = Json.renderArray (ls.map fields) ++ ['\n'] := by
  rw [render, String.toList_ofList]

theorem read?_render (ls : List Listing) :
    Json.read? (render ls .json).toList = some (.array (ls.map tree)) := by
  have blank : ∀ c ∈ ['\n'], Json.isBlank c = true := List.forall_mem_singleton.2 rfl
  rw [toList_render_json, Json.read?_renderArray _ blank, List.map_map]
  rfl

/-- Listings that are rendered as JSON, however many and whatever their texts, are read as an array
of objects with just these eight fields, in the order of the listings and with their values. The
text ends with one line feed. No other listings are rendered to it. -/
theorem json_text_determines_listings (ls : List Listing) :
    Json.read? (render ls .json).toList = some (.array (ls.map fun l =>
      .object
        [("name", .text l.name), ("position", .number l.position),
          ("register", .text l.register), ("target", .text l.target), ("value", .text l.value),
          ("offset", .number l.offset), ("address", .text l.address),
          ("bytes", .text l.bytes)])) ∧
    (∃ body, (render ls .json).toList = body ++ ['\n'] ∧ body.getLast? = some ']') ∧
    ∀ others, render others .json = render ls .json → others = ls := by
  refine ⟨read?_render ls, ?_, fun others same => ?_⟩
  · obtain ⟨inside, text⟩ := Json.renderArray_eq (ls.map fields)
    refine ⟨_, toList_render_json ls, ?_⟩
    rw [text, List.getLast?_concat]
  · have read := read?_render others
    rw [same, read?_render ls] at read
    have trees := Json.Tree.array.inj (Option.some.inj read)
    exact ((List.map_inj_right fun _ _ => tree_injective).1 trees).symm

end Listing
end Prebind
