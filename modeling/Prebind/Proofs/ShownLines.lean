import Prebind.Proofs.ListedBytes
import Prebind.Proofs.LogLines

/-!
The lines that people see of listings. A name stands at the front of its line without quotes, and
may look like anything, like parts of such a line too. But the words behind it are always of one
number and have no space in them, so that a line is read from its end.
-/

namespace Prebind

/-! Words and lines -/

namespace Text

/-- A text without a space and without a line feed. -/
def IsWord (s : List Char) : Prop :=
  ' ' ∉ s ∧ '\n' ∉ s

instance (s : List Char) : Decidable (IsWord s) :=
  inferInstanceAs (Decidable (_ ∧ _))

theorem IsWord.append {s t : List Char} (hs : IsWord s) (ht : IsWord t) : IsWord (s ++ t) :=
  ⟨fun h => (List.mem_append.1 h).elim hs.1 ht.1, fun h => (List.mem_append.1 h).elim hs.2 ht.2⟩

theorem isWord_toDigits {radix : Nat} (atLeast : 1 < radix) (atMost : radix ≤ 16) (n : Nat) :
    IsWord (radix.toDigits n) := by
  have digits : ∀ d < 16, d.digitChar ≠ ' ' ∧ d.digitChar ≠ '\n' := by decide
  constructor
  · intro space
    obtain ⟨d, small, same⟩ := Numeral.exists_digit_of_mem_toDigits atLeast space
    exact (digits d (by omega)).1 same.symm
  · intro feed
    obtain ⟨d, small, same⟩ := Numeral.exists_digit_of_mem_toDigits atLeast feed
    exact (digits d (by omega)).2 same.symm

/-- What stands in front of the first separator, and what behind it. -/
theorem eq_of_append_cons {c : Char} {xs ys as bs : List Char} (hx : c ∉ xs) (hy : c ∉ ys)
    (same : xs ++ c :: as = ys ++ c :: bs) : xs = ys ∧ as = bs := by
  induction xs generalizing ys with
  | nil =>
      cases ys with
      | nil => exact ⟨rfl, (List.cons.inj same).2⟩
      | cons y ys =>
          obtain ⟨rfl, -⟩ := List.cons.inj same
          exact absurd List.mem_cons_self hy
  | cons x xs ih =>
      cases ys with
      | nil =>
          obtain ⟨rfl, -⟩ := List.cons.inj same
          exact absurd List.mem_cons_self hx
      | cons y ys =>
          obtain ⟨rfl, rest⟩ := List.cons.inj same
          obtain ⟨rfl, behind⟩ := ih (fun h => hx (List.mem_cons_of_mem _ h))
            (fun h => hy (List.mem_cons_of_mem _ h)) rest
          exact ⟨rfl, behind⟩

/-- What stands behind the last space, and what in front of it. -/
theorem eq_of_append_word {xs ys v w : List Char} (hv : IsWord v) (hw : IsWord w)
    (same : xs ++ ' ' :: v = ys ++ ' ' :: w) : xs = ys ∧ v = w := by
  have back := congrArg List.reverse same
  rw [List.reverse_append, List.reverse_append, List.reverse_cons, List.reverse_cons,
    List.append_assoc, List.append_assoc] at back
  obtain ⟨word, front⟩ := eq_of_append_cons (fun h => hv.1 (List.mem_reverse.1 h))
    (fun h => hw.1 (List.mem_reverse.1 h)) back
  exact ⟨List.reverse_inj.1 front, List.reverse_inj.1 word⟩

/-- The last words of a line are determined by their number, whatever stands in front. -/
theorem eq_of_append_words {xs ys : List Char} {vs ws : List (List Char)}
    (count : vs.length = ws.length) (hv : ∀ v ∈ vs, IsWord v) (hw : ∀ w ∈ ws, IsWord w)
    (same : xs ++ vs.flatMap (' ' :: ·) = ys ++ ws.flatMap (' ' :: ·)) : xs = ys ∧ vs = ws := by
  induction vs generalizing xs ys ws with
  | nil =>
      obtain rfl := List.length_eq_zero_iff.1 count.symm
      exact ⟨List.append_cancel_right same, rfl⟩
  | cons v vs ih =>
      obtain _ | ⟨w, ws⟩ := ws
      · cases count
      · rw [List.flatMap_cons, List.flatMap_cons, ← List.append_assoc, ← List.append_assoc] at same
        obtain ⟨front, rfl⟩ := ih (Nat.succ.inj count) (fun v h => hv v (List.mem_cons_of_mem _ h))
          (fun w h => hw w (List.mem_cons_of_mem _ h)) same
        obtain ⟨rfl, rfl⟩ := eq_of_append_word (hv v List.mem_cons_self) (hw w List.mem_cons_self)
          front
        exact ⟨rfl, rfl⟩

theorem splitOn_lines {ls : List (List Char)} (h : ∀ l ∈ ls, '\n' ∉ l) :
    (ls.flatMap (· ++ ['\n'])).splitOn '\n' = ls ++ [[]] := by
  have joined : ls.flatMap (· ++ ['\n']) = List.intercalate ['\n'] (ls ++ [[]]) := by
    induction ls with
    | nil => rfl
    | cons l ls ih =>
        rw [List.flatMap_cons, ih fun l among => h l (List.mem_cons_of_mem _ among)]
        cases ls <;> simp [List.intercalate_cons_cons]
  rw [joined, List.splitOn_intercalate '\n' ?_ (by simp)]
  intro l among
  obtain among | last := List.mem_append.1 among
  · exact h l among
  · rw [List.mem_singleton.1 last]
    exact List.not_mem_nil

end Text

namespace Listing

open Text (IsWord)

/-- The words behind the name of a listing. -/
def words (l : Listing) : List (List Char) :=
  [['@'], l.address.toList, "(+".toList ++ (Hex.number l.offset).toList ++ "):".toList,
    l.register.toList, "<-".toList, l.value.toList,
    '(' :: Nat.toDigits 10 l.position ++ "),".toList, "jump".toList, l.target.toList]

theorem length_words (l : Listing) : l.words.length = 9 :=
  rfl

def headline (l : Listing) : List Char :=
  l.name.toList ++ l.words.flatMap (' ' :: ·)

def byteLine (l : Listing) : List Char :=
  "    ".toList ++ l.bytes.toList

theorem lines_eq (l : Listing) :
    l.lines = [l.headline, l.byteLine].flatMap (· ++ ['\n']) := by
  have spaced : l.lines = l.name.toList ++ [' ', '@', ' '] ++ l.address.toList ++
      ' ' :: "(+".toList ++ (Hex.number l.offset).toList ++ ("):".toList ++ [' ']) ++
      l.register.toList ++ (' ' :: "<-".toList ++ [' ']) ++ l.value.toList ++ [' ', '('] ++
      Nat.toDigits 10 l.position ++ ("),".toList ++ ' ' :: "jump".toList ++ [' ']) ++
      l.target.toList ++ '\n' :: "    ".toList ++ l.bytes.toList ++ ['\n'] := rfl
  rw [spaced]
  simp only [headline, words, byteLine, List.flatMap_cons, List.flatMap_nil, List.cons_append,
    List.nil_append, List.append_assoc, List.append_nil]

/-- The words behind the name have no spaces or line feeds in them, and there is no line feed
between the bytes. -/
structure Plain (l : Listing) : Prop where
  words : ∀ w ∈ l.words, IsWord w
  bytes : '\n' ∉ l.bytes.toList

theorem isWord_number (n : Nat) : IsWord (Hex.number n).toList := by
  have digits := Text.isWord_toDigits (by decide) (Nat.le_refl 16) n
  rw [Hex.number, String.toList_ofList]
  exact IsWord.append (s := ['0', 'x']) (by decide) digits

theorem feed_not_mem_spaced (bs : List UInt8) : '\n' ∉ (Hex.spaced bs).toList := by
  intro feed
  have kept : '\n' ∈ (Hex.spaced bs).toList.filter (· ≠ ' ') := List.mem_filter.2 ⟨feed, rfl⟩
  rw [Hex.filter_spaced] at kept
  obtain ⟨b, -, among⟩ := List.mem_flatMap.1 kept
  obtain ⟨d, digit⟩ := Hex.digit?_pair among
  cases digit

theorem Generated.plain {l : Listing} (h : Generated l) : l.Plain := by
  obtain ⟨name, position, function, argument, offset, address, rfl⟩ := h.eq_make
  have opening : IsWord "(+".toList := by decide
  have closing : IsWord "):".toList := by decide
  have register : IsWord position.register.name.toList := by cases position <;> decide
  have digits : IsWord (Nat.toDigits 10 position.index) :=
    Text.isWord_toDigits (by decide) (by decide) _
  have index : IsWord ('(' :: Nat.toDigits 10 position.index) :=
    IsWord.append (s := ['(']) (by decide) digits
  constructor
  · simp only [words, make, List.forall_mem_cons]
    exact ⟨by decide, isWord_number _, (opening.append (isWord_number _)).append closing,
      register, by decide, isWord_number _, index.append (by decide), by decide, isWord_number _,
      List.forall_mem_nil _⟩
  · simp only [make]
    exact feed_not_mem_spaced _

/-- Two lines leave nothing open of a listing. -/
theorem eq_of_lines {l m : Listing} (hl : l.Plain) (hm : m.Plain)
    (first : l.headline = m.headline) (second : l.byteLine = m.byteLine) : l = m := by
  have count : l.words.length = m.words.length := (length_words l).trans (length_words m).symm
  obtain ⟨name, words⟩ := Text.eq_of_append_words count hl.words hm.words first
  simp only [Listing.words, List.cons.injEq, List.append_cancel_left_eq,
    List.append_cancel_right_eq, String.toList_inj, and_true, true_and] at words
  obtain ⟨address, offset, register, value, position, target⟩ := words
  have offset : l.offset = m.offset := by
    have digits := congrArg String.toList offset
    rw [Hex.number, Hex.number, String.toList_ofList, String.toList_ofList] at digits
    exact Numeral.toDigits_injective (by decide) (Nat.le_refl 16)
      (List.cons.inj (List.cons.inj digits).2).2
  have position : l.position = m.position :=
    Numeral.toDigits_injective (by decide) (by decide) position
  have bytes : l.bytes = m.bytes := String.toList_inj.1 (List.append_cancel_left second)
  cases l
  cases m
  cases String.toList_inj.1 name
  simp_all

/-- What people see of listings is two lines for each of them, in order. -/
theorem toList_render_human (ls : List Listing) :
    (render ls .human).toList =
      (ls.flatMap fun l => [l.headline, l.byteLine]).flatMap (· ++ ['\n']) := by
  rw [render, String.toList_ofList, List.flatMap_assoc]
  exact congrArg (ls.flatMap ·) (funext lines_eq)

theorem Plain.feed_not_mem {l : Listing} (h : l.Plain) (name : '\n' ∉ l.name.toList) :
    ∀ s ∈ [l.headline, l.byteLine], '\n' ∉ s := by
  have first : '\n' ∉ l.headline := by
    intro feed
    obtain feed | feed := List.mem_append.1 feed
    · exact name feed
    · obtain ⟨w, among, feed⟩ := List.mem_flatMap.1 feed
      obtain space | feed := List.mem_cons.1 feed
      · exact absurd space (by decide)
      · exact (h.words w among).2 feed
  have second : '\n' ∉ l.byteLine := by
    intro feed
    obtain indent | feed := List.mem_append.1 feed
    · exact absurd indent (by decide)
    · exact h.bytes feed
  exact List.forall_mem_cons.2 ⟨first, List.forall_mem_singleton.2 second⟩

theorem splitOn_render_human {ls : List Listing}
    (plain : ∀ l ∈ ls, l.Plain ∧ '\n' ∉ l.name.toList) :
    (render ls .human).toList.splitOn '\n' =
      (ls.flatMap fun l => [l.headline, l.byteLine]) ++ [[]] := by
  rw [toList_render_human]
  apply Text.splitOn_lines
  intro s among
  obtain ⟨l, h, among⟩ := List.mem_flatMap.1 among
  exact (plain l h).1.feed_not_mem (plain l h).2 s among

theorem eq_of_all_lines {ls ms : List Listing} (hl : ∀ l ∈ ls, l.Plain) (hm : ∀ m ∈ ms, m.Plain)
    (same : (ls.flatMap fun l => [l.headline, l.byteLine]) =
      ms.flatMap fun m => [m.headline, m.byteLine]) : ls = ms := by
  induction ls generalizing ms with
  | nil =>
      cases ms with
      | nil => rfl
      | cons m ms => cases same
  | cons l ls ih =>
      cases ms with
      | nil => cases same
      | cons m ms =>
          obtain ⟨first, same⟩ := List.cons.inj same
          obtain ⟨second, rest⟩ := List.cons.inj same
          rw [eq_of_lines (hl l List.mem_cons_self) (hm m List.mem_cons_self) first second,
            ih (fun l h => hl l (List.mem_cons_of_mem _ h))
              (fun m h => hm m (List.mem_cons_of_mem _ h)) rest]

/-- Listings that are made, under names without line feeds, are shown in exactly two lines for each
of them, in order. Two lists of them that look the same are the same, whatever their names look
like. -/
theorem shown_lines_determine_listings {ls others : List Listing}
    (made : ∀ l ∈ ls, Generated l ∧ '\n' ∉ l.name.toList)
    (made' : ∀ l ∈ others, Generated l ∧ '\n' ∉ l.name.toList) :
    (render ls .human).toList.splitOn '\n' =
      (ls.flatMap fun l => [l.headline, l.byteLine]) ++ [[]] ∧
    (render ls .human = render others .human → ls = others) := by
  have plain {ls : List Listing} (made : ∀ l ∈ ls, Generated l ∧ '\n' ∉ l.name.toList) :
      ∀ l ∈ ls, l.Plain ∧ '\n' ∉ l.name.toList := fun l h => ⟨(made l h).1.plain, (made l h).2⟩
  have lines := splitOn_render_human (plain made)
  refine ⟨lines, fun same => ?_⟩
  rw [same, splitOn_render_human (plain made')] at lines
  exact eq_of_all_lines (fun l h => (plain made l h).1) (fun l h => (plain made' l h).1)
    (List.append_cancel_right lines).symm

/-- A name that looks like the whole line of the other listing. -/
theorem shown_lines_determine_listings_imitated :
    let l := make "a" .second 1 2 0 0 (Trampoline.bytes 1 2 .second)
    let m := make "a @ 0x0 (+0x0): rsi <- 0x2 (2), jump 0x1" .second 1 2 0 0
      (Trampoline.bytes 1 2 .second)
    (∀ k ∈ [l, m], Generated k ∧ '\n' ∉ k.name.toList) ∧
      (render [l, m] .human).toList.splitOn '\n' =
        [l.headline, l.byteLine, m.headline, m.byteLine, []] ∧
      render [l, m] .human ≠ render [m, l] .human := by
  intro l m
  have granted : System.bare.grants 4096 = true := by decide
  have made (name : String) : Generated (make name .second 1 2 0 0
      (Trampoline.bytes 1 2 .second)) :=
    .ofManifest (ofManifest_entry (e := ⟨name, 1, 2, 2⟩) rfl granted { base := some 0 })
      List.mem_cons_self
  have first : Generated l ∧ '\n' ∉ l.name.toList := ⟨made _, by decide⟩
  have second : Generated m ∧ '\n' ∉ m.name.toList := ⟨made _, by decide⟩
  have both : ∀ k ∈ [l, m], Generated k ∧ '\n' ∉ k.name.toList := by
    simp only [List.forall_mem_cons]
    exact ⟨first, second, nofun⟩
  have swapped : ∀ k ∈ [m, l], Generated k ∧ '\n' ∉ k.name.toList := by
    simp only [List.forall_mem_cons]
    exact ⟨second, first, nofun⟩
  obtain ⟨lines, determined⟩ := shown_lines_determine_listings both swapped
  refine ⟨both, lines, fun same => ?_⟩
  have names := congrArg Listing.name (List.cons.inj (determined same)).1
  exact absurd names (by decide)

end Listing
end Prebind
