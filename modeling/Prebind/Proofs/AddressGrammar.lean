import Mathlib.Data.List.TakeWhile
import Mathlib.Data.Nat.Digits.Defs
import Prebind.Address
import Prebind.Proofs.Numerals

/-!
Which texts are addresses, and which they are. A text is stripped of what does not count, and tells
a radix and the characters that have to be digits of it. It is read as the number that they stand
for, which may have any number of digits, if it is a word. An error tells which of this fails first,
from the left.
-/

namespace Prebind

namespace Numeral

/-- A character stands for a digit of a radix, in either case. -/
def Stands (radix : Nat) (c : Char) (d : Nat) : Prop :=
  d < radix ∧ (c = d.digitChar ∨ c = d.digitChar.toUpper)

def IsDigit (radix : Nat) (c : Char) : Prop :=
  ∃ d, Stands radix c d

/-- The characters of a range that starts with a digit go on with the next ones. -/
theorem eq_ofNat_of_le {first last c : Char} {d : Nat} (range : first ≤ c ∧ c ≤ last) (base : Nat)
    (digit : c.toNat - first.toNat + base = d) :
    base ≤ d ∧ d ≤ last.toNat - first.toNat + base ∧ c = Char.ofNat (first.toNat + (d - base)) := by
  have low : first.toNat ≤ c.toNat := range.1
  have high : c.toNat ≤ last.toNat := range.2
  refine ⟨by omega, by omega, ?_⟩
  rw [show first.toNat + (d - base) = c.toNat by omega, Char.ofNat_toNat]

theorem hexDigit?_eq_some_iff {c : Char} {d : Nat} : Hex.digit? c = some d ↔ Stands 16 c d := by
  constructor
  · intro h
    rw [Hex.digit?] at h
    split at h
    · next range =>
      obtain ⟨-, high, rfl⟩ := eq_ofNat_of_le range 0 (Option.some.inj h)
      have small : d ≤ 9 := high
      interval_cases d <;> exact ⟨by decide, .inl rfl⟩
    · split at h
      · next range =>
        obtain ⟨low, high, rfl⟩ := eq_ofNat_of_le range 10 (Option.some.inj h)
        have small : d ≤ 15 := high
        interval_cases d <;> exact ⟨by decide, .inl rfl⟩
      · split at h
        · next range =>
          obtain ⟨low, high, rfl⟩ := eq_ofNat_of_le range 10 (Option.some.inj h)
          have small : d ≤ 15 := high
          interval_cases d <;> exact ⟨by decide, .inr rfl⟩
        · cases h
  · rintro ⟨small, rfl | rfl⟩
    · exact Hex.digit?_digitChar small
    · interval_cases d <;> rfl

variable {radix : Nat}

theorem digit?_eq_some_iff (atMost : radix ≤ 16) {c : Char} {d : Nat} :
    digit? radix c = some d ↔ Stands radix c d := by
  rw [digit?, Option.filter_eq_some_iff, hexDigit?_eq_some_iff, decide_eq_true_iff]
  constructor
  · rintro ⟨⟨-, shown⟩, small⟩
    exact ⟨small, shown⟩
  · rintro ⟨small, shown⟩
    exact ⟨⟨by omega, shown⟩, small⟩

theorem digit?_eq_none_iff (atMost : radix ≤ 16) {c : Char} :
    digit? radix c = none ↔ ¬ IsDigit radix c := by
  simp only [IsDigit, ← digit?_eq_some_iff atMost, Option.eq_none_iff_forall_ne_some, not_exists]

/-! Values -/

/-- The number that digits stand for, the most significant first. -/
def valueOf (radix : Nat) (ds : List Nat) : Nat :=
  Nat.ofDigits radix ds.reverse

theorem valueOf_concat (ds : List Nat) (d : Nat) :
    valueOf radix (ds ++ [d]) = valueOf radix ds * radix + d := by
  rw [valueOf, List.reverse_append, List.reverse_singleton, List.singleton_append,
    Nat.ofDigits_cons, Nat.mul_comm, Nat.add_comm]
  rfl

theorem valueOf_le_append (positive : 0 < radix) (xs ys : List Nat) :
    valueOf radix xs ≤ valueOf radix (xs ++ ys) := by
  rw [valueOf, valueOf, List.reverse_append, Nat.ofDigits_append]
  exact Nat.le_add_left_of_le (Nat.le_mul_of_pos_left _ (Nat.pow_pos positive))

/-! Reading -/

/-- A text of digits stands for a number. -/
def Spells (radix : Nat) (s : List Char) (n : Nat) : Prop :=
  ∃ ds, List.Forall₂ (Stands radix) s ds ∧ valueOf radix ds = n

/-- No digit stands at the start of a text. -/
def Ends (radix : Nat) (s : List Char) : Prop :=
  ∀ c t, s = c :: t → ¬ IsDigit radix c

theorem ends_nil (radix : Nat) : Ends radix [] :=
  nofun

/-- All the digits that a text starts with stand for a number that is no word. -/
def Overflows (radix : Nat) (s : List Char) : Prop :=
  ∃ digits rest n, s = digits ++ rest ∧ Spells radix digits n ∧ Ends radix rest ∧ UInt64.size ≤ n

/-- Something that is no digit follows the digits of a word. -/
def Breaks (radix : Nat) (s : List Char) : Prop :=
  ∃ digits c rest n, s = digits ++ c :: rest ∧ Spells radix digits n ∧ ¬ IsDigit radix c ∧
    n < UInt64.size

/-- Digits and whatever follows them, read behind digits that have been read. -/
theorem readDigits_append_of_ends (positive : 0 < radix) (atMost : radix ≤ 16)
    {front rest : List Char} {ds : List Nat} (before : List Nat)
    (digits : List.Forall₂ (Stands radix) front ds) (ends : Ends radix rest)
    (word : valueOf radix before < UInt64.size) :
    readDigits radix (valueOf radix before) (front ++ rest) =
      if valueOf radix (before ++ ds) < UInt64.size then
        if rest = [] then .ok (valueOf radix (before ++ ds)) else .error .invalidDigit
      else .error .tooLarge := by
  induction digits generalizing before with
  | nil =>
      rw [List.append_nil, if_pos word, List.nil_append]
      cases rest with
      | nil => rfl
      | cons c t =>
          have none := (digit?_eq_none_iff atMost).2 (ends c t rfl)
          simp only [readDigits, none, if_neg (List.cons_ne_nil c t)]
  | @cons c d front ds stands others ih =>
      have found := (digit?_eq_some_iff atMost).2 stands
      rw [List.cons_append, List.append_cons before d ds]
      simp only [readDigits, found, ← valueOf_concat]
      by_cases next : valueOf radix (before ++ [d]) < UInt64.size
      · rw [if_pos next]
        exact ih (before ++ [d]) next
      · have larger := valueOf_le_append positive (before ++ [d]) ds
        rw [if_neg next, if_neg (by omega)]

/-- Every text starts with digits, perhaps none, that are followed by the end or by no digit. -/
theorem exists_digits (radix : Nat) (s : List Char) :
    ∃ digits rest n, s = digits ++ rest ∧ Spells radix digits n ∧ Ends radix rest := by
  induction s with
  | nil => exact ⟨[], [], 0, rfl, ⟨[], .nil, rfl⟩, ends_nil radix⟩
  | cons c s ih =>
      by_cases digit : IsDigit radix c
      · obtain ⟨d, stands⟩ := digit
        obtain ⟨digits, rest, -, rfl, ⟨ds, stand, -⟩, ends⟩ := ih
        exact ⟨c :: digits, rest, _, rfl, ⟨d :: ds, .cons stands stand, rfl⟩, ends⟩
      · refine ⟨[], c :: s, 0, rfl, ⟨[], .nil, rfl⟩, ?_⟩
        intro c' t same
        cases same
        exact digit

section

variable {s : List Char} (positive : 0 < radix) (atMost : radix ≤ 16)

include positive atMost

theorem readDigits_eq {digits rest : List Char} {n : Nat} (spells : Spells radix digits n)
    (ends : Ends radix rest) :
    readDigits radix 0 (digits ++ rest) =
      if n < UInt64.size then if rest = [] then .ok n else .error .invalidDigit
      else .error .tooLarge := by
  obtain ⟨ds, stand, rfl⟩ := spells
  exact readDigits_append_of_ends positive atMost [] stand ends (Nat.two_pow_pos 64)

theorem readDigits_eq_ok_iff {n : Nat} :
    readDigits radix 0 s = .ok n ↔ Spells radix s n ∧ n < UInt64.size := by
  constructor
  · intro read
    obtain ⟨digits, rest, m, rfl, spells, ends⟩ := exists_digits radix s
    rw [readDigits_eq positive atMost spells ends] at read
    split at read
    · next word =>
      split at read
      · next none =>
        subst none
        cases read
        rw [List.append_nil]
        exact ⟨spells, word⟩
      · cases read
    · cases read
  · rintro ⟨spells, word⟩
    have read := readDigits_eq positive atMost spells (ends_nil radix)
    rwa [List.append_nil, if_pos word, if_pos rfl] at read

theorem readDigits_eq_tooLarge_iff :
    readDigits radix 0 s = .error .tooLarge ↔ Overflows radix s := by
  constructor
  · intro read
    obtain ⟨digits, rest, n, rfl, spells, ends⟩ := exists_digits radix s
    refine ⟨digits, rest, n, rfl, spells, ends, ?_⟩
    rw [readDigits_eq positive atMost spells ends] at read
    split at read
    · split at read <;> cases read
    · next large => exact Nat.le_of_not_lt large
  · rintro ⟨digits, rest, n, rfl, spells, ends, large⟩
    rw [readDigits_eq positive atMost spells ends, if_neg (Nat.not_lt_of_le large)]

theorem readDigits_eq_invalidDigit_iff :
    readDigits radix 0 s = .error .invalidDigit ↔ Breaks radix s := by
  constructor
  · intro read
    obtain ⟨digits, rest, n, rfl, spells, ends⟩ := exists_digits radix s
    rw [readDigits_eq positive atMost spells ends] at read
    split at read
    · next word =>
      cases rest with
      | nil => cases read
      | cons c rest => exact ⟨digits, c, rest, n, rfl, spells, ends c rest rfl, word⟩
    · cases read
  · rintro ⟨digits, c, rest, n, rfl, spells, other, word⟩
    have ends : Ends radix (c :: rest) := by
      intro c' t same
      cases same
      exact other
    rw [readDigits_eq positive atMost spells ends, if_pos word, if_neg (List.cons_ne_nil c rest)]

theorem readDigits_ne_empty : readDigits radix 0 s ≠ .error .empty := by
  obtain ⟨digits, rest, n, rfl, spells, ends⟩ := exists_digits radix s
  rw [readDigits_eq positive atMost spells ends]
  split
  · split <;> nofun
  · nofun

end

/-! Signs -/

theorem read_of_nil {s : List Char} (none : dropSign s = []) : read radix s = .error .empty := by
  rw [read, none]

theorem read_of_ne_nil {s : List Char} (some : dropSign s ≠ []) :
    read radix s = (readDigits radix 0 (dropSign s)).map .ofNat := by
  rw [read]
  split
  · next none => exact absurd none some
  · rfl

theorem map_eq_error_iff {r : Except NumeralError Nat} {cause : NumeralError} :
    r.map UInt64.ofNat = .error cause ↔ r = .error cause := by
  cases r with
  | ok n => exact ⟨nofun, nofun⟩
  | error other =>
      simp only [Except.map, Except.error.injEq]

/-- An error of the digits is an error of what is read, as no digits make none of these errors. -/
theorem read_eq_error_iff {s : List Char} {cause : NumeralError} (other : cause ≠ .empty) :
    read radix s = .error cause ↔ readDigits radix 0 (dropSign s) = .error cause := by
  by_cases none : dropSign s = []
  · rw [read_of_nil none, none]
    exact iff_of_false (fun h => other (Except.error.inj h).symm) nofun
  · rw [read_of_ne_nil none, map_eq_error_iff]

section

variable {s : List Char} (positive : 0 < radix) (atMost : radix ≤ 16)

include positive atMost

theorem read_eq_ok_iff {w : UInt64} :
    read radix s = .ok w ↔ dropSign s ≠ [] ∧ Spells radix (dropSign s) w.toNat := by
  by_cases none : dropSign s = []
  · rw [read_of_nil none]
    exact ⟨nofun, fun h => absurd none h.1⟩
  · rw [read_of_ne_nil none]
    constructor
    · intro read
      cases digits : readDigits radix 0 (dropSign s) with
      | error => rw [digits] at read; cases read
      | ok n =>
          rw [digits] at read
          cases read
          obtain ⟨spells, word⟩ := (readDigits_eq_ok_iff positive atMost).1 digits
          exact ⟨none, (UInt64.toNat_ofNat_of_lt' word).symm ▸ spells⟩
    · rintro ⟨-, spells⟩
      rw [(readDigits_eq_ok_iff positive atMost).2 ⟨spells, w.toNat_lt_size⟩]
      exact congrArg Except.ok UInt64.ofNat_toNat

theorem read_eq_empty_iff : read radix s = .error .empty ↔ dropSign s = [] := by
  by_cases none : dropSign s = []
  · exact iff_of_true (read_of_nil none) none
  · rw [read_of_ne_nil none, map_eq_error_iff]
    exact iff_of_false (readDigits_ne_empty positive atMost) none

theorem read_eq_tooLarge_iff : read radix s = .error .tooLarge ↔ Overflows radix (dropSign s) := by
  rw [read_eq_error_iff (by decide), readDigits_eq_tooLarge_iff positive atMost]

theorem read_eq_invalidDigit_iff :
    read radix s = .error .invalidDigit ↔ Breaks radix (dropSign s) := by
  rw [read_eq_error_iff (by decide), readDigits_eq_invalidDigit_iff positive atMost]

end

end Numeral

namespace Address

open Numeral (Spells Overflows Breaks)

/-! Texts and what counts of them -/

/-- A text is another one without the blanks at its ends. -/
def Trims (s t : List Char) : Prop :=
  ∃ before after, s = before ++ t ++ after ∧ (∀ c ∈ before ++ after, Text.isBlank c = true) ∧
    (∀ c, t.head? = some c → Text.isBlank c = false) ∧
    ∀ c, t.getLast? = some c → Text.isBlank c = false

/-- A text may have the mark of a radix in front; without one it is decimal. -/
inductive Marks : List Char → Nat → List Char → Prop
  | small (s : List Char) : Marks ('0' :: 'x' :: s) 16 s
  | capital (s : List Char) : Marks ('0' :: 'X' :: s) 16 s
  | none {s : List Char} (unmarked : ∀ t, s ≠ '0' :: 'x' :: t ∧ s ≠ '0' :: 'X' :: t) : Marks s 10 s

/-- A text may have a plus sign in front of something. -/
inductive Signs : List Char → List Char → Prop
  | plus (c : Char) (s : List Char) : Signs ('+' :: c :: s) (c :: s)
  | none {s : List Char} (unsigned : ∀ c t, s ≠ '+' :: c :: t) : Signs s s

/-- What is left of a text to be read as digits, and the radix of these. -/
def Presents (s : List Char) (radix : Nat) (digits : List Char) : Prop :=
  ∃ trimmed unmarked, Trims s trimmed ∧ Marks (trimmed.filter (· ≠ '_')) radix unmarked ∧
    Signs unmarked digits

theorem dropWhile_eq_self {s : List Char}
    (shown : ∀ c, s.head? = some c → Text.isBlank c = false) : s.dropWhile Text.isBlank = s := by
  cases s with
  | nil => rfl
  | cons c s =>
      apply List.dropWhile_cons_of_neg
      rw [shown c rfl]
      exact Bool.false_ne_true

theorem head?_dropWhile {s : List Char} {c : Char}
    (h : (s.dropWhile Text.isBlank).head? = some c) : Text.isBlank c = false := by
  have shown := List.head?_dropWhile_not Text.isBlank s
  rwa [h] at shown

theorem trims_trim (s : List Char) : Trims s (Text.trim s) := by
  let rest := s.dropWhile Text.isBlank
  let after := (rest.reverse.takeWhile Text.isBlank).reverse
  have split : rest = Text.trim s ++ after := by
    rw [Text.trim, ← List.reverse_append, List.takeWhile_append_dropWhile, List.reverse_reverse]
  refine ⟨s.takeWhile Text.isBlank, after, ?_, ?_, ?_, ?_⟩
  · rw [List.append_assoc, ← split, List.takeWhile_append_dropWhile]
  · intro c h
    obtain h | h := List.mem_append.1 h
    · exact List.mem_takeWhile_imp h
    · exact List.mem_takeWhile_imp (List.mem_reverse.1 h)
  · intro c first
    apply @head?_dropWhile s
    change rest.head? = some c
    rw [split, List.head?_append, first]
    rfl
  · intro c last
    rw [Text.trim, List.getLast?_reverse] at last
    exact head?_dropWhile last

theorem trim_eq_of_trims {s t : List Char} (h : Trims s t) : Text.trim s = t := by
  obtain ⟨before, after, rfl, blank, first, last⟩ := h
  have front : ∀ c ∈ before, Text.isBlank c = true := fun c h =>
    blank c (List.mem_append_left _ h)
  have back : ∀ c ∈ after, Text.isBlank c = true := fun c h =>
    blank c (List.mem_append_right _ h)
  rw [Text.trim, List.append_assoc, List.dropWhile_append_of_pos front]
  cases t with
  | nil =>
      rw [List.nil_append, List.dropWhile_eq_nil_iff.2 back]
      rfl
  | cons c t =>
      have kept : (c :: t ++ after).dropWhile Text.isBlank = c :: t ++ after :=
        dropWhile_eq_self first
      have reversed : (c :: t).reverse.dropWhile Text.isBlank = (c :: t).reverse := by
        apply dropWhile_eq_self
        rw [List.head?_reverse]
        exact last
      rw [kept, List.reverse_append, List.dropWhile_append_of_pos, reversed, List.reverse_reverse]
      exact fun c h => back c (List.mem_reverse.1 h)

theorem marks_iff {s t : List Char} {radix : Nat} :
    Marks s radix t ↔ splitRadix s = (radix, t) := by
  constructor
  · intro h
    cases h with
    | small | capital => rfl
    | none unmarked =>
        rw [splitRadix]
        · exact fun t => (unmarked t).1
        · exact fun t => (unmarked t).2
  · intro h
    unfold splitRadix at h
    split at h
    · cases h
      exact .small _
    · cases h
      exact .capital _
    · next small capital =>
      cases h
      exact .none fun t => ⟨small t, capital t⟩

theorem signs_iff {s t : List Char} : Signs s t ↔ Numeral.dropSign s = t := by
  constructor
  · intro h
    cases h with
    | plus => rfl
    | none unsigned =>
        rw [Numeral.dropSign]
        exact unsigned
  · intro h
    unfold Numeral.dropSign at h
    split at h
    · cases h
      exact .plus _ _
    · next unsigned =>
      cases h
      exact .none unsigned

/-- The radix of a text, and what stands behind the mark of it. -/
def numeral (text : String) : Nat × List Char :=
  splitRadix (significant text.toList)

/-- There is just one thing that a text presents. -/
theorem presents_iff {text : String} {radix : Nat} {digits : List Char} :
    Presents text.toList radix digits ↔
      radix = (numeral text).1 ∧ digits = Numeral.dropSign (numeral text).2 := by
  constructor
  · rintro ⟨trimmed, unmarked, trims, marks, signs⟩
    rw [numeral, significant, trim_eq_of_trims trims, marks_iff.1 marks]
    exact ⟨rfl, (signs_iff.1 signs).symm⟩
  · rintro ⟨rfl, rfl⟩
    exact ⟨_, _, trims_trim text.toList, marks_iff.2 rfl, signs_iff.2 rfl⟩

/-- The radix of a text is one that there are digits for. -/
theorem numeral_bounds (text : String) : 0 < (numeral text).1 ∧ (numeral text).1 ≤ 16 := by
  unfold numeral splitRadix
  split
  · exact ⟨Nat.succ_pos 15, Nat.le_refl 16⟩
  · exact ⟨Nat.succ_pos 15, Nat.le_refl 16⟩
  · exact ⟨Nat.succ_pos 9, Nat.le_add_right 10 6⟩

/-! Reading -/

/-- A text is refused, and it is quoted with the reason. -/
def Refuses (text reason : String) : Prop :=
  ∃ e, parse text = .error e ∧ e.message = "invalid address '" ++ text ++ "': " ++ reason

theorem message_injective {c d : NumeralError} (h : c.message = d.message) : c = d := by
  cases c <;> cases d <;> first | rfl | exact absurd h (by decide)

theorem parse_eq (text : String) :
    parse text = (Numeral.read (numeral text).1 (numeral text).2).mapError fun cause =>
      ⟨text, cause⟩ :=
  rfl

theorem parse_eq_ok_iff {text : String} {w : UInt64} :
    parse text = .ok w ↔ Numeral.read (numeral text).1 (numeral text).2 = .ok w := by
  rw [parse_eq]
  cases Numeral.read (numeral text).1 (numeral text).2 with
  | ok v => simp only [Except.mapError, Except.ok.injEq]
  | error cause => exact ⟨nofun, nofun⟩

theorem parse_eq_error_iff {text : String} {e : AddressError} :
    parse text = .error e ↔
      e.text = text ∧ Numeral.read (numeral text).1 (numeral text).2 = .error e.cause := by
  rw [parse_eq]
  cases Numeral.read (numeral text).1 (numeral text).2 with
  | ok v => exact ⟨nofun, fun h => nomatch h.2⟩
  | error cause =>
      cases e
      simp only [Except.mapError, Except.error.injEq, AddressError.mk.injEq, eq_comm]

theorem refuses_iff {text : String} (cause : NumeralError) :
    Refuses text cause.message ↔
      Numeral.read (numeral text).1 (numeral text).2 = .error cause := by
  constructor
  · rintro ⟨e, refused, message⟩
    obtain ⟨rfl, read⟩ := parse_eq_error_iff.1 refused
    rwa [message_injective ((String.append_right_inj _).1 message)] at read
  · intro read
    exact ⟨⟨text, cause⟩, parse_eq_error_iff.2 ⟨rfl, read⟩, rfl⟩

theorem accepts_or_refuses (text : String) :
    (∃ w, parse text = .ok w) ∨ ∃ cause, Refuses text (NumeralError.message cause) := by
  cases result : parse text with
  | ok w => exact .inl ⟨w, rfl⟩
  | error e => exact .inr ⟨e.cause, (refuses_iff e.cause).2 (parse_eq_error_iff.1 result).2⟩

/-- What a text presents decides everything: it is the word that the digits stand for, and it is
refused if there are none, if they lead beyond the words before they end, or if something else
follows them. -/
theorem parse_decided_by_digits (text : String) :
    ∃ radix digits,
      (∀ radix' digits', Presents text.toList radix' digits' ↔ radix' = radix ∧ digits' = digits) ∧
      (∀ w : UInt64, parse text = .ok w ↔ digits ≠ [] ∧ Spells radix digits w.toNat) ∧
      (Refuses text "cannot parse integer from empty string" ↔ digits = []) ∧
      (Refuses text "number too large to fit in target type" ↔ Overflows radix digits) ∧
      (Refuses text "invalid digit found in string" ↔ Breaks radix digits) ∧
      ((∃ w, parse text = .ok w) ∨ Refuses text "cannot parse integer from empty string" ∨
        Refuses text "number too large to fit in target type" ∨
        Refuses text "invalid digit found in string") := by
  obtain ⟨positive, atMost⟩ := numeral_bounds text
  refine ⟨(numeral text).1, Numeral.dropSign (numeral text).2, fun radix digits => presents_iff,
    fun w => ?_, ?_, ?_, ?_, ?_⟩
  · exact parse_eq_ok_iff.trans (Numeral.read_eq_ok_iff positive atMost)
  · exact (refuses_iff .empty).trans (Numeral.read_eq_empty_iff positive atMost)
  · exact (refuses_iff .tooLarge).trans (Numeral.read_eq_tooLarge_iff positive atMost)
  · exact (refuses_iff .invalidDigit).trans (Numeral.read_eq_invalidDigit_iff positive atMost)
  · obtain accepts | ⟨cause, refuses⟩ := accepts_or_refuses text
    · exact .inl accepts
    · right
      cases cause with
      | empty => exact .inl refuses
      | tooLarge => exact .inr (.inl refuses)
      | invalidDigit => exact .inr (.inr refuses)

end Address
end Prebind
