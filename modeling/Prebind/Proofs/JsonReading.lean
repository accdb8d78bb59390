import Mathlib.Algebra.Field.Rat
import Mathlib.Data.List.TakeWhile
import Prebind.Proofs.Numerals
import Prebind.Text.Json
import Prebind.Toml.Number
import Prebind.Toml.Quoted

/-!
Reading JSON. A text is one value, with blanks around it as between all of its parts; blanks are
spaces, tabs and line ends. Numbers are read as the fractions that they are, and strings with all of
their escapes, of which those of surrogates count in pairs only.

What is written as JSON is read back: each character from its escape, each count from its digits,
each list from its separators.
-/

namespace Prebind
namespace Json

open Toml (Scanner)

/-- What a JSON text stands for. The members of an object are kept in their order. -/
inductive Tree where
  | null
  | boolean (value : Bool)
  | number (value : ℚ)
  | text (value : String)
  | array (items : List Tree)
  | object (members : List (String × Tree))

def isBlank (c : Char) : Bool :=
  c = ' ' || c = '\t' || c = '\n' || c = '\r'

def skipBlank (s : List Char) : List Char :=
  s.dropWhile isBlank

/-! Strings -/

/-- The character that one letter behind a backslash stands for. -/
def shortEscape? : Char → Option Char
  | '"' => some '"'
  | '\\' => some '\\'
  | '/' => some '/'
  | 'b' => some '\x08'
  | 'f' => some '\x0c'
  | 'n' => some '\n'
  | 'r' => some '\r'
  | 't' => some '\t'
  | _ => none

/-- A 16-bit number in hexadecimal digits. -/
def unit? (digits : List Char) : Option Nat :=
  digits.foldlM (fun n c => (Hex.digit? c).map (16 * n + ·)) 0

def isHighSurrogate (n : Nat) : Bool :=
  0xD800 ≤ n && n < 0xDC00

def isLowSurrogate (n : Nat) : Bool :=
  0xDC00 ≤ n && n < 0xE000

/-- A string behind its opening quote. -/
def string : Scanner (List Char)
  | [] => none
  | '"' :: rest => some ([], rest)
  | '\\' :: 'u' :: a :: b :: c :: d :: rest => do
    let n ← unit? [a, b, c, d]
    if isHighSurrogate n then
      match rest with
      | '\\' :: 'u' :: e :: f :: g :: h :: rest => do
        let m ← unit? [e, f, g, h]
        if isLowSurrogate m then
          Toml.Quoted.cons (.ofNat (0x10000 + 0x400 * (n - 0xD800) + (m - 0xDC00))) (string rest)
        else none
      | _ => none
    else if isLowSurrogate n then none
    else Toml.Quoted.cons (.ofNat n) (string rest)
  | '\\' :: c :: rest => (shortEscape? c).bind fun c => Toml.Quoted.cons c (string rest)
  | c :: rest => if 0x20 ≤ c.toNat ∧ c ≠ '\\' then Toml.Quoted.cons c (string rest) else none

/-! Numbers -/

/-- Digits, at least one, of which the first may be zero. -/
def digits : Scanner (List Char) := fun s =>
  if (s.takeWhile Char.isDigit).isEmpty then none
  else some (s.takeWhile Char.isDigit, s.dropWhile Char.isDigit)

/-- Digits of which the first is zero only if it is the only one. -/
def whole : Scanner (List Char)
  | '0' :: rest => some (['0'], rest)
  | s => digits s

/-- The digits behind a point; none if there is no point. -/
def fraction : Scanner (List Char)
  | '.' :: rest => digits rest
  | s => some ([], s)

/-- The exponent of ten, zero if there is none. -/
def exponent : Scanner ℤ
  | c :: rest =>
    if c = 'e' ∨ c = 'E' then do
      let (negative, rest) := Toml.Number.sign rest
      let (ds, rest) ← digits rest
      let n : ℤ := Nat.ofDigitChars 10 ds 0
      return (if negative then -n else n, rest)
    else some (0, c :: rest)
  | [] => some (0, [])

def unsigned : Scanner ℚ := fun s => do
  let (ds, s) ← whole s
  let (fs, s) ← fraction s
  let (e, s) ← exponent s
  return (Nat.ofDigitChars 10 (ds ++ fs) 0 * 10 ^ (e - fs.length), s)

def number : Scanner ℚ
  | '-' :: rest => (unsigned rest).map fun (x, rest) => (-x, rest)
  | s => unsigned s

/-! Values -/

/-- A value that is neither an array nor an object. -/
def scalar : Scanner Tree
  | 'n' :: 'u' :: 'l' :: 'l' :: rest => some (.null, rest)
  | 't' :: 'r' :: 'u' :: 'e' :: rest => some (.boolean true, rest)
  | 'f' :: 'a' :: 'l' :: 's' :: 'e' :: rest => some (.boolean false, rest)
  | '"' :: rest => (string rest).map fun (s, rest) => (.text (.ofList s), rest)
  | s => (number s).map fun (x, rest) => (.number x, rest)

/-- One item or more, with commas between them, up to the bracket that closes the list. -/
def items {α : Type} (item : Scanner α) (close : Char) : Nat → Scanner (List α)
  | 0, _ => none
  | n + 1, s => do
    let (first, s) ← item s
    match skipBlank s with
    | c :: rest =>
      if c = close then some ([first], rest)
      else if c = ',' then (items item close n rest).map fun (xs, rest) => (first :: xs, rest)
      else none
    | [] => none

/-- A list of items behind its opening bracket. -/
def list {α : Type} (item : Scanner α) (close : Char) : Scanner (List α) := fun s =>
  match skipBlank s with
  | c :: rest => if c = close then some ([], rest) else items item close s.length s
  | [] => none

/-- A name, a colon and a value. -/
def member (value : Scanner Tree) : Scanner (String × Tree) := fun s =>
  match skipBlank s with
  | '"' :: rest => do
    let (name, rest) ← string rest
    match skipBlank rest with
    | ':' :: rest => do
      let (v, rest) ← value rest
      return ((.ofList name, v), rest)
    | _ => none
  | _ => none

/-- A value with no more than a number of levels, behind any blanks. -/
def value : Nat → Scanner Tree
  | 0, s => scalar (skipBlank s)
  | depth + 1, s =>
    match skipBlank s with
    | '[' :: rest => (list (value depth) ']' rest).map fun (vs, rest) => (.array vs, rest)
    | '\x7b' :: rest =>
      (list (member (value depth)) '\x7d' rest).map fun (ms, rest) => (.object ms, rest)
    | rest => scalar rest

/-- Reads a whole text. It has fewer levels than characters. -/
def read? (s : List Char) : Option Tree := do
  let (v, rest) ← value s.length s
  if (skipBlank rest).isEmpty then some v else none

/-! Escapes -/

theorem unit?_digits {n : Nat} (h : n < 0x20) :
    unit? ['0', '0', Nat.digitChar (n / 16), Nat.digitChar (n % 16)] = some n := by
  interval_cases n <;> rfl

theorem string_short {x c : Char} (s : List Char) (h : shortEscape? x = some c) :
    string ('\\' :: x :: s) = Toml.Quoted.cons c (string s) := by
  unfold shortEscape? at h
  split at h <;> cases h <;> rfl

theorem string_escape (c : Char) (s : List Char) :
    string (escape c ++ s) = Toml.Quoted.cons c (string s) := by
  unfold escape
  -- First come the characters that have a letter of their own.
  iterate 7
    split
    · next same => subst same; exact string_short s rfl
  split
  · next control =>
    have high : isHighSurrogate c.toNat = false := by simp [isHighSurrogate]; omega
    have low : isLowSurrogate c.toNat = false := by simp [isLowSurrogate]; omega
    simp only [List.cons_append, List.nil_append, string, unit?_digits control,
      Option.bind_eq_bind, Option.bind_some, high, low, Bool.false_eq_true, if_false,
      Char.ofNat_toNat]
  · next quote slash _ _ _ _ _ control =>
    rw [List.cons_append, List.nil_append, string, if_pos ⟨Nat.le_of_not_lt control, slash⟩]
    all_goals
      intros
      contradiction

theorem string_flatMap_escape (s rest : List Char) :
    string (s.flatMap escape ++ '"' :: rest) = some (s, rest) := by
  induction s with
  | nil => rfl
  | cons c s ih =>
      rw [List.flatMap_cons, List.append_assoc, string_escape, ih]
      rfl

/-! Counts -/

/-- A number does not go on here. -/
def Ends (s : List Char) : Prop :=
  ∀ c t, s = c :: t → c.isDigit = false ∧ c ≠ '.' ∧ c ≠ 'e' ∧ c ≠ 'E'

theorem ends_cons {c : Char} (other : c.isDigit = false ∧ c ≠ '.' ∧ c ≠ 'e' ∧ c ≠ 'E')
    (s : List Char) : Ends (c :: s) := by
  rintro _ _ same
  cases same
  exact other

theorem digits_append {ds rest : List Char} (some : ds ≠ []) (digit : ∀ c ∈ ds, c.isDigit = true)
    (ends : Ends rest) : digits (ds ++ rest) = .some (ds, rest) := by
  have taken : (ds ++ rest).takeWhile Char.isDigit = ds := by
    rw [List.takeWhile_append_of_pos digit]
    cases rest with
    | nil => exact List.append_nil ds
    | cons c t => rw [List.takeWhile_cons_of_neg (by simp [(ends c t rfl).1]), List.append_nil]
  have left : (ds ++ rest).dropWhile Char.isDigit = rest := by
    rw [List.dropWhile_append_of_pos digit]
    cases rest with
    | nil => rfl
    | cons c t => exact List.dropWhile_cons_of_neg (by simp [(ends c t rfl).1])
  rw [digits, taken, left, if_neg (by simpa using some)]

/-- No zero stands in front of other digits. -/
theorem toDigits_eq_cons {n : Nat} (positive : n ≠ 0) :
    ∃ c s, Nat.toDigits 10 n = c :: s ∧ c ≠ '0' := by
  induction n using Nat.strongRecOn with
  | ind n ih =>
      rw [Nat.toDigits_eq_if (by decide)]
      split
      · have digits : ∀ d < 10, d ≠ 0 → d.digitChar ≠ '0' := by decide
        exact ⟨_, [], rfl, digits n ‹_› positive⟩
      · obtain ⟨c, s, front, other⟩ := ih (n / 10) (by omega) (by omega)
        exact ⟨c, s ++ [(n % 10).digitChar], by rw [front]; rfl, other⟩

theorem whole_toDigits (n : Nat) {rest : List Char} (ends : Ends rest) :
    whole (Nat.toDigits 10 n ++ rest) = some (Nat.toDigits 10 n, rest) := by
  by_cases zero : n = 0
  · rw [zero, Nat.toDigits_zero]
    rfl
  · have digit : ∀ c ∈ Nat.toDigits 10 n, c.isDigit = true :=
      fun _ => Nat.isDigit_of_mem_toDigits (by decide) (by decide)
    rw [← digits_append Nat.toDigits_ne_nil digit ends]
    obtain ⟨c, s, front, other⟩ := toDigits_eq_cons zero
    rw [front, List.cons_append, whole]
    rintro _ same
    exact other (List.cons.inj same).1

theorem fraction_of_ends {s : List Char} (ends : Ends s) : fraction s = some ([], s) := by
  rw [fraction]
  rintro t rfl
  exact (ends '.' t rfl).2.1 rfl

theorem exponent_of_ends {s : List Char} (ends : Ends s) : exponent s = some (0, s) := by
  cases s with
  | nil => rfl
  | cons c t =>
      obtain ⟨-, -, small, large⟩ := ends c t rfl
      rw [exponent, if_neg (not_or.2 ⟨small, large⟩)]

theorem unsigned_toDigits (n : Nat) {rest : List Char} (ends : Ends rest) :
    unsigned (Nat.toDigits 10 n ++ rest) = some ((n : ℚ), rest) := by
  have read : Nat.ofDigitChars 10 (Nat.toDigits 10 n) 0 = n :=
    Nat.ofDigitChars_toDigits (by decide) (by decide)
  simp only [unsigned, whole_toDigits n ends, fraction_of_ends ends, exponent_of_ends ends,
    Option.bind_eq_bind, Option.bind_some, List.append_nil, read, List.length_nil]
  simp

/-- A count is a number without a sign, and no word. -/
theorem scalar_toDigits (n : Nat) {rest : List Char} (ends : Ends rest) :
    scalar (Nat.toDigits 10 n ++ rest) = some (.number n, rest) := by
  have read := unsigned_toDigits n ends
  obtain ⟨c, s, front⟩ := List.exists_cons_of_ne_nil (Nat.toDigits_ne_nil (n := n) (b := 10))
  have digit : c.isDigit = true :=
    Nat.isDigit_of_mem_toDigits (by decide) (by decide) (front ▸ List.mem_cons_self)
  have other {d : Char} (none : d.isDigit = false) : c ≠ d := by
    rintro rfl
    rw [digit] at none
    cases none
  rw [front, List.cons_append] at read ⊢
  rw [scalar, number, read]
  · rfl
  all_goals
    rintro _ same
    exact other rfl (List.cons.inj same).1

/-! Lists -/

section

variable {α β : Type} {item : Scanner α} {close : Char} {render : β → List Char} {sense : β → α}

/-- What is written for one item of a list is read as what it stands for, and does not look like the
end of the list. -/
structure ReadsBack (item : Scanner α) (close : Char) (render : β → List Char) (sense : β → α) :
    Prop where
  item : ∀ (x : β) {rest : List Char}, Ends rest → item (render x ++ rest) = some (sense x, rest)
  opens : ∀ (x : β) (rest : List Char), ∃ c t, skipBlank (render x ++ rest) = c :: t ∧ c ≠ close

theorem items_last {x : α} {s t rest : List Char} {n : Nat} (read : item s = some (x, t))
    (closed : skipBlank t = close :: rest) : items item close (n + 1) s = some ([x], rest) := by
  simp only [items, read, Option.bind_eq_bind, Option.bind_some, closed, if_true]

theorem items_comma {x : α} {s t : List Char} {n : Nat} (other : close ≠ ',')
    (read : item s = some (x, ',' :: t)) :
    items item close (n + 1) s =
      (items item close n t).map fun (xs, rest) => (x :: xs, rest) := by
  have next : skipBlank (',' :: t) = ',' :: t := rfl
  simp only [items, read, Option.bind_eq_bind, Option.bind_some, next, if_neg other.symm, if_true]

theorem intercalate_cons (render : β → List Char) (x y : β) (ys : List β) (tail : List Char) :
    List.intercalate [','] ((x :: y :: ys).map render) ++ tail =
      render x ++ ',' :: (List.intercalate [','] ((y :: ys).map render) ++ tail) := by
  rw [List.map_cons, List.map_cons, List.intercalate_cons_cons, ← List.map_cons,
    List.append_assoc, List.append_assoc]
  rfl

theorem items_intercalate (h : ReadsBack item close render sense) {tail rest : List Char}
    (ends : Ends tail) (closed : skipBlank tail = close :: rest) (other : close ≠ ',') {n : Nat}
    (x : β) (xs : List β) (enough : xs.length ≤ n) :
    items item close (n + 1) (List.intercalate [','] ((x :: xs).map render) ++ tail) =
      some ((x :: xs).map sense, rest) := by
  induction xs generalizing x n with
  | nil =>
      rw [List.map_singleton, List.intercalate_singleton, items_last (h.item x ends) closed,
        List.map_singleton]
  | cons y ys ih =>
      cases n with
      | zero => cases enough
      | succ n =>
          rw [intercalate_cons, items_comma other (h.item x (ends_cons (by decide) _)),
            ih y (Nat.le_of_succ_le_succ enough)]
          rfl

/-- There are no fewer characters than items. -/
theorem length_lt_intercalate (render : β → List Char) (x : β) (xs : List β) {tail : List Char}
    (some : tail ≠ []) :
    xs.length < (List.intercalate [','] ((x :: xs).map render) ++ tail).length := by
  induction xs generalizing x with
  | nil =>
      rw [List.length_append]
      exact Nat.add_pos_right _ (List.length_pos_iff.2 some)
  | cons y ys ih =>
      have others := ih y
      rw [intercalate_cons, List.length_append, List.length_cons, List.length_cons]
      omega

theorem list_intercalate (h : ReadsBack item close render sense) {tail rest : List Char}
    (ends : Ends tail) (closed : skipBlank tail = close :: rest) (other : close ≠ ',')
    (xs : List β) :
    list item close (List.intercalate [','] (xs.map render) ++ tail) =
      some (xs.map sense, rest) := by
  cases xs with
  | nil => simp only [list, List.map_nil, List.intercalate_nil, List.nil_append, closed, if_true]
  | cons x xs =>
      have some : tail ≠ [] := by
        rintro rfl
        cases closed
      obtain ⟨c, t, first, opens⟩ : ∃ c t,
          skipBlank (List.intercalate [','] ((x :: xs).map render) ++ tail) = c :: t ∧
            c ≠ close := by
        cases xs with
        | nil =>
            rw [List.map_singleton, List.intercalate_singleton]
            exact h.opens x tail
        | cons y ys =>
            rw [intercalate_cons]
            exact h.opens x _
      have enough := length_lt_intercalate render x xs some
      obtain ⟨n, count⟩ := Nat.exists_eq_add_one_of_ne_zero (Nat.ne_zero_of_lt enough)
      rw [list, first]
      dsimp only
      rw [if_neg opens, count]
      exact items_intercalate h ends closed other x xs (by omega)

end

/-! What is written -/

/-- What a field of a listing stands for. -/
def Scalar.tree : Scalar → Tree
  | .text value => .text value
  | .count value => .number value

theorem quote_append (s rest : List Char) :
    quote s ++ rest = '"' :: (s.flatMap escape ++ '"' :: rest) := by
  rw [quote, List.append_assoc]
  rfl

theorem scalar_render (v : Scalar) {rest : List Char} (ends : Ends rest) :
    scalar (v.render ++ rest) = some (v.tree, rest) := by
  cases v with
  | text s =>
      rw [Scalar.render, quote_append, scalar, string_flatMap_escape, Option.map_some]
      exact congrArg (fun s => some (Tree.text s, rest)) String.ofList_toList
  | count n => exact scalar_toDigits n ends

/-- A text or a count starts with a quote or a digit. -/
theorem render_eq_cons (v : Scalar) :
    ∃ c s, v.render = c :: s ∧ isBlank c = false ∧ c ≠ '[' ∧ c ≠ '\x7b' := by
  cases v with
  | text s => exact ⟨'"', _, rfl, by decide⟩
  | count n =>
      have digits : ∀ d < 10, isBlank d.digitChar = false ∧ d.digitChar ≠ '[' ∧
        d.digitChar ≠ '\x7b' := by decide
      obtain ⟨c, s, front⟩ := List.exists_cons_of_ne_nil (Nat.toDigits_ne_nil (n := n) (b := 10))
      obtain ⟨d, small, rfl⟩ :=
        Numeral.exists_digit_of_mem_toDigits (by decide) (front ▸ List.mem_cons_self)
      exact ⟨_, s, front, digits d small⟩

theorem value_render (depth : Nat) (v : Scalar) {rest : List Char} (ends : Ends rest) :
    value depth (' ' :: (v.render ++ rest)) = some (v.tree, rest) := by
  have read := scalar_render v ends
  obtain ⟨c, s, front, shown, array, object⟩ := render_eq_cons v
  rw [front] at read ⊢
  have here : skipBlank (' ' :: (c :: s ++ rest)) = c :: s ++ rest := by
    rw [skipBlank, List.dropWhile_cons_of_pos rfl, List.cons_append,
      List.dropWhile_cons_of_neg (by simp [shown])]
  cases depth with
  | zero => rw [value, here, read]
  | succ depth =>
      rw [value, here, List.cons_append]
      split
      · next same => exact absurd (List.cons.inj same).1 array
      · next same => exact absurd (List.cons.inj same).1 object
      · exact read

theorem member_renderField (depth : Nat) (field : String × Scalar) {rest : List Char}
    (ends : Ends rest) :
    member (value depth) (renderField field ++ rest) =
      some ((field.1, field.2.tree), rest) := by
  obtain ⟨name, v⟩ := field
  have written : renderField (name, v) =
      ['\n', ' ', ' ', ' ', ' '] ++ quote name.toList ++ [':', ' '] ++ v.render := rfl
  have opened : skipBlank (renderField (name, v) ++ rest) =
      '"' :: (name.toList.flatMap escape ++ '"' :: ':' :: ' ' :: (v.render ++ rest)) := by
    rw [written, List.append_assoc, List.append_assoc, List.append_assoc, quote_append]
    rfl
  have colon (s : List Char) : skipBlank (':' :: s) = ':' :: s := rfl
  simp only [member, opened, string_flatMap_escape, Option.bind_eq_bind, Option.bind_some, colon,
    value_render depth v ends, String.ofList_toList]
  rfl

theorem readsBack_renderField (depth : Nat) :
    ReadsBack (member (value depth)) '\x7d' renderField fun field => (field.1, field.2.tree) where
  item field _ ends := member_renderField depth field ends
  opens field rest := ⟨'"', _, rfl, by decide⟩

theorem value_renderObject (depth : Nat) (fields : List (String × Scalar)) (rest : List Char) :
    value (depth + 1) (renderObject fields ++ rest) =
      some (.object (fields.map fun field => (field.1, field.2.tree)), rest) := by
  have opened : skipBlank (renderObject fields ++ rest) =
      '\x7b' :: (List.intercalate [','] (fields.map renderField) ++
        '\n' :: ' ' :: ' ' :: '\x7d' :: rest) := by
    have written : renderObject fields =
        ['\n', ' ', ' ', '\x7b'] ++ List.intercalate [','] (fields.map renderField) ++
          ['\n', ' ', ' ', '\x7d'] := rfl
    rw [written, List.append_assoc, List.append_assoc]
    rfl
  have ends : Ends ('\n' :: ' ' :: ' ' :: '\x7d' :: rest) := ends_cons (by decide) _
  have members := list_intercalate (readsBack_renderField depth) ends rfl (by decide) fields
  rw [value, opened]
  exact congrArg (Option.map fun (ms, rest) => (Tree.object ms, rest)) members

theorem readsBack_renderObject (depth : Nat) :
    ReadsBack (value (depth + 1)) ']' renderObject fun fields =>
      .object (fields.map fun field => (field.1, field.2.tree)) where
  item fields rest _ := value_renderObject depth fields rest
  opens fields rest := ⟨'\x7b', _, rfl, by decide⟩

theorem value_renderArray (depth : Nat) (objects : List (List (String × Scalar)))
    (rest : List Char) :
    value (depth + 2) (renderArray objects ++ rest) =
      some (.array (objects.map fun fields =>
        .object (fields.map fun field => (field.1, field.2.tree))), rest) := by
  obtain ⟨tail, ends, closed, text⟩ : ∃ tail, Ends tail ∧ skipBlank tail = ']' :: rest ∧
      renderArray objects ++ rest =
        '[' :: (List.intercalate [','] (objects.map renderObject) ++ tail) := by
    cases objects with
    | nil => exact ⟨']' :: rest, ends_cons (by decide) _, rfl, rfl⟩
    | cons first others =>
        refine ⟨'\n' :: ']' :: rest, ends_cons (by decide) _, rfl, ?_⟩
        rw [renderArray]
        · rw [List.cons_append, List.cons_append, List.append_assoc]
          rfl
        · nofun
  have items := list_intercalate (readsBack_renderObject depth) ends closed (by decide) objects
  have opened : skipBlank ('[' :: (List.intercalate [','] (objects.map renderObject) ++ tail)) =
      '[' :: (List.intercalate [','] (objects.map renderObject) ++ tail) := rfl
  rw [text, value, opened]
  exact congrArg (Option.map fun (vs, rest) => (Tree.array vs, rest)) items

theorem renderArray_eq (objects : List (List (String × Scalar))) :
    ∃ inside, renderArray objects = '[' :: inside ++ [']'] := by
  cases objects with
  | nil => exact ⟨[], rfl⟩
  | cons first others =>
      refine ⟨List.intercalate [','] ((first :: others).map renderObject) ++ ['\n'], ?_⟩
      rw [renderArray]
      · rw [List.cons_append, List.cons_append, List.append_assoc]
        rfl
      · nofun

/-- Arrays of objects are read back, also with blanks behind them. -/
theorem read?_renderArray (objects : List (List (String × Scalar))) {blanks : List Char}
    (blank : ∀ c ∈ blanks, isBlank c = true) :
    read? (renderArray objects ++ blanks) =
      some (.array (objects.map fun fields =>
        .object (fields.map fun field => (field.1, field.2.tree)))) := by
  obtain ⟨inside, text⟩ := renderArray_eq objects
  obtain ⟨depth, levels⟩ : ∃ depth, (renderArray objects ++ blanks).length = depth + 2 := by
    refine ⟨inside.length + blanks.length, ?_⟩
    rw [text]
    simp only [List.length_append, List.length_cons, List.length_nil]
    omega
  have behind : skipBlank blanks = [] := List.dropWhile_eq_nil_iff.2 blank
  simp only [read?, levels, value_renderArray, Option.bind_eq_bind, Option.bind_some, behind]
  rfl

end Json
end Prebind
