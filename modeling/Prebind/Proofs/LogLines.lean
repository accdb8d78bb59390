import Prebind.Code.Assembler
import Prebind.Proofs.Numerals

/-!
Reading the log back. The line of an instruction has three columns: its offset, which ends at the
colon however wide it is, its bytes in 32 places, and its name. From the first two, the offset and
the bytes are read back, as long as the bytes are not too many for their column.
-/

namespace Prebind
namespace Hex

/-- Bytes with a single space between them: two digits for each, and one space less. -/
theorem length_spaced (bs : List UInt8) : (spaced bs).length = 3 * bs.length - 1 := by
  rw [spaced, String.length_ofList]
  induction bs with
  | nil => rfl
  | cons b rest ih =>
      cases rest with
      | nil => rfl
      | cons b' rest =>
          rw [List.map_cons, List.map_cons, List.intercalate_cons_cons, List.length_append,
            List.length_append, ← List.map_cons, ih]
          simp only [pair, List.length_cons, List.length_nil]
          omega

theorem ne_of_digit? {c d : Char} {n : Nat} (digit : digit? c = some n) (none : digit? d = none) :
    c ≠ d := by
  rintro rfl
  rw [digit] at none
  cases none

theorem filter_pair (b : UInt8) : (pair b).filter (· ≠ ' ') = pair b := by
  apply List.filter_eq_self.2
  intro c h
  obtain ⟨d, digit⟩ := digit?_pair h
  exact decide_eq_true (ne_of_digit? digit rfl)

theorem filter_spaced (bs : List UInt8) :
    (spaced bs).toList.filter (· ≠ ' ') = bs.flatMap pair := by
  rw [spaced, String.toList_ofList]
  induction bs with
  | nil => rfl
  | cons b rest ih =>
      cases rest with
      | nil => simpa [List.intercalate_singleton] using filter_pair b
      | cons b' rest =>
          rw [List.map_cons, List.map_cons, List.intercalate_cons_cons, List.filter_append,
            List.filter_append, ← List.map_cons, ih, filter_pair, List.flatMap_cons]
          simp

end Hex

namespace Event

/-- The level of the lines that show instructions, with the space behind it. -/
def traceMark : List Char :=
  ['T', 'R', 'A', 'C', 'E', ' ']

def isTrace (line : String) : Bool :=
  traceMark.isPrefixOf line.toList

/-- The offset and the bytes that the columns of an instruction show. -/
def readColumns? (columns : List Char) : Option (UInt64 × List UInt8) := do
  let offset ← (Numeral.read 16 ((columns.dropWhile (· = ' ')).takeWhile (· ≠ ':'))).toOption
  let bytes ← Hex.readJoined?
    ((((columns.dropWhile (· ≠ ':')).drop 2).take 32).filter (· ≠ ' '))
  return (offset, bytes)

def readTrace? (line : String) : Option (UInt64 × List UInt8) :=
  readColumns? (line.toList.drop traceMark.length)

/-- What all trace lines of a log show, if each of them can be read. -/
def traced? (lines : List String) : Option (List (UInt64 × List UInt8)) :=
  (lines.filter isTrace).mapM readTrace?

theorem toList_padLeft (width : Nat) (s : List Char) :
    (padLeft width (.ofList s)).toList = List.replicate (width - s.length) ' ' ++ s := by
  rw [padLeft, String.toList_ofList, String.toList_ofList, String.length_ofList]

theorem toList_padRight (width : Nat) (s : String) :
    (padRight width s).toList = s.toList ++ List.replicate (width - s.length) ' ' := by
  rw [padRight, String.toList_ofList]

theorem length_padRight {width : Nat} {s : String} (h : s.length ≤ width) :
    (padRight width s).toList.length = width := by
  rw [toList_padRight, List.length_append, List.length_replicate, String.length_toList]
  omega

/-- Digits behind any padding and before a colon are the first column, and the 32 characters behind
the space that follows are the second. -/
theorem readColumns?_eq {padding digits shown rest : List Char}
    (blank : ∀ c ∈ padding, c = ' ') (digit : ∀ c ∈ digits, c ≠ ' ' ∧ c ≠ ':')
    (some : digits ≠ []) (width : shown.length = 32) :
    readColumns? (padding ++ (digits ++ ':' :: ' ' :: (shown ++ rest))) = do
      let offset ← (Numeral.read 16 digits).toOption
      let bytes ← Hex.readJoined? (shown.filter (· ≠ ' '))
      return (offset, bytes) := by
  have behindPadding : (padding ++ (digits ++ ':' :: ' ' :: (shown ++ rest))).dropWhile (· = ' ') =
      digits ++ ':' :: ' ' :: (shown ++ rest) := by
    obtain ⟨first, others, rfl⟩ := List.exists_cons_of_ne_nil some
    have visible := (digit first List.mem_cons_self).1
    rw [List.dropWhile_append_of_pos fun c h => decide_eq_true (blank c h), List.cons_append,
      List.dropWhile_cons_of_neg (by simpa using visible)]
  have offsetColumn : (digits ++ ':' :: ' ' :: (shown ++ rest)).takeWhile (· ≠ ':') = digits := by
    rw [List.takeWhile_append_of_pos fun c h => decide_eq_true (digit c h).2,
      List.takeWhile_cons_of_neg (by decide), List.append_nil]
  have behindDigits : (padding ++ (digits ++ ':' :: ' ' :: (shown ++ rest))).dropWhile (· ≠ ':') =
      ':' :: ' ' :: (shown ++ rest) := by
    rw [List.dropWhile_append_of_pos, List.dropWhile_append_of_pos,
      List.dropWhile_cons_of_neg (by decide)]
    · exact fun c h => decide_eq_true (digit c h).2
    · intro c h
      rw [blank c h]
      decide
  have bytesColumn : ((':' :: ' ' :: (shown ++ rest)).drop 2).take 32 = shown :=
    List.take_left' width
  rw [readColumns?, behindPadding, offsetColumn, behindDigits, bytesColumn]

theorem text_instruction (offset : UInt64) (bytes : List UInt8) (name : String) :
    text (.instruction offset bytes name) =
      padLeft 4 (.ofList (Nat.toDigits 16 offset.toNat)) ++ ": " ++
        padRight 32 (Hex.spaced bytes) ++ " " ++ name := by
  delta text
  rfl

theorem text_binding (function argument : UInt64) (position : Position) (offset : UInt64) :
    text (.binding function argument position offset) =
      "binding " ++ Hex.number argument.toNat ++ " as argument " ++ toString position.index ++
        " (" ++ position.register.name ++ ") of " ++ Hex.number function.toNat ++ " at offset " ++
        Hex.number offset.toNat := by
  delta text
  rfl

theorem toList_text (offset : UInt64) (bytes : List UInt8) (name : String) :
    (text (.instruction offset bytes name)).toList =
      List.replicate (4 - (Nat.toDigits 16 offset.toNat).length) ' ' ++
        (Nat.toDigits 16 offset.toNat ++
          ':' :: ' ' :: ((padRight 32 (Hex.spaced bytes)).toList ++ ' ' :: name.toList)) := by
  have colon : ": ".toList = [':', ' '] := by decide
  have space : " ".toList = [' '] := by decide
  have offsetColumn := toList_padLeft 4 (Nat.toDigits 16 offset.toNat)
  simp only [text_instruction, String.toList_append, offsetColumn, List.append_assoc, colon, space,
    List.cons_append, List.nil_append]

theorem readColumns?_text (offset : UInt64) {bytes : List UInt8} (name : String)
    (short : bytes.length ≤ 11) :
    readColumns? (text (.instruction offset bytes name)).toList = some (offset, bytes) := by
  have width : (padRight 32 (Hex.spaced bytes)).toList.length = 32 := by
    apply length_padRight
    rw [Hex.length_spaced]
    omega
  have digit : ∀ c ∈ Nat.toDigits 16 offset.toNat, c ≠ ' ' ∧ c ≠ ':' := by
    intro c h
    obtain ⟨d, small, rfl⟩ := Numeral.exists_digit_of_mem_toDigits (by decide) h
    have found := Hex.digit?_digitChar small
    exact ⟨Hex.ne_of_digit? found rfl, Hex.ne_of_digit? found rfl⟩
  have pairs : (padRight 32 (Hex.spaced bytes)).toList.filter (· ≠ ' ') =
      bytes.flatMap Hex.pair := by
    rw [toList_padRight, List.filter_append, Hex.filter_spaced, List.filter_replicate]
    exact List.append_nil _
  rw [toList_text, readColumns?_eq (fun _ h => List.eq_of_mem_replicate h) digit Nat.toDigits_ne_nil
    width, pairs, Hex.readJoined?_flatMap_pair,
    Numeral.read_toDigits (by decide) (Nat.le_refl 16) offset]
  rfl

/-! Lines -/

/-- What the line of an event shows of an instruction. -/
def shown? : Event → Option (UInt64 × List UInt8)
  | .instruction offset bytes _ => some (offset, bytes)
  | .binding .. => none

/-- What the lines of events show of instructions. -/
def entries (events : List Event) : List (UInt64 × List UInt8) :=
  events.filterMap shown?

@[simp] theorem entries_nil : entries [] = [] :=
  rfl

@[simp] theorem entries_instruction (offset : UInt64) (bytes : List UInt8) (name : String)
    (events : List Event) :
    entries (.instruction offset bytes name :: events) = (offset, bytes) :: entries events :=
  rfl

@[simp] theorem entries_binding (function argument : UInt64) (position : Position)
    (offset : UInt64) (events : List Event) :
    entries (.binding function argument position offset :: events) = entries events :=
  rfl

/-- The bytes of an event have room in their column. -/
def Short (e : Event) : Prop :=
  ∀ entry, e.shown? = some entry → entry.2.length ≤ 11

theorem isTrace_line (e : Event) : isTrace e.line = e.shown?.isSome := by
  cases e with
  | instruction offset bytes name =>
      simp only [isTrace, line, level, String.toList_append]
      rfl
  | binding function argument position offset =>
      simp only [isTrace, line, level, String.toList_append]
      rfl

theorem readTrace?_line {e : Event} {entry : UInt64 × List UInt8} (found : e.shown? = some entry)
    (short : e.Short) : readTrace? e.line = some entry := by
  have column := short entry found
  cases e with
  | binding => cases found
  | instruction offset bytes name =>
      cases found
      have mark : (line (.instruction offset bytes name)).toList =
          traceMark ++ (text (.instruction offset bytes name)).toList := by
        simp only [line, level, String.toList_append]
        rfl
      rw [readTrace?, mark, List.drop_left' rfl]
      exact readColumns?_text offset name column

theorem line_binding (function argument : UInt64) (position : Position) (offset : UInt64) :
    line (.binding function argument position offset) =
      "DEBUG binding " ++ Hex.number argument.toNat ++ " as argument " ++
        toString position.index ++ " (" ++ position.register.name ++ ") of " ++
        Hex.number function.toNat ++ " at offset " ++ Hex.number offset.toNat := by
  have front : "DEBUG" ++ " " ++ "binding " = "DEBUG binding " := by decide
  simp only [line, level, Level.name, text_binding, ← String.append_assoc, front]

theorem traced?_append {lines more : List String} {xs ys : List (UInt64 × List UInt8)}
    (first : traced? lines = some xs) (second : traced? more = some ys) :
    traced? (lines ++ more) = some (xs ++ ys) := by
  rw [traced?] at first second ⊢
  rw [List.filter_append, List.mapM_append, first, second]
  rfl

/-- A log shows the instructions of its events, in order. -/
theorem traced?_lines {events : List Event} (short : ∀ e ∈ events, e.Short) :
    traced? (events.map line) = some (entries events) := by
  induction events with
  | nil => rfl
  | cons e rest ih =>
      have others := ih fun e h => short e (List.mem_cons_of_mem _ h)
      rw [traced?] at others ⊢
      rw [List.map_cons, List.filter_cons, isTrace_line]
      cases e with
      | binding => exact others
      | instruction offset bytes name =>
          have first := readTrace?_line rfl (short _ List.mem_cons_self)
          have shown : (shown? (.instruction offset bytes name)).isSome = true := rfl
          rw [if_pos shown, List.mapM_cons, first, others]
          rfl

end Event
end Prebind
