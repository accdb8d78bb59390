import Prebind.Manifest.Reader
import Prebind.Manifest.Writer
import Prebind.Proofs.Numerals
import Prebind.Proofs.QuotedTexts

/-!
The lines of a manifest are read back as statements: a header that opens an entry, and four fields
with the values that were written. An address is read back from its text, and a position from its
digit.
-/

namespace Prebind

namespace Address

theorem significant_of_shown {s : List Char}
    (shown : ∀ c ∈ s, Text.isBlank c = false ∧ c ≠ '_') : significant s = s := by
  have kept {t : List Char} (blank : ∀ c ∈ t, Text.isBlank c = false) :
      t.dropWhile Text.isBlank = t := by
    cases t with
    | nil => rfl
    | cons c t =>
        apply List.dropWhile_cons_of_neg
        rw [blank c List.mem_cons_self]
        decide
  have trimmed : Text.trim s = s := by
    rw [Text.trim, kept fun c h => (shown c h).1, kept, List.reverse_reverse]
    exact fun c h => (shown c (List.mem_reverse.1 h)).1
  rw [significant, trimmed]
  exact List.filter_eq_self.2 fun c h => decide_eq_true (shown c h).2

theorem parse_render (address : UInt64) : parse (render address) = .ok address := by
  have text : (render address).toList = '0' :: 'x' :: Nat.toDigits 16 address.toNat :=
    String.toList_ofList
  have shown : ∀ c ∈ (render address).toList, Text.isBlank c = false ∧ c ≠ '_' := by
    have digits : ∀ d < 16, Text.isBlank d.digitChar = false ∧ d.digitChar ≠ '_' := by decide
    rw [text]
    intro c h
    obtain rfl | h := List.mem_cons.1 h
    · decide
    obtain rfl | h := List.mem_cons.1 h
    · decide
    obtain ⟨d, small, rfl⟩ := Numeral.exists_digit_of_mem_toDigits (by decide) h
    exact digits d small
  have split : splitRadix (significant (render address).toList) =
      (16, Nat.toDigits 16 address.toNat) := by
    rw [significant_of_shown shown, text]
    rfl
  rw [parse, split]
  dsimp only
  rw [Numeral.read_toDigits (by decide) (Nat.le_refl 16)]
  rfl

end Address

namespace Toml

/-! Values -/

theorem quote_eq_cons (s : List Char) :
    ∃ t, Written.quote s = '"' :: t ∨ Written.quote s = '\'' :: t := by
  rw [Written.quote]
  cases Written.form s with
  | basic | basicLines => exact ⟨_, .inl rfl⟩
  | literal | literalLines => exact ⟨_, .inr rfl⟩

theorem skipSpace_quote (s rest : List Char) :
    skipSpace (Written.quote s ++ rest) = Written.quote s ++ rest := by
  obtain ⟨t, first | first⟩ := quote_eq_cons s
  · rw [first]
    rfl
  · rw [first]
    rfl

theorem value_quote (depth : Nat) (s rest : List Char) :
    value depth (Written.quote s ++ '\n' :: rest) = some (.string (.ofList s), '\n' :: rest) := by
  have done : Quoted.Done ('\n' :: rest) := by
    constructor <;> simp
  have scanned : value depth (Written.quote s ++ '\n' :: rest) =
      (Quoted.anyKind (Written.quote s ++ '\n' :: rest)).bind fun r =>
        some (.string (.ofList r.1), r.2) := by
    obtain ⟨t, first | first⟩ := quote_eq_cons s
    · rw [first]
      cases depth <;> rfl
    · rw [first]
      cases depth <;> rfl
  rw [scanned, Quoted.anyKind_quote s done]
  rfl

theorem integer_index (p : Position) (rest : List Char) :
    Number.integer (Nat.toDigits 10 p.index ++ '\n' :: rest) =
      some (.integer p.index, '\n' :: rest) := by
  have whole : Number.whole (Nat.toDigits 10 p.index ++ '\n' :: rest) =
      some (Nat.toDigits 10 p.index, '\n' :: rest) := by
    cases p <;> rfl
  have unsigned : Number.integer (Nat.toDigits 10 p.index ++ '\n' :: rest) =
      (Number.whole (Nat.toDigits 10 p.index ++ '\n' :: rest)).bind fun r =>
        Number.checked (Number.value 10 r.1) r.2 := by
    cases p <;> rfl
  have counted : Number.value 10 (Nat.toDigits 10 p.index) = p.index := by
    cases p <;> rfl
  have fits : Number.fits p.index = true := by
    cases p <;> decide
  rw [unsigned, whole, Option.bind_some, counted]
  exact if_pos fits

/-- A single digit is neither the start of a date nor a float. -/
theorem value_index (depth : Nat) (p : Position) (rest : List Char) :
    value depth (Nat.toDigits 10 p.index ++ '\n' :: rest) =
      some (.integer p.index, '\n' :: rest) := by
  have noDate : DateTime.scan (Nat.toDigits 10 p.index ++ '\n' :: rest) = none := by
    cases p <;> rfl
  have noFloat : Number.float (Nat.toDigits 10 p.index ++ '\n' :: rest) = none := by
    cases p <;> rfl
  have scanned : value depth (Nat.toDigits 10 p.index ++ '\n' :: rest) =
      ((DateTime.scan (Nat.toDigits 10 p.index ++ '\n' :: rest)).or
        (Number.float (Nat.toDigits 10 p.index ++ '\n' :: rest))).or
        (Number.integer (Nat.toDigits 10 p.index ++ '\n' :: rest)) := by
    cases depth <;> cases p <;> rfl
  rw [scanned, noDate, noFloat, integer_index]
  rfl

/-! Lines -/

/-- A text is a document of these statements, as soon as there are steps enough to read it. -/
def Reads (s : List Char) (ss : List Statement) : Prop :=
  ∀ n, s.length < n → statements n s = some ss

theorem reads_nil : Reads [] [] := by
  intro n positive
  cases n with
  | zero => cases positive
  | succ n => rfl

theorem Reads.newline {s : List Char} {ss : List Statement} (h : Reads s ss) :
    Reads ('\n' :: s) ss := by
  intro n longer
  cases n with
  | zero => cases longer
  | succ n => exact h n (Nat.lt_of_succ_lt_succ longer)

/-- A line is read as its statement, unless a space, a comment or a line end is in front. -/
theorem Reads.cons {c : Char} {s rest : List Char} {first : Statement} {ss : List Statement}
    (space : isSpace c = false) (mark : c ≠ '#') (line : newline? (c :: s) = none)
    (read : statement (c :: s) = some (first, rest)) (shorter : rest.length ≤ s.length)
    (h : Reads rest ss) : Reads (c :: s) (first :: ss) := by
  intro n longer
  cases n with
  | zero => cases longer
  | succ n =>
      have later : statements n rest = some ss := by
        apply h
        rw [List.length_cons] at longer
        omega
      have start : skipSpace (c :: s) = c :: s := by
        apply List.dropWhile_cons_of_neg
        rw [space]
        decide
      rw [statements, start]
      split
      · next none => cases none
      · next rest same => exact absurd (List.cons.inj same).1 mark
      · rw [line]
        simp only [read, later, Option.bind_eq_bind, Option.bind_some]
        rfl

theorem Reads.header {rest : List Char} {ss : List Statement} (h : Reads rest ss) :
    ∃ keyMark mark, Reads ("[[trampoline]]\n".toList ++ rest)
      (.element ⟨[], ⟨"trampoline", keyMark⟩⟩ mark :: ss) := by
  have shorter : rest.length ≤ ("[trampoline]]\n".toList ++ rest).length := by
    rw [List.length_append]
    omega
  exact ⟨_, _, Reads.cons (c := '[') rfl (by decide) rfl rfl shorter h⟩

open Manifest (Field)

/-- A pair with a bare key, and the statement that it makes. -/
theorem statement_field (f : Field) {s rest : List Char} {v : Value}
    (read : value (depthLimit - 1) (skipSpace s) = some (v, '\n' :: rest)) :
    statement (f.key.toList ++ ' ' :: '=' :: ' ' :: s) =
      some (.field ⟨[], ⟨f.key, (f.key.toList ++ ' ' :: '=' :: ' ' :: s).length⟩⟩
        (skipSpace s).length v, rest) := by
  have paired : pair (value (depthLimit - 1)) (f.key.toList ++ ' ' :: '=' :: ' ' :: s) =
      (value (depthLimit - 1) (skipSpace s)).bind fun r =>
        some ((⟨[], ⟨f.key, (f.key.toList ++ ' ' :: '=' :: ' ' :: s).length⟩⟩,
          (skipSpace s).length, r.1), r.2) := by
    cases f <;> rfl
  have stated : statement (f.key.toList ++ ' ' :: '=' :: ' ' :: s) =
      (pair (value (depthLimit - 1)) (f.key.toList ++ ' ' :: '=' :: ' ' :: s)).bind fun r =>
        (endLine? r.2).map (.field r.1.1 r.1.2.1 r.1.2.2, ·) := by
    cases f <;> rfl
  rw [stated, paired, read]
  rfl

/-- The line of a field whose value is written in a way that it is read back from. -/
theorem Reads.field (f : Field) {written rest : List Char} {v : Value} {ss : List Statement}
    (start : skipSpace (written ++ '\n' :: rest) = written ++ '\n' :: rest)
    (read : value (depthLimit - 1) (written ++ '\n' :: rest) = some (v, '\n' :: rest))
    (h : Reads rest ss) :
    ∃ keyMark mark,
      Reads (f.key.toList ++ ' ' :: '=' :: ' ' :: (written ++ '\n' :: rest))
        (.field ⟨[], ⟨f.key, keyMark⟩⟩ mark v :: ss) := by
  have line := statement_field f (s := written ++ '\n' :: rest) (by rw [start, read])
  have opened : ∃ c s, f.key.toList = c :: s ∧ isSpace c = false ∧ c ≠ '#' ∧
      ∀ t, newline? (c :: t) = none := by
    cases f <;> exact ⟨_, _, rfl, rfl, by decide, fun _ => rfl⟩
  obtain ⟨c, s, first, space, mark, sameLine⟩ := opened
  rw [first, List.cons_append] at line ⊢
  refine ⟨_, _, Reads.cons space mark (sameLine _) line ?_ h⟩
  simp only [List.length_append, List.length_cons]
  omega

end Toml
end Prebind
