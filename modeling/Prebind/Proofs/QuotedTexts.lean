import Mathlib.Tactic.IntervalCases
import Prebind.Toml.Quoted
import Prebind.Toml.Written

/-!
A text that is written in quotes is read back as it was, whichever of the four forms it is written
in. In the forms with escapes this holds character by character. A run of quotes inside a text needs
a closer look where three quotes close it: neither form lets three of them come together, except
with those at the end.
-/

namespace Prebind
namespace Toml
namespace Quoted

/-! Escapes -/

theorem codePoint?_escape {n : Nat} (h : n < 0x20 ∨ n = 0x7F) :
    codePoint? ['0', '0', Nat.digitChar (n / 16), (Nat.digitChar (n % 16)).toUpper] =
      some (.ofNat n) := by
  obtain h | rfl := h
  · interval_cases n <;> rfl
  · rfl

/-- A scanner that gives back escaped characters, and plain ones other than quotes. -/
structure Unescapes (scan : Scanner (List Char)) : Prop where
  short : ∀ {x c : Char} (s : List Char), shortEscape? x = some c →
    scan ('\\' :: x :: s) = cons c (scan s)
  unicode : ∀ (a b c d : Char) (s : List Char),
    scan ('\\' :: 'u' :: a :: b :: c :: d :: s) =
      (codePoint? [a, b, c, d]).bind fun x => cons x (scan s)
  plain : ∀ {c : Char} (s : List Char), isPlain c = true → c ≠ '"' → c ≠ '\\' →
    scan (c :: s) = cons c (scan s)

theorem ne_of_plain {c d : Char} (plain : isPlain c = true) (control : isPlain d = false) :
    c ≠ d := by
  rintro rfl
  rw [plain] at control
  cases control

theorem isPlain_of_shown {c : Char} (control : ¬ (c.toNat < 0x20 ∨ c.toNat = 0x7F)) :
    isPlain c = true := by
  simp only [isPlain, Bool.or_eq_true, Bool.and_eq_true, decide_eq_true_eq]
  exact .inr (by omega)

theorem unescapes_basic : Unescapes basic where
  short s h := by
    unfold shortEscape? at h
    split at h <;> cases h <;> rfl
  unicode a b c d s := rfl
  plain {c} s plain quote slash := by
    rw [basic, if_pos ⟨plain, slash⟩]
    all_goals
      intros
      contradiction

theorem unescapes_basicLines : Unescapes (basicLines false) where
  short s h := by
    unfold shortEscape? at h
    split at h <;> cases h <;> rfl
  unicode a b c d s := rfl
  plain {c} s plain quote slash := by
    have feed : c ≠ '\n' := ne_of_plain plain rfl
    have carriage : c ≠ '\r' := ne_of_plain plain rfl
    rw [basicLines, if_neg (fun h => Bool.false_ne_true h.1), if_pos ⟨plain, slash⟩]
    all_goals
      intros
      contradiction

theorem Unescapes.escape {scan : Scanner (List Char)} (h : Unescapes scan) {c : Char}
    (quote : c ≠ '"') (s : List Char) : scan (Written.escape c ++ s) = cons c (scan s) := by
  unfold Written.escape
  split
  · next same => subst same; exact h.short s rfl
  split
  · next same => subst same; exact h.short s rfl
  split
  · next same => subst same; exact h.short s rfl
  split
  · next same => subst same; exact h.short s rfl
  split
  · next same => subst same; exact h.short s rfl
  split
  · next control =>
    have unicode := h.unicode '0' '0' (Nat.digitChar (c.toNat / 16))
      (Nat.digitChar (c.toNat % 16)).toUpper s
    rw [codePoint?_escape control, Char.ofNat_toNat] at unicode
    exact unicode
  · next slash control => exact h.plain s (isPlain_of_shown control) quote slash

theorem basic_escapeOneLine (c : Char) (s : List Char) :
    basic (Written.escapeOneLine c ++ s) = cons c (basic s) := by
  unfold Written.escapeOneLine
  split
  · next same => subst same; exact unescapes_basic.short s rfl
  split
  · next same => subst same; exact unescapes_basic.short s rfl
  · next quote => exact unescapes_basic.escape quote s

theorem basic_flatMap_escapeOneLine (s rest : List Char) :
    basic (s.flatMap Written.escapeOneLine ++ '"' :: rest) = some (s, rest) := by
  induction s with
  | nil => rfl
  | cons c s ih =>
      rw [List.flatMap_cons, List.append_assoc, basic_escapeOneLine, ih]
      rfl

/-! Runs of quotes -/

/-- A scanner of texts that three quotes close. A text may end with quotes of its own in front of
them; elsewhere, quotes are part of it as long as three do not come together. -/
structure Closes (quote : Char) (scan : Scanner (List Char)) : Prop where
  inside : ∀ {s : List Char}, ¬ [quote, quote] <+: s → scan (quote :: s) = cons quote (scan s)
  close : ∀ {s : List Char}, s.head? ≠ some quote →
    scan (quote :: quote :: quote :: s) = some ([], s)
  own_close : ∀ {s : List Char}, s.head? ≠ some quote →
    scan (quote :: quote :: quote :: quote :: s) = some ([quote], s)

theorem closes_basicLines : Closes '"' (basicLines false) where
  inside apart := by
    rw [basicLines]
    all_goals
      rintro rest rfl
      exact apart ⟨_, rfl⟩
  close done := by
    rw [basicLines]
    all_goals
      rintro rest rfl
      exact done rfl
  own_close done := by
    rw [basicLines]
    rintro rest rfl
    exact done rfl

theorem closes_literalLines : Closes '\'' literalLines where
  inside apart := by
    have plain : isPlain '\'' = true := rfl
    rw [literalLines, if_pos plain]
    · intro rest carriage
      exact absurd carriage (by decide)
    · exact fun feed => absurd feed (by decide)
    all_goals
      rintro rest - rfl
      exact apart ⟨_, rfl⟩
  close done := by
    rw [literalLines]
    all_goals
      rintro rest rfl
      exact done rfl
  own_close done := by
    rw [literalLines]
    rintro rest rfl
    exact done rfl

/-- What is written for a character starts with a backslash or with that character. -/
theorem escape_eq_cons (c : Char) :
    ∃ d s, Written.escape c = d :: s ∧ (d = '\\' ∨ (d = c ∧ isPlain c = true)) := by
  unfold Written.escape
  split
  · exact ⟨_, _, rfl, .inl rfl⟩
  split
  · exact ⟨_, _, rfl, .inl rfl⟩
  split
  · exact ⟨_, _, rfl, .inl rfl⟩
  split
  · exact ⟨_, _, rfl, .inl rfl⟩
  split
  · exact ⟨_, _, rfl, .inl rfl⟩
  split
  · exact ⟨_, _, rfl, .inl rfl⟩
  · next control => exact ⟨_, _, rfl, .inr ⟨rfl, isPlain_of_shown control⟩⟩

theorem escapeLines_eq_cons {run : Nat} {c : Char} (h : c ≠ '"' ∨ run = 2) (s : List Char) :
    ∃ d t, Written.escapeLines run (c :: s) = d :: t ∧ d ≠ '"' := by
  rw [Written.escapeLines]
  by_cases quote : c = '"'
  · have full : run = 2 := h.resolve_left fun other => other quote
    rw [if_pos quote, if_pos full]
    exact ⟨_, _, rfl, by decide⟩
  · rw [if_neg quote]
    by_cases feed : c = '\n'
    · rw [if_pos feed]
      exact ⟨_, _, rfl, by decide⟩
    · obtain ⟨d, t, first, slash | ⟨same, _⟩⟩ := escape_eq_cons c
      · rw [if_neg feed, first, slash]
        exact ⟨_, _, rfl, by decide⟩
      · rw [if_neg feed, first, same]
        exact ⟨_, _, rfl, quote⟩

/-- Behind a quote, two more come together only at the end of a text. -/
theorem ends_of_prefix {run : Nat} {s rest : List Char} (some : run = 1 ∨ run = 2)
    (h : ['"', '"'] <+: Written.escapeLines run s ++ '"' :: '"' :: '"' :: rest) :
    s = [] ∨ (run = 1 ∧ s = ['"']) := by
  cases s with
  | nil => exact .inl rfl
  | cons c s =>
      right
      by_cases first : c ≠ '"' ∨ run = 2
      · obtain ⟨d, t, written, other⟩ := escapeLines_eq_cons first s
        rw [written] at h
        exact absurd (List.cons_prefix_cons.1 h).1.symm other
      · obtain ⟨quote, notFull⟩ := not_or.1 first
        have quote : c = '"' := not_not.1 quote
        have one : run = 1 := by omega
        subst quote one
        cases s with
        | nil => exact ⟨rfl, rfl⟩
        | cons c s =>
            obtain ⟨d, t, written, other⟩ := escapeLines_eq_cons (c := c) (.inr rfl) s
            have split : Written.escapeLines 1 ('"' :: c :: s) =
              '"' :: Written.escapeLines 2 (c :: s) := rfl
            rw [split, written] at h
            exact absurd (List.cons_prefix_cons.1 (List.cons_prefix_cons.1 h).2).1.symm other

theorem basicLines_escapeLines {run : Nat} {s rest : List Char} (few : run ≤ 2)
    (done : rest.head? ≠ some '"') :
    basicLines false (Written.escapeLines run s ++ '"' :: '"' :: '"' :: rest) = some (s, rest) := by
  induction s generalizing run with
  | nil => exact closes_basicLines.close done
  | cons c s ih =>
      by_cases quote : c = '"'
      · subst quote
        by_cases full : run = 2
        · rw [Written.escapeLines, if_pos rfl, if_pos full]
          have escaped := unescapes_basicLines.short
            (Written.escapeLines 0 s ++ '"' :: '"' :: '"' :: rest) (x := '"') rfl
          rw [ih (Nat.zero_le 2)] at escaped
          exact escaped
        · rw [Written.escapeLines, if_pos rfl, if_neg full, List.cons_append]
          -- The scanner looks two characters ahead, across the end of the text.
          by_cases ends : ['"', '"'] <+:
              Written.escapeLines (run + 1) s ++ '"' :: '"' :: '"' :: rest
          · obtain rfl | ⟨one, rfl⟩ := ends_of_prefix (by omega) ends
            · exact closes_basicLines.own_close done
            · obtain rfl : run = 0 := by omega
              rfl
          · rw [closes_basicLines.inside ends, ih (by omega)]
            rfl
      · rw [Written.escapeLines, if_neg quote]
        by_cases feed : c = '\n'
        · subst feed
          have kept : basicLines false
              ('\n' :: (Written.escapeLines 0 s ++ '"' :: '"' :: '"' :: rest)) =
                cons '\n' (basicLines false _) := rfl
          rw [if_pos rfl, List.cons_append, kept, ih (Nat.zero_le 2)]
          rfl
        · rw [if_neg feed, List.append_assoc, unescapes_basicLines.escape quote,
            ih (Nat.zero_le 2)]
          rfl

/-! Texts without escapes -/

theorem literal_append {s : List Char} (plain : ∀ c ∈ s, isPlain c = true ∧ c ≠ '\'')
    (rest : List Char) : literal (s ++ '\'' :: rest) = some (s, rest) := by
  induction s with
  | nil => rfl
  | cons c s ih =>
      obtain ⟨shown, quote⟩ := plain c List.mem_cons_self
      rw [List.cons_append, literal, if_pos shown,
        ih fun c h => plain c (List.mem_cons_of_mem _ h)]
      · rfl
      · exact quote

theorem literalLines_plain {c : Char} (plain : isPlain c = true) (quote : c ≠ '\'')
    (s : List Char) : literalLines (c :: s) = cons c (literalLines s) := by
  have feed : c ≠ '\n' := ne_of_plain plain rfl
  have carriage : c ≠ '\r' := ne_of_plain plain rfl
  rw [literalLines, if_pos plain]
  all_goals
    intros
    contradiction

theorem le_longestRun (c : Char) (run : Nat) (s : List Char) :
    run ≤ Written.longestRun c run s := by
  induction s generalizing run with
  | nil => exact Nat.le_refl run
  | cons d s ih =>
      rw [Written.longestRun]
      split
      · exact Nat.le_of_succ_le (ih (run + 1))
      · exact Nat.le_max_left ..

/-- In a text without longer runs than two, two quotes behind another come together with those that
close the text. -/
theorem ends_of_few {run : Nat} {s rest : List Char}
    (few : Written.longestRun '\'' (run + 1) s ≤ 2)
    (h : ['\'', '\''] <+: s ++ '\'' :: '\'' :: '\'' :: rest) : s = [] ∨ s = ['\''] := by
  match s with
  | [] => exact .inl rfl
  | [c] =>
      obtain rfl := (List.cons_prefix_cons.1 h).1
      exact .inr rfl
  | c :: d :: s =>
      obtain ⟨rfl, second⟩ := List.cons_prefix_cons.1 h
      obtain rfl := (List.cons_prefix_cons.1 second).1
      have long := le_longestRun '\'' (run + 1 + 1 + 1) s
      simp only [Written.longestRun, if_true] at few
      omega

theorem literalLines_append {run : Nat} {s rest : List Char}
    (plain : ∀ c ∈ s, isPlain c = true ∨ c = '\n')
    (few : Written.longestRun '\'' run s ≤ 2) (done : rest.head? ≠ some '\'') :
    literalLines (s ++ '\'' :: '\'' :: '\'' :: rest) = some (s, rest) := by
  induction s generalizing run with
  | nil => exact closes_literalLines.close done
  | cons c s ih =>
      have others : ∀ c ∈ s, isPlain c = true ∨ c = '\n' :=
        fun c h => plain c (List.mem_cons_of_mem _ h)
      rw [Written.longestRun] at few
      rw [List.cons_append]
      by_cases quote : c = '\''
      · subst quote
        rw [if_pos rfl] at few
        -- As with double quotes, only that the limit on runs does what escapes do there.
        by_cases ends : ['\'', '\''] <+: s ++ '\'' :: '\'' :: '\'' :: rest
        · obtain rfl | rfl := ends_of_few few ends
          · exact closes_literalLines.own_close done
          · rfl
        · rw [closes_literalLines.inside ends, ih others few]
          rfl
      · rw [if_neg quote] at few
        have later := ih others (Nat.le_trans (Nat.le_max_right ..) few)
        obtain shown | rfl := plain c List.mem_cons_self
        · rw [literalLines_plain shown quote, later]
          rfl
        · have kept : literalLines ('\n' :: (s ++ '\'' :: '\'' :: '\'' :: rest)) =
              cons '\n' (literalLines _) := rfl
          rw [kept, later]
          rfl

/-! Any form -/

theorem dropNewline_of_plain {c : Char} (plain : isPlain c = true) (s : List Char) :
    dropNewline (c :: s) = c :: s := by
  rw [dropNewline, newline?]
  · rfl
  · intro rest feed
    exact ne_of_plain plain rfl (List.cons.inj feed).1
  · intro rest carriage
    exact ne_of_plain plain rfl (List.cons.inj carriage).1

/-- The line end that a text may open with is not part of it. -/
theorem dropNewline_opening {s t : List Char}
    (plain : '\n' ∉ s → ∃ c u, t = c :: u ∧ isPlain c = true) :
    dropNewline (Written.opening s ++ t) = t := by
  rw [Written.opening]
  by_cases feed : s.contains '\n' = true
  · rw [if_pos feed]
    rfl
  · rw [if_neg feed]
    obtain ⟨c, u, rfl, shown⟩ := plain fun h => feed (List.contains_iff_mem.2 h)
    exact dropNewline_of_plain shown u

theorem isPlain_of_not_control {c : Char} (control : Written.isControl c = false)
    (feed : c ≠ '\n') : isPlain c = true := by
  by_cases tab : c = '\t'
  · rw [tab]
    rfl
  · apply isPlain_of_shown
    rintro (low | delete)
    · simp [Written.isControl, low, tab, feed] at control
    · simp [Written.isControl, delete] at control

/-- No quote stands at the start of what follows a text. -/
def Done (rest : List Char) : Prop :=
  rest.head? ≠ some '"' ∧ rest.head? ≠ some '\''

theorem escapeOneLine_eq_cons (c : Char) :
    ∃ d s, Written.escapeOneLine c = d :: s ∧ d ≠ '"' := by
  unfold Written.escapeOneLine
  split
  · exact ⟨_, _, rfl, by decide⟩
  split
  · exact ⟨_, _, rfl, by decide⟩
  · next quote =>
    obtain ⟨d, s, first, slash | ⟨same, _⟩⟩ := escape_eq_cons c
    · exact ⟨d, s, first, slash ▸ by decide⟩
    · exact ⟨d, s, first, same ▸ quote⟩

theorem anyKind_of_basic {s : List Char} (apart : ¬ ['"', '"'] <+: s) :
    anyKind ('"' :: s) = basic s := by
  rw [anyKind]
  · rfl
  · rintro rest h
    cases h
    exact apart ⟨_, rfl⟩
  · rintro rest h
    cases h

theorem anyKind_of_literal {s : List Char} (apart : ¬ ['\'', '\''] <+: s) :
    anyKind ('\'' :: s) = literal s := by
  rw [anyKind]
  · rfl
  · rintro rest h
    cases h
  · rintro rest h
    cases h
    exact apart ⟨_, rfl⟩

theorem anyKind_basic {s rest : List Char} (done : Done rest) :
    anyKind (Written.inForm s .basic ++ rest) = some (s, rest) := by
  have shape : Written.inForm s .basic ++ rest =
      '"' :: (s.flatMap Written.escapeOneLine ++ '"' :: rest) := by
    simp [Written.inForm]
  rw [shape, anyKind_of_basic, basic_flatMap_escapeOneLine]
  intro h
  cases s with
  | nil =>
      obtain ⟨t, rfl⟩ := (List.cons_prefix_cons.1 h).2
      exact done.1 rfl
  | cons c s =>
      obtain ⟨d, t, first, other⟩ := escapeOneLine_eq_cons c
      rw [List.flatMap_cons, first] at h
      exact other (List.cons_prefix_cons.1 h).1.symm

theorem anyKind_literal {s rest : List Char} (plain : ∀ c ∈ s, isPlain c = true ∧ c ≠ '\'')
    (done : Done rest) : anyKind (Written.inForm s .literal ++ rest) = some (s, rest) := by
  have shape : Written.inForm s .literal ++ rest = '\'' :: (s ++ '\'' :: rest) := by
    simp [Written.inForm]
  rw [shape, anyKind_of_literal, literal_append plain]
  intro h
  cases s with
  | nil =>
      obtain ⟨t, rfl⟩ := (List.cons_prefix_cons.1 h).2
      exact done.2 rfl
  | cons c s => exact (plain c List.mem_cons_self).2 (List.cons_prefix_cons.1 h).1.symm

theorem anyKind_basicLines {s rest : List Char} (done : Done rest) :
    anyKind (Written.inForm s .basicLines ++ rest) = some (s, rest) := by
  have shape : Written.inForm s .basicLines ++ rest = '"' :: '"' :: '"' ::
      (Written.opening s ++ (Written.escapeLines 0 s ++ '"' :: '"' :: '"' :: rest)) := by
    simp [Written.inForm]
  have opened (t : List Char) :
      anyKind ('"' :: '"' :: '"' :: t) = basicLines false (dropNewline t) := rfl
  rw [shape, opened, dropNewline_opening, basicLines_escapeLines (Nat.zero_le 2) done.1]
  intro feed
  cases s with
  | nil => exact ⟨_, _, rfl, rfl⟩
  | cons c s =>
      have other : c ≠ '\n' := fun same => feed (same ▸ List.mem_cons_self)
      rw [Written.escapeLines]
      by_cases quote : c = '"'
      · rw [if_pos quote, if_neg (by decide)]
        exact ⟨_, _, rfl, rfl⟩
      · obtain ⟨d, t, first, slash | ⟨same, plain⟩⟩ := escape_eq_cons c
        · rw [if_neg quote, if_neg other, first, slash]
          exact ⟨_, _, rfl, rfl⟩
        · rw [if_neg quote, if_neg other, first, same]
          exact ⟨_, _, rfl, plain⟩

theorem anyKind_literalLines {s rest : List Char} (plain : ∀ c ∈ s, isPlain c = true ∨ c = '\n')
    (few : Written.longestRun '\'' 0 s ≤ 2) (done : Done rest) :
    anyKind (Written.inForm s .literalLines ++ rest) = some (s, rest) := by
  have shape : Written.inForm s .literalLines ++ rest = '\'' :: '\'' :: '\'' ::
      (Written.opening s ++ (s ++ '\'' :: '\'' :: '\'' :: rest)) := by
    simp [Written.inForm]
  have opened (t : List Char) :
      anyKind ('\'' :: '\'' :: '\'' :: t) = literalLines (dropNewline t) := rfl
  rw [shape, opened, dropNewline_opening, literalLines_append plain few done.2]
  intro feed
  cases s with
  | nil => exact ⟨_, _, rfl, rfl⟩
  | cons c s =>
      have other : c ≠ '\n' := fun same => feed (same ▸ List.mem_cons_self)
      exact ⟨_, _, rfl, (plain c List.mem_cons_self).resolve_right other⟩

/-- A text is read back from the form it was written in, whatever follows that is no quote. -/
theorem anyKind_quote (s : List Char) {rest : List Char} (done : Done rest) :
    anyKind (Written.quote s ++ rest) = some (s, rest) := by
  have shown (plain : (!s.any Written.isControl) = true) {c : Char} (h : c ∈ s) :
      c ≠ '\n' → isPlain c = true := by
    simp only [Bool.not_eq_true', List.any_eq_false] at plain
    exact isPlain_of_not_control (Bool.eq_false_of_not_eq_true (plain c h))
  rw [Written.quote, Written.form]
  split
  · exact anyKind_basic done
  split
  · next literal =>
    have absent {d : Char} (h : (!s.contains d) = true) : d ∉ s := by
      simpa using h
    simp only [Bool.and_eq_true] at literal
    obtain ⟨⟨plain, quote⟩, feed⟩ := literal
    refine anyKind_literal (fun c h => ⟨shown plain h ?_, ?_⟩) done
    · exact fun same => absent feed (same ▸ h)
    · exact fun same => absent quote (same ▸ h)
  split
  · exact anyKind_basicLines done
  split
  · next literal =>
    simp only [Bool.and_eq_true, decide_eq_true_eq] at literal
    obtain ⟨plain, few⟩ := literal
    refine anyKind_literalLines (fun c h => ?_) few done
    exact (eq_or_ne c '\n').symm.imp_left (shown plain h)
  split
  · exact anyKind_basic done
  · exact anyKind_basicLines done

end Quoted
end Toml
end Prebind
