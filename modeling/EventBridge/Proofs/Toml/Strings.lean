import EventBridge.Proofs.Result
import EventBridge.Proofs.Text.Digits
import EventBridge.Toml.Reader
import EventBridge.Toml.Writer

/-! # Reading back strings

  A string is written in one of several forms, and whichever it is, the string is read back.

  * `Spelled style block run text cs` says what a text inside its quotes stands for. The readers
    are shown to follow it, and both ways of writing, with escapes and without, are shown to be
    spellings. So the choice of a form matters only where a form needs something of the string.
  * In a string over several lines a run of quotes may end it. `Spelled.run_closes` is the key: the
    quotes at the front are too few to close the string, or they are the last of it.
-/

namespace EventBridge.Toml

open Text (hexadecimal)

variable {style : Style} {block : Bool} {run fuel : Nat} {text cs rest : List Char}

/-! ### Spellings -/

/-- Quotes in a row that do not close a string. -/
def quoteLimit (block : Bool) : Nat := if block then 2 else 0

/-- The characters that a text stands for inside the quotes of a style, behind `run` quotes in a
row. In a block a line feed stands for itself, and so do a few quotes. -/
inductive Spelled (style : Style) (block : Bool) : Nat → List Char → List Char → Prop where
  | done {run : Nat} : Spelled style block run [] []
  | quote {run : Nat} {text cs : List Char} : run < quoteLimit block →
    Spelled style block (run + 1) text cs →
    Spelled style block run (style.quote :: text) (style.quote :: cs)
  | plain {run : Nat} {c : Char} {text cs : List Char} : c ≠ style.quote →
    (style.escapes = true → c ≠ '\\') → inString c ∨ (block = true ∧ c = '\n') →
    Spelled style block 0 text cs → Spelled style block run (c :: text) (c :: cs)
  | escape {run : Nat} {c : Char} {text cs : List Char} (code : List Char) :
    style.escapes = true →
    (∀ rest, escaped? (code ++ rest) = some (c, rest)) →
    (∀ rest, hiddenBreak? (code ++ rest) = none) →
    Spelled style block 0 text cs → Spelled style block run ('\\' :: code ++ text) (c :: cs)

/-- A quote is an ordinary character outside its own strings. -/
structure Style.Regular (style : Style) : Prop where
  stands : inString style.quote = true
  ne_backslash : style.quote ≠ '\\'

/-- A character other than the backslash does not begin an escape. -/
theorem begins_no_escape {c : Char} (h : style.escapes = true → c ≠ '\\') :
    (style.escapes && c == '\\') = false := by
  cases hstyle : style.escapes with
  | false => rfl
  | true => simpa using h hstyle

/-! ### Strings on one line -/

/-- What is read of a string on one line is what its text stands for. -/
theorem lineString_spelled (hstyle : style.Regular) (h : Spelled style false run text cs)
    (hfuel : text.length < fuel) :
    lineString style fuel (text ++ style.quote :: rest) = .ok (cs, rest) := by
  induction h generalizing fuel with
  | done =>
    obtain ⟨fuel, rfl⟩ : ∃ f, fuel = f + 1 := ⟨fuel - 1, by omega⟩
    simp [lineString]
  | quote hrun => simp [quoteLimit] at hrun
  | @plain run c text cs hquote hbackslash hstands _ ih =>
    obtain ⟨fuel, rfl⟩ : ∃ f, fuel = f + 1 := ⟨fuel - 1, by simp at hfuel; omega⟩
    have hstands : inString c = true := by simpa using hstands
    simp [lineString, hquote, begins_no_escape hbackslash, hstands, ih (by simpa using hfuel)]
  | @escape run c text cs code hescapes hcode _ _ ih =>
    obtain ⟨fuel, rfl⟩ : ∃ f, fuel = f + 1 := ⟨fuel - 1, by simp at hfuel; omega⟩
    have hlength : text.length < fuel := by
      simp only [List.cons_append, List.length_cons, List.length_append] at hfuel
      omega
    simp [lineString, hstyle.ne_backslash.symm, hescapes, hcode, ih hlength]

/-! ### Strings over several lines -/

/-- The quotes at the front of a text. -/
def quotesAtFront (style : Style) (cs : List Char) : Nat :=
  (cs.takeWhile (· == style.quote)).length

/-- The three quotes that close a string over several lines. -/
def closing (style : Style) : List Char := List.replicate 3 style.quote

theorem quotesAtFront_of_ne {c : Char} (h : c ≠ style.quote) (cs : List Char) :
    quotesAtFront style (c :: cs) = 0 := by
  simp [quotesAtFront, h]

theorem quotesAtFront_quote (cs : List Char) :
    quotesAtFront style (style.quote :: cs) = quotesAtFront style cs + 1 := by
  simp [quotesAtFront]

/-- The quotes at the front are the last of the string, or too few to close it. -/
theorem Spelled.run_closes (hstyle : style.Regular) (h : Spelled style true run text cs)
    (rest : List Char) :
    (∃ k ≤ 2, text = List.replicate k style.quote ∧ cs = text) ∨
      quotesAtFront style (text ++ closing style ++ rest) ≤ 2 := by
  -- Quotes that went before count, too.
  suffices h : (∃ k ≤ 2 - run, text = List.replicate k style.quote ∧ cs = text) ∨
      quotesAtFront style (text ++ closing style ++ rest) ≤ 2 - run by
    rcases h with ⟨k, hk, htext⟩ | hfew
    · exact .inl ⟨k, by omega, htext⟩
    · exact .inr (by omega)
  induction h with
  | done => exact .inl ⟨0, by omega, rfl, rfl⟩
  | @quote run text cs hrun _ ih =>
    have hrun : run < 2 := hrun
    rcases ih with ⟨k, hk, rfl, rfl⟩ | hfew
    · exact .inl ⟨k + 1, by omega, rfl, rfl⟩
    · refine .inr ?_
      simp only [List.cons_append, quotesAtFront_quote]
      omega
  | plain hquote =>
    refine .inr ?_
    simp only [List.cons_append, quotesAtFront_of_ne hquote]
    omega
  | escape =>
    refine .inr ?_
    simp only [List.cons_append, quotesAtFront_of_ne hstyle.ne_backslash.symm]
    omega

/-- Quotes before the closing ones are read with them. -/
theorem blockString_closes {k : Nat} (hk : k ≤ 2) (hrest : rest.head? ≠ some style.quote) :
    blockString style (fuel + 1) (List.replicate k style.quote ++ closing style ++ rest) =
      .ok (List.replicate k style.quote, rest) := by
  have hrest' : rest.takeWhile (· == style.quote) = [] := by
    cases rest with
    | nil => rfl
    | cons c rest =>
      have hc : c ≠ style.quote := by simpa using hrest
      simp [hc]
  have hquotes : (List.replicate k style.quote ++ closing style ++ rest).takeWhile
      (· == style.quote) = List.replicate (k + 3) style.quote := by
    rw [closing, List.replicate_append_replicate, List.takeWhile_append_of_pos (by simp), hrest']
    simp
  have hdrop : (List.replicate k style.quote ++ closing style ++ rest).drop (k + 3) = rest := by
    rw [closing, List.replicate_append_replicate]
    exact List.drop_left' (by simp)
  have hkept : min (k + 3 - 3) 2 = k := by omega
  unfold blockString
  simp only [hquotes, List.length_replicate]
  rw [if_pos (by omega), hkept, hdrop]

theorem blockString_stands {c : Char} (hfew : quotesAtFront style (c :: rest) ≤ 2)
    (hescape : style.escapes = true → c ≠ '\\') (hstands : inString c) :
    blockString style (fuel + 1) (c :: rest) =
      (do let (ds, rest) ← blockString style fuel rest; return (c :: ds, rest)) := by
  have hfew : ¬3 ≤ quotesAtFront style (c :: rest) := by omega
  rw [blockString]
  simp only [quotesAtFront] at hfew
  simp [hfew, begins_no_escape hescape, hstands]

theorem blockString_newline (hquote : style.quote ≠ '\n') :
    blockString style (fuel + 1) ('\n' :: rest) =
      (do let (ds, rest) ← blockString style fuel rest; return ('\n' :: ds, rest)) := by
  have hfew : ¬3 ≤ quotesAtFront style ('\n' :: rest) := by
    rw [quotesAtFront_of_ne hquote.symm]
    omega
  rw [blockString]
  simp only [quotesAtFront] at hfew
  simp [hfew, inString, newline?]

theorem blockString_escape {c : Char} {code : List Char} (hquote : style.quote ≠ '\\')
    (hescapes : style.escapes = true) (hcode : escaped? (code ++ rest) = some (c, rest))
    (hshown : hiddenBreak? (code ++ rest) = none) :
    blockString style (fuel + 1) ('\\' :: (code ++ rest)) =
      (do let (ds, rest) ← blockString style fuel rest; return (c :: ds, rest)) := by
  have hfew : ¬3 ≤ quotesAtFront style ('\\' :: (code ++ rest)) := by
    rw [quotesAtFront_of_ne hquote.symm]
    omega
  rw [blockString]
  simp only [quotesAtFront] at hfew
  simp [hfew, hescapes, hcode, hshown]

/-- What is read of a string over several lines is what its text stands for. -/
theorem blockString_spelled (hstyle : style.Regular) (h : Spelled style true run text cs)
    (hrest : rest.head? ≠ some style.quote) (hfuel : text.length < fuel) :
    blockString style fuel (text ++ closing style ++ rest) = .ok (cs, rest) := by
  induction h generalizing fuel with
  | done =>
    obtain ⟨fuel, rfl⟩ : ∃ f, fuel = f + 1 := ⟨fuel - 1, by omega⟩
    exact blockString_closes (k := 0) (by omega) hrest
  | @quote run text cs hrun h ih =>
    obtain ⟨fuel, rfl⟩ : ∃ f, fuel = f + 1 := ⟨fuel - 1, by omega⟩
    have hread := ih (by simpa using hfuel)
    rcases (Spelled.quote hrun h).run_closes hstyle rest with ⟨k, hk, htext, hcs⟩ | hfew
    · -- Only quotes are left, and they are read together with the closing ones.
      rw [hcs, htext]
      exact blockString_closes hk hrest
    · -- The reader does not take the quote for a closing one.
      simp only [List.cons_append] at hfew ⊢
      rw [blockString_stands hfew (fun _ => hstyle.ne_backslash) hstyle.stands, hread]
      rfl
  | @plain run c text cs hquote hbackslash hstands _ ih =>
    obtain ⟨fuel, rfl⟩ : ∃ f, fuel = f + 1 := ⟨fuel - 1, by omega⟩
    have hread := ih (by simpa using hfuel)
    simp only [List.cons_append]
    rcases hstands with hstands | ⟨-, rfl⟩
    · have hfew : quotesAtFront style (c :: (text ++ closing style ++ rest)) ≤ 2 := by
        rw [quotesAtFront_of_ne hquote]
        omega
      rw [blockString_stands hfew hbackslash hstands, hread]
      rfl
    · rw [blockString_newline hquote.symm, hread]
      rfl
  | @escape run c text cs code hescapes hcode hshown _ ih =>
    obtain ⟨fuel, rfl⟩ : ∃ f, fuel = f + 1 := ⟨fuel - 1, by omega⟩
    have hlength : text.length < fuel := by
      simp only [List.cons_append, List.length_cons, List.length_append] at hfuel
      omega
    simp only [List.cons_append, List.append_assoc] at ih ⊢
    rw [blockString_escape hstyle.ne_backslash hescapes (hcode _) (hshown _), ih hlength]
    rfl

/-! ### Whole strings -/

theorem newline?_of_stands {c : Char} (h : inString c) (cs : List Char) :
    newline? (c :: cs) = none := by
  have hfeed : c ≠ '\n' := by
    rintro rfl
    exact absurd h (by decide)
  have hreturn : c ≠ '\r' := by
    rintro rfl
    exact absurd h (by decide)
  simp [newline?, hfeed, hreturn]

/-- Text that stands for no line feed does not begin with the end of a line. -/
theorem Spelled.newline?_eq_none (hstyle : style.Regular) (h : Spelled style block run text cs)
    (hcs : '\n' ∉ cs) (rest : List Char) : newline? (text ++ style.quote :: rest) = none := by
  cases h with
  | done => exact newline?_of_stands hstyle.stands _
  | quote => exact newline?_of_stands hstyle.stands _
  | @plain run c text cs _ _ hstands =>
    rcases hstands with hstands | ⟨-, rfl⟩
    · exact newline?_of_stands hstands _
    · simp at hcs
  | escape => exact newline?_of_stands (by decide) _

/-- Unless two more quotes follow the first one, the string is on one line. -/
theorem styledString_of_line {cs : List Char}
    (h : ∀ more, cs ≠ style.quote :: style.quote :: more) :
    styledString style cs =
      (do let (chars, rest) ← lineString style (cs.length + 1) cs
          return (String.ofList chars, rest)) := by
  unfold styledString
  split
  · next c d more =>
    have hquotes : ¬(c = style.quote ∧ d = style.quote) := by
      rintro ⟨rfl, rfl⟩
      exact h more rfl
    rw [if_neg hquotes]
  · rfl

/-- A string on one line is read behind its first quote. -/
theorem styledString_line (hstyle : style.Regular) (h : Spelled style false 0 text cs)
    (hrest : rest.head? ≠ some style.quote) :
    styledString style (text ++ style.quote :: rest) = .ok (String.ofList cs, rest) := by
  have hopen : ∀ more, text ++ style.quote :: rest ≠ style.quote :: style.quote :: more := by
    intro more heq
    cases h with
    | done => simp_all
    | quote hrun => simp [quoteLimit] at hrun
    | plain hquote => exact hquote (List.cons.inj heq).1
    | escape => exact hstyle.ne_backslash (List.cons.inj heq).1.symm
  have hread : lineString style ((text ++ style.quote :: rest).length + 1)
      (text ++ style.quote :: rest) = .ok (cs, rest) := by
    refine lineString_spelled hstyle h ?_
    simp only [List.length_append]
    omega
  rw [styledString_of_line hopen, hread]
  rfl

/-- A string over several lines is read behind its first quote. -/
theorem styledString_block (hstyle : style.Regular) (h : Spelled style true 0 text cs)
    (hrest : rest.head? ≠ some style.quote) {opening : List Char}
    (hopening : opening = ['\n'] ∨ (opening = [] ∧ '\n' ∉ cs)) :
    styledString style
        (style.quote :: style.quote :: (opening ++ (text ++ closing style ++ rest))) =
      .ok (String.ofList cs, rest) := by
  have hbegin : (newline? (opening ++ (text ++ closing style ++ rest))).getD
      (opening ++ (text ++ closing style ++ rest)) = text ++ closing style ++ rest := by
    rcases hopening with rfl | ⟨rfl, hcs⟩
    · rfl
    · have hnone := h.newline?_eq_none hstyle hcs
        (style.quote :: style.quote :: rest)
      simp only [closing, List.replicate, List.nil_append, List.append_assoc, List.cons_append]
      rw [hnone]
      rfl
  have hread : blockString style ((opening ++ (text ++ closing style ++ rest)).length + 1)
      (text ++ closing style ++ rest) = .ok (cs, rest) := by
    refine blockString_spelled hstyle h hrest ?_
    simp only [List.length_append]
    omega
  simp only [styledString, and_self, if_true, hbegin, hread, ok_bind]
  rfl

/-! ### Spellings without escapes -/

theorem run_le_longestRun (quote : Char) (run : Nat) (cs : List Char) :
    run ≤ longestRun quote run cs := by
  induction cs generalizing run with
  | nil => exact Nat.le_refl run
  | cons c cs ih =>
    unfold longestRun
    split
    · have := ih (run + 1)
      omega
    · omega

/-- Between single quotes a string spells itself, unless quotes in it would close it. -/
theorem spelled_literal (hclean : ∀ c ∈ cs, inString c ∨ (block = true ∧ c = '\n'))
    (hrun : longestRun '\'' run cs ≤ quoteLimit block) : Spelled literal block run cs cs := by
  induction cs generalizing run with
  | nil => exact .done
  | cons c cs ih =>
    have hcs : ∀ d ∈ cs, inString d ∨ (block = true ∧ d = '\n') :=
      fun d hd => hclean d (List.mem_cons_of_mem _ hd)
    unfold longestRun at hrun
    split at hrun
    · next hc =>
      have hle := run_le_longestRun '\'' (run + 1) cs
      rw [hc]
      exact .quote (by omega) (ih hcs hrun)
    · next hc =>
      exact .plain hc (fun h => nomatch h) (hclean c List.mem_cons_self) (ih hcs (by omega))

/-! ### Spellings with escapes -/

/-- The form of strings between double quotes. -/
def basicForm (block : Bool) : Form := if block then .blockBasic else .basic

theorem quotes_basicForm (block : Bool) : (basicForm block).quotes = quoteLimit block := by
  cases block <;> rfl

/-- The four digits of a control character. -/
def pointDigits (n : Nat) : List Char :=
  let digits := (hexadecimal n).map Char.toUpper
  List.replicate (4 - digits.length) '0' ++ digits

/-- The character of four digits. -/
def pointOf? : List Char → Option Char
  | [a, b, c, d] => (codePoint? 4 [a, b, c, d]).map (·.1)
  | _ => none

theorem pointOf?_pointDigits : ∀ n < 128, pointOf? (pointDigits n) = some (Char.ofNat n) := by
  decide

theorem escaped?_point {digits : List Char} {c : Char} (h : pointOf? digits = some c)
    (rest : List Char) : escaped? ('u' :: digits ++ rest) = some (c, rest) := by
  match digits, h with
  | [a, b, d, e], h =>
    show codePoint? 4 (a :: b :: d :: e :: rest) = some (c, rest)
    simp only [pointOf?, codePoint?] at h
    split at h
    · next hdigits =>
      obtain rfl := Option.some.inj h
      exact if_pos hdigits
    · simp at h

/-- Behind a backslash a letter is no line break. -/
theorem hiddenBreak?_of_not_blank {c : Char} (hspace : isSpace c = false) (hfeed : c ≠ '\n')
    (hreturn : c ≠ '\r') (cs : List Char) : hiddenBreak? (c :: cs) = none := by
  simp [hiddenBreak?, skipSpaces, hspace, newline?, hfeed, hreturn]

/-- A character that is no quote is spelled by its escape. -/
theorem spelled_escaped {c : Char} (hquote : c ≠ '\x22') (h : Spelled basic block 0 text cs) :
    Spelled basic block run (escaped (basicForm block) c ++ text) (c :: cs) := by
  have hletter : ∀ letter, isSpace letter = false → letter ≠ '\n' → letter ≠ '\r' →
      (∀ rest, escaped? (letter :: rest) = some (c, rest)) →
      Spelled basic block run (['\\', letter] ++ text) (c :: cs) := by
    intro letter hspace hfeed hreturn hcode
    exact .escape [letter] rfl hcode (hiddenBreak?_of_not_blank hspace hfeed hreturn) h
  -- The cases are those of `escaped`, in its order.
  unfold escaped
  split
  · next hc => subst hc; exact hletter 'b' rfl (by decide) (by decide) fun _ => rfl
  split
  · next hc => subst hc; exact hletter 't' rfl (by decide) (by decide) fun _ => rfl
  split
  · next hc =>
    subst hc
    -- In a block a line feed is written as it is.
    cases block with
    | true => exact .plain (by decide) (fun _ => by decide) (.inr ⟨rfl, rfl⟩) h
    | false => exact hletter 'n' rfl (by decide) (by decide) fun _ => rfl
  split
  · next hc => subst hc; exact hletter 'f' rfl (by decide) (by decide) fun _ => rfl
  split
  · next hc => subst hc; exact hletter 'r' rfl (by decide) (by decide) fun _ => rfl
  split
  · next hc => subst hc; exact hletter '\\' rfl (by decide) (by decide) fun _ => rfl
  split
  · -- Other control characters are written with four digits.
    next hcontrol =>
    have hlow : c.toNat < 128 := by
      rcases hcontrol with hlow | rfl
      · have hlow : c.toNat < 32 := hlow
        omega
      · decide
    have hpoint := pointOf?_pointDigits _ hlow
    rw [Char.ofNat_toNat] at hpoint
    exact .escape ('u' :: pointDigits c.toNat) rfl (escaped?_point hpoint)
      (fun _ => hiddenBreak?_of_not_blank rfl (by decide) (by decide) _) h
  · -- A character that stands for itself.
    next htab _ _ _ hbackslash hplain =>
    obtain ⟨hhigh, hdelete⟩ := not_or.1 hplain
    have hstands : inString c = true := by
      have hle : ' ' ≤ c := Char.not_lt.1 hhigh
      simp [inString, hle, hdelete]
    exact .plain hquote (fun _ => hbackslash) (.inl hstands) h

/-- A string with its escapes spells the string. -/
theorem spelled_escapedChars (block : Bool) (run : Nat) (cs : List Char) :
    Spelled basic block run (escapedChars (basicForm block) run cs) cs := by
  induction cs generalizing run with
  | nil => exact .done
  | cons c cs ih =>
    unfold escapedChars
    split
    · next hc =>
      subst hc
      split
      · exact .escape ['\x22'] rfl (fun _ => rfl) (fun _ => rfl) (ih 0)
      · next hrun =>
        rw [quotes_basicForm] at hrun
        exact .quote (by omega) (ih (run + 1))
    · next hc => exact spelled_escaped hc (ih 0)

/-! ### The text of a string -/

/-- Characters that are no control characters stand for themselves, line feeds in a block only. -/
theorem stands_of_control (h : (Content.of cs).control = false) :
    ∀ c ∈ cs, inString c ∨ c = '\n' := by
  intro c hc
  have hclean := List.any_eq_false.1 h c hc
  by_cases hfeed : c = '\n'
  · exact .inr hfeed
  · refine .inl ?_
    by_cases htab : c = '\t'
    · simp [inString, htab]
    · simpa [inString, hfeed, htab] using hclean

/-- What a form between single quotes asks of a string. -/
theorem form_literal {content : Content} (h : content.form = .literal) :
    content.control = false ∧ content.singles = 0 ∧ content.lineFeed = false := by
  unfold Content.form at h
  repeat' split at h
  all_goals simp_all

theorem form_blockLiteral {content : Content} (h : content.form = .blockLiteral) :
    content.control = false ∧ content.singles < 3 := by
  unfold Content.form at h
  repeat' split at h
  all_goals simp_all

/-- The styles that a writer has. -/
def Style.Written (style : Style) : Prop := style = basic ∨ style = literal

theorem Style.Written.regular (h : style.Written) : style.Regular := by
  rcases h with rfl | rfl
  · exact ⟨by decide, by decide⟩
  · exact ⟨by decide, by decide⟩

theorem Style.Written.ne_newline (h : style.Written) (rest : List Char) :
    ('\n' :: rest).head? ≠ some style.quote := by
  rcases h with rfl | rfl <;> simp [basic, literal]

/-- A quote opens a string of its style. -/
theorem scalar_styled (hstyle : style.Written) {value : String}
    (h : styledString style cs = .ok (value, rest)) :
    ∃ span, scalar (style.quote :: cs) = .ok (.string span value, rest) := by
  have hscalar : scalar (style.quote :: cs) = (do
      let read ← styledString style cs
      return (.string ⟨cs.length + 1, read.2.length⟩ read.1, read.2)) := by
    rcases hstyle with rfl | rfl
    · rfl
    · rfl
  exact ⟨⟨cs.length + 1, rest.length⟩, by rw [hscalar, h, ok_bind, pure_eq_ok]⟩

theorem scalar_line (hstyle : style.Written) {value : String}
    (h : Spelled style false 0 text value.toList) (rest : List Char) :
    ∃ span, scalar (style.quote :: text ++ [style.quote] ++ '\n' :: rest) =
      .ok (.string span value, '\n' :: rest) := by
  have hread := styledString_line hstyle.regular h (hstyle.ne_newline rest)
  rw [String.ofList_toList] at hread
  simpa using scalar_styled hstyle hread

theorem scalar_block (hstyle : style.Written) {value : String}
    (h : Spelled style true 0 text value.toList) {opening : List Char}
    (hopening : opening = ['\n'] ∨ (opening = [] ∧ '\n' ∉ value.toList)) (rest : List Char) :
    ∃ span, scalar (closing style ++ opening ++ text ++ closing style ++ '\n' :: rest) =
      .ok (.string span value, '\n' :: rest) := by
  have hread := styledString_block hstyle.regular h (hstyle.ne_newline rest) hopening
  rw [String.ofList_toList] at hread
  simpa [closing, List.replicate] using scalar_styled hstyle hread

/-- The line break that opens a block. -/
theorem opening_spec (cs : List Char) :
    let opening := if (Content.of cs).lineFeed then ['\n'] else []
    opening = ['\n'] ∨ (opening = [] ∧ '\n' ∉ cs) := by
  by_cases h : '\n' ∈ cs
  · simp [Content.of, h]
  · simp [Content.of, h]

/-- A string is read back from the text it is written as, in whichever form. -/
theorem scalar_stringText (value : String) (rest : List Char) :
    ∃ span, scalar ((stringText value).toList ++ '\n' :: rest) =
      .ok (.string span value, '\n' :: rest) := by
  have hopening := opening_spec value.toList
  unfold stringText
  simp only [String.toList_ofList]
  cases hform : (Content.of value.toList).form with
  | basic => exact scalar_line (.inl rfl) (spelled_escapedChars false 0 value.toList) rest
  | blockBasic =>
    exact scalar_block (.inl rfl) (spelled_escapedChars true 0 value.toList) hopening rest
  | literal =>
    obtain ⟨hcontrol, hsingles, hfeed⟩ := form_literal hform
    have hspelled : Spelled literal false 0 value.toList value.toList := by
      refine spelled_literal (fun c hc => .inl ?_) (Nat.le_of_eq hsingles)
      rcases stands_of_control hcontrol c hc with hstands | rfl
      · exact hstands
      · simp [Content.of, hc] at hfeed
    exact scalar_line (.inr rfl) hspelled rest
  | blockLiteral =>
    obtain ⟨hcontrol, hsingles⟩ := form_blockLiteral hform
    have hspelled : Spelled literal true 0 value.toList value.toList :=
      spelled_literal
        (fun c hc => (stands_of_control hcontrol c hc).imp_right fun hfeed => ⟨rfl, hfeed⟩)
        (Nat.le_of_lt_succ hsingles)
    exact scalar_block (.inr rfl) hspelled hopening rest

end EventBridge.Toml
