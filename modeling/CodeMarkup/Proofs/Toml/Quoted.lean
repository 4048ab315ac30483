import Mathlib.Tactic.SplitIfs
import CodeMarkup.Toml.Quoted

/-!
# Quoted strings are read back

A string is written in one of four forms.  Between quotation marks every character is read back, by
itself or from its escape; between apostrophes nothing is escaped, and the form is chosen only for
texts that need no escapes.  Between triple marks the text may hold marks of its own, one or two in
a row, and those that stand directly before the closing marks belong to the text.

* `CharForm` — how a character can be written between quotation marks; each form is read back.
* `ReadsMarks` — what a reader of triple marks does with marks in a row.
* `readBasic_writeBody`, `readLiteral_append`, `readBasicLines_writeBody`,
  `readLiteralLines_append` — the four readers, on what is written and whatever follows it.
* `read?_write` — a string is read back from the form that is chosen for it.
-/

namespace CodeMarkup

/-! ## Codes of characters -/

theorem hexDigit?_upperHexDigit {d : Nat} (h : d < 16) : hexDigit? (upperHexDigit d) = some d := by
  have hdigits : ∀ d < 16, hexDigit? (upperHexDigit d) = some d := by decide
  exact hdigits d h

theorem hexValue?_upperHexDigit {d : Nat} (h : d < 16) (value : Nat) (rest : List Char) :
    hexValue? value (upperHexDigit d :: rest) = hexValue? (16 * value + d) rest := by
  rw [hexValue?, hexDigit?_upperHexDigit h, Option.bind_some]

/-- The digits of a number below 65536 write this number. -/
theorem hexValue?_upperHex4 {n : Nat} (h : n < 65536) : hexValue? 0 (upperHex4 n) = some n := by
  have hlt (m : Nat) : m % 16 < 16 := Nat.mod_lt m (by decide)
  rw [upperHex4, hexValue?_upperHexDigit (hlt _), hexValue?_upperHexDigit (hlt _),
    hexValue?_upperHexDigit (hlt _), hexValue?_upperHexDigit (hlt _), hexValue?]
  congr 1
  omega

theorem scalar?_toNat (c : Char) : scalar? c.toNat = some c := by
  have hvalid : c.toNat.isValidChar := c.valid
  rw [scalar?, if_pos hvalid, Char.ofNat_toNat]

namespace Toml.Quoted

theorem coded?_upperHex4 {c : Char} (h : c.toNat < 65536) :
    coded? (upperHex4 c.toNat) = some c := by
  rw [coded?, hexValue?_upperHex4 h, Option.bind_some, scalar?_toNat]

/-- Only control characters need a code. -/
theorem lt_of_needsCode {c : Char} (h : needsCode c = true) : c.toNat < 65536 := by
  simp [needsCode] at h
  omega

/-- What needs no code can stand for itself. -/
theorem isTextChar_of_needsCode {c : Char} (h : needsCode c = false) (hline : c ≠ '\n') :
    isTextChar c = true := by
  by_cases htab : c = '\t'
  · simp [isTextChar, htab]
  · simpa [needsCode, isTextChar, htab, hline] using h

theorem ne_of_needsCode {c d : Char} (h : needsCode c = false) (hd : needsCode d = true) :
    c ≠ d := by
  rintro rfl
  simp [h] at hd

/-! ## Characters between quotation marks -/

/-- How a character can be written between quotation marks; `lines` says whether a line feed can
stand for itself. -/
inductive CharForm (lines : Bool) : Char → List Char → Prop
  /-- It stands for itself. -/
  | plain {c : Char} (htext : isTextChar c = true) (hquote : c ≠ '"') (hslash : c ≠ '\\') :
    CharForm lines c [c]
  /-- A letter stands for it. -/
  | escape {letter c : Char} (h : escaped? letter = some c) : CharForm lines c ['\\', letter]
  /-- Its code stands for it. -/
  | code {c : Char} (h : c.toNat < 65536) : CharForm lines c ('\\' :: 'u' :: upperHex4 c.toNat)
  /-- It is a line feed of a string with several lines. -/
  | lineFeed (h : lines = true) : CharForm lines '\n' ['\n']

/-- Every character but the mark is written in one of these forms. -/
theorem charForm_writeChar (lines : Bool) {c : Char} (hquote : c ≠ '"') :
    CharForm lines c (writeChar lines c) := by
  unfold writeChar
  split
  case h_3 =>
    cases lines with
    | false => exact .escape rfl
    | true => exact .lineFeed rfl
  case h_7 hb ht hline hf hreturn hslash =>
    by_cases hcode : needsCode c = true
    · rw [if_pos hcode]
      exact .code (lt_of_needsCode hcode)
    · rw [if_neg hcode]
      exact .plain (isTextChar_of_needsCode (by simpa using hcode) hline) hquote hslash
  all_goals exact .escape rfl

namespace CharForm

variable {lines : Bool} {c : Char} {form : List Char}

/-- A character is read back on one line. -/
theorem readBasic_append (h : CharForm false c form) (rest : List Char) :
    readBasic (form ++ rest) = push c (readBasic rest) := by
  cases h with
  | plain htext hquote hslash =>
    show readBasic (c :: rest) = _
    rw [readBasic]
    · simp [hslash, htext]
    all_goals simp_all
  | escape h =>
    unfold escaped? at h
    split at h <;> cases h <;> rfl
  | code h =>
    show (coded? (upperHex4 c.toNat)).bind (fun x => push x (readBasic rest)) = _
    rw [coded?_upperHex4 h, Option.bind_some]
  | lineFeed h => cases h

/-- A character is read back over several lines. -/
theorem readBasicLines_append (h : CharForm true c form) (rest : List Char) :
    readBasicLines false (form ++ rest) = push c (readBasicLines false rest) := by
  cases h with
  | plain htext hquote hslash =>
    have hline : c ≠ '\n' := by
      rintro rfl
      cases htext
    have hreturn : c ≠ '\r' := by
      rintro rfl
      cases htext
    show readBasicLines false (c :: rest) = _
    rw [readBasicLines]
    · simp [htext]
    all_goals simp_all
  | escape h =>
    unfold escaped? at h
    split at h <;> cases h <;> rfl
  | code h =>
    show (coded? (upperHex4 c.toNat)).bind (fun x => push x (readBasicLines false rest)) = _
    rw [coded?_upperHex4 h, Option.bind_some]
  | lineFeed => rfl

/-- A form begins neither with a mark nor with a line end that is not its own. -/
theorem eq_cons (h : CharForm lines c form) :
    ∃ d more, form = d :: more ∧ d ≠ '"' ∧ d ≠ '\r' ∧ (d = '\n' → c = '\n') := by
  cases h with
  | plain htext hquote hslash =>
    refine ⟨c, [], rfl, hquote, ?_, id⟩
    rintro rfl
    cases htext
  | escape | code => exact ⟨'\\', _, rfl, by decide, by decide, by simp⟩
  | lineFeed => exact ⟨'\n', [], rfl, by decide, by decide, fun _ => rfl⟩

end CharForm

/-! ## Strings on one line -/

@[simp] theorem push_some (c : Char) (text rest : List Char) :
    push c (some (text, rest)) = some (c :: text, rest) := rfl

/-- **A text between quotation marks is read back.** -/
theorem readBasic_writeBody (text rest : List Char) :
    readBasic (writeBody false 0 0 text ++ '"' :: rest) = some (text, rest) := by
  induction text with
  | nil => rfl
  | cons c text ih =>
    by_cases hquote : c = '"'
    · subst hquote
      show push '"' (readBasic (writeBody false 0 0 text ++ '"' :: rest)) = _
      rw [ih, push_some]
    · have hform := charForm_writeChar false hquote
      rw [writeBody, if_neg hquote, List.append_assoc, hform.readBasic_append, ih, push_some]

/-- A text between apostrophes is read back if it can stand there. -/
theorem readLiteral_append {text : List Char} (htext : ∀ c ∈ text, isTextChar c = true)
    (hmark : '\'' ∉ text) (rest : List Char) :
    readLiteral (text ++ '\'' :: rest) = some (text, rest) := by
  induction text with
  | nil => rfl
  | cons c text ih =>
    obtain ⟨hc, htext⟩ := List.forall_mem_cons.1 htext
    rw [List.mem_cons, not_or] at hmark
    rw [List.cons_append, readLiteral, if_pos hc, ih htext hmark.2, push_some]
    exact fun h => hmark.1 h.symm

/-! ## Marks in a row -/

/-- What a reader between triple marks does with marks in a row: up to two before something else are
characters, and of those before the closing ones up to two belong to the text. -/
structure ReadsMarks (mark : Char) (read : List Char → Option (List Char × List Char)) :
    Prop where
  /-- A mark is a character if no two marks follow it. -/
  one : ∀ rest, (∀ more, rest ≠ mark :: mark :: more) → read (mark :: rest) = push mark (read rest)
  /-- Three marks close, with up to two before them. -/
  close : ∀ rest, (∀ more, rest ≠ mark :: more) → ∀ extra ≤ 2,
    read (List.replicate extra mark ++ mark :: mark :: mark :: rest) =
      some (List.replicate extra mark, rest)

theorem readsMarks_readBasicLines : ReadsMarks '"' (readBasicLines false) where
  one rest h := by
    rw [readBasicLines]
    · simp [isSpace, isTextChar]
    all_goals simp_all
  close rest h extra hextra := by
    match extra, hextra with
    | 0, _ =>
      show readBasicLines false ('"' :: '"' :: '"' :: rest) = some ([], rest)
      rw [readBasicLines]
      all_goals simp_all
    | 1, _ =>
      show readBasicLines false ('"' :: '"' :: '"' :: '"' :: rest) = some (['"'], rest)
      rw [readBasicLines]
      all_goals simp_all
    | 2, _ => rfl

theorem readsMarks_readLiteralLines : ReadsMarks '\'' readLiteralLines where
  one rest h := by
    rw [readLiteralLines]
    · simp [isTextChar]
    all_goals simp_all
  close rest h extra hextra := by
    match extra, hextra with
    | 0, _ =>
      show readLiteralLines ('\'' :: '\'' :: '\'' :: rest) = some ([], rest)
      rw [readLiteralLines]
      all_goals simp_all
    | 1, _ =>
      show readLiteralLines ('\'' :: '\'' :: '\'' :: '\'' :: rest) = some (['\''], rest)
      rw [readLiteralLines]
      all_goals simp_all
    | 2, _ => rfl

namespace ReadsMarks

variable {mark : Char} {read : List Char → Option (List Char × List Char)}
  {text rest left : List Char}

/-- Up to two marks before something else are characters of the text. -/
theorem replicate (h : ReadsMarks mark read) {run : Nat} (hrun : run ≤ 2)
    (hhead : ∀ more, rest ≠ mark :: more) (hread : read rest = some (text, left)) :
    read (List.replicate run mark ++ rest) = some (List.replicate run mark ++ text, left) := by
  have hpair (more : List Char) : rest ≠ mark :: mark :: more := hhead _
  match run, hrun with
  | 0, _ => exact hread
  | 1, _ =>
    show read (mark :: rest) = some (mark :: text, left)
    rw [h.one rest hpair, hread, push_some]
  | 2, _ =>
    have hmark (more : List Char) : mark :: rest ≠ mark :: mark :: more := by
      simpa using hhead more
    show read (mark :: mark :: rest) = some (mark :: mark :: text, left)
    rw [h.one _ hmark, h.one rest hpair, hread, push_some, push_some]

end ReadsMarks

/-! ## Strings over several lines -/

/-- A mark behind a run of marks makes the run longer. -/
theorem replicate_append_cons (mark : Char) (run : Nat) (rest : List Char) :
    List.replicate run mark ++ mark :: rest = List.replicate (run + 1) mark ++ rest := by
  simp [List.replicate_succ']

/-- **A text between triple quotation marks is read back**, with `run` marks that stand directly
before it. -/
theorem readBasicLines_writeBody (text : List Char) {run : Nat} (hrun : run ≤ 2) {rest : List Char}
    (hrest : ∀ more, rest ≠ '"' :: more) :
    readBasicLines false
        (List.replicate run '"' ++ (writeBody true 2 run text ++ '"' :: '"' :: '"' :: rest)) =
      some (List.replicate run '"' ++ text, rest) := by
  induction text generalizing run with
  | nil => simpa [writeBody] using readsMarks_readBasicLines.close rest hrest run hrun
  | cons c text ih =>
    have hlater : readBasicLines false (writeBody true 2 0 text ++ '"' :: '"' :: '"' :: rest) =
        some (text, rest) := ih (Nat.zero_le 2)
    by_cases hquote : c = '"'
    · subst hquote
      by_cases hfull : 2 < run + 1
      · -- one more mark would close the string, so it is escaped
        rw [writeBody, if_pos rfl, if_pos hfull, List.append_assoc]
        apply readsMarks_readBasicLines.replicate hrun
        · simp
        · show push '"' (readBasicLines false
            (writeBody true 2 0 text ++ '"' :: '"' :: '"' :: rest)) = _
          rw [hlater, push_some]
      · rw [writeBody, if_pos rfl, if_neg hfull, List.cons_append, replicate_append_cons,
          replicate_append_cons]
        exact ih (by omega)
    · have hform := charForm_writeChar true hquote
      obtain ⟨d, more, hd, hne, -⟩ := hform.eq_cons
      rw [writeBody, if_neg hquote, List.append_assoc]
      apply readsMarks_readBasicLines.replicate hrun
      · simpa [hd] using hne
      · rw [hform.readBasicLines_append, hlater, push_some]

/-- The best run so far is kept. -/
theorem le_longestRun (mark : Char) (run best : Nat) (text : List Char) :
    best ≤ longestRun mark run best text := by
  induction text generalizing run best with
  | nil => exact Nat.le_refl best
  | cons c text ih =>
    rw [longestRun]
    split
    · exact Nat.le_trans (Nat.le_max_left _ _) (ih _ _)
    · exact ih _ _

theorem notMem_of_longestRun_eq_zero {mark : Char} {run : Nat} {text : List Char}
    (h : longestRun mark run 0 text = 0) : mark ∉ text := by
  induction text generalizing run with
  | nil => simp
  | cons c text ih =>
    rw [longestRun] at h
    split at h
    · have hle := le_longestRun mark (run + 1) (max 0 (run + 1)) text
      omega
    · rename_i hc
      intro hmem
      rcases List.mem_cons.1 hmem with heq | hmem
      · exact hc heq.symm
      · exact ih h hmem

theorem readLiteralLines_of_needsCode {c : Char} (hcode : needsCode c = false) (hmark : c ≠ '\'')
    (rest : List Char) : readLiteralLines (c :: rest) = push c (readLiteralLines rest) := by
  by_cases hline : c = '\n'
  · rw [hline]
    rfl
  · have hreturn := ne_of_needsCode hcode (d := '\r') (by decide)
    have htext := isTextChar_of_needsCode hcode hline
    rw [readLiteralLines]
    · simp [htext]
    all_goals simp_all

/-- A text between triple apostrophes is read back if it can stand there, with `run` apostrophes
that stand directly before it. -/
theorem readLiteralLines_append {text : List Char} (htext : ∀ c ∈ text, needsCode c = false)
    {run best : Nat} (hrun : run ≤ 2) (hlongest : longestRun '\'' run best text ≤ 2)
    {rest : List Char} (hrest : ∀ more, rest ≠ '\'' :: more) :
    readLiteralLines
        (List.replicate run '\'' ++ (text ++ '\'' :: '\'' :: '\'' :: rest)) =
      some (List.replicate run '\'' ++ text, rest) := by
  induction text generalizing run best with
  | nil => simpa using readsMarks_readLiteralLines.close rest hrest run hrun
  | cons c text ih =>
    obtain ⟨hc, hothers⟩ := List.forall_mem_cons.1 htext
    rw [longestRun] at hlongest
    by_cases hmark : c = '\''
    · subst hmark
      rw [if_pos rfl] at hlongest
      have hle := le_longestRun '\'' (run + 1) (max best (run + 1)) text
      rw [List.cons_append, replicate_append_cons, replicate_append_cons]
      exact ih hothers (by omega) hlongest
    · rw [if_neg hmark] at hlongest
      have hlater : readLiteralLines (text ++ '\'' :: '\'' :: '\'' :: rest) = some (text, rest) :=
        ih hothers (Nat.zero_le 2) hlongest
      apply readsMarks_readLiteralLines.replicate hrun
      · simpa using hmark
      · rw [List.cons_append, readLiteralLines_of_needsCode hc hmark, hlater, push_some]

/-! ## The form of a string -/

/-- A form can hold a text.  Between apostrophes nothing is escaped, so the text must not need it;
between quotation marks every text can stand. -/
def Style.Holds : Style → List Char → Prop
  | basic, _ => True
  | basicLines, _ => True
  | literal, text => (∀ c ∈ text, needsCode c = false) ∧ '\'' ∉ text ∧ '\n' ∉ text
  | literalLines, text => (∀ c ∈ text, needsCode c = false) ∧ longestRun '\'' 0 0 text ≤ 2

/-- The form that is chosen for a text can hold it. -/
theorem style_holds (text : List Char) : (style text).Holds text := by
  unfold style
  dsimp only
  split_ifs with hbasic hliteral hbasicLines hliteralLines hlines
  · trivial
  · simp only [Bool.and_eq_true, Bool.not_eq_true', beq_iff_eq] at hliteral
    obtain ⟨⟨hcode, hrun⟩, hlines⟩ := hliteral
    exact ⟨by simpa using hcode, notMem_of_longestRun_eq_zero hrun, by simpa using hlines⟩
  · trivial
  · simp only [Bool.and_eq_true, Bool.not_eq_true', decide_eq_true_eq] at hliteralLines
    exact ⟨by simpa using hliteralLines.1, hliteralLines.2⟩
  · trivial
  · trivial

/-- A plain text stands between quotation marks; marks and backslashes ask for other forms. -/
example : ["tok-", "a\"b", "'\"", "'\\"].map (fun text => style text.toList) =
    [.basic, .literal, .basicLines, .literalLines] := by decide

theorem read?_eq_readLine? {text : List Char} (hquote : ∀ more, text ≠ '"' :: '"' :: '"' :: more)
    (hmark : ∀ more, text ≠ '\'' :: '\'' :: '\'' :: more) : read? text = readLine? text := by
  rw [read?]
  · exact hquote
  · exact hmark

/-- The line end that stands before a text of several lines does not belong to it. -/
theorem dropLineEnd_opening {text body : List Char}
    (h : '\n' ∉ text → ∀ d more, body = d :: more → d ≠ '\n' ∧ d ≠ '\r') :
    dropLineEnd ((if text.contains '\n' then ['\n'] else []) ++ body) = body := by
  by_cases hline : '\n' ∈ text
  · simp [hline, dropLineEnd, lineEnd?]
  · have hnone : lineEnd? body = none := by
      unfold lineEnd?
      split
      · exact absurd rfl (h hline _ _ rfl).1
      · exact absurd rfl (h hline _ _ rfl).2
      · rfl
    simp [hline, dropLineEnd, hnone]

/-- What stands between quotation marks on one line begins with no mark of its own. -/
theorem writeBody_append_ne (text : List Char) {rest : List Char}
    (hquote : ∀ more, rest ≠ '"' :: more) (more : List Char) :
    writeBody false 0 0 text ++ '"' :: rest ≠ '"' :: '"' :: more := by
  cases text with
  | nil => simpa [writeBody] using hquote more
  | cons c text =>
    by_cases hc : c = '"'
    · simp [writeBody, hc]
    · obtain ⟨d, others, hd, hne, -⟩ := (charForm_writeChar false hc).eq_cons
      simp [writeBody, hc, hd, hne]

/-- What stands between triple quotation marks begins with no line end but its own. -/
theorem ne_of_writeBody_append_eq {text : List Char} (hline : '\n' ∉ text) {d : Char}
    {rest more : List Char} (h : writeBody true 2 0 text ++ '"' :: rest = d :: more) :
    d ≠ '\n' ∧ d ≠ '\r' := by
  cases text with
  | nil =>
    obtain ⟨rfl, -⟩ := List.cons.inj h
    decide
  | cons c text =>
    by_cases hc : c = '"'
    · subst hc
      obtain ⟨rfl, -⟩ := List.cons.inj h
      decide
    · obtain ⟨e, others, he, -, hreturn, hown⟩ := (charForm_writeChar true hc).eq_cons
      rw [writeBody, if_neg hc, he] at h
      obtain ⟨rfl, -⟩ := List.cons.inj h
      refine ⟨fun heq => hline ?_, hreturn⟩
      rw [← hown heq]
      exact List.mem_cons_self

/-- What stands between triple apostrophes begins with no line end but its own. -/
theorem ne_of_append_eq {text : List Char} (hcode : ∀ c ∈ text, needsCode c = false)
    (hline : '\n' ∉ text) {d : Char} {rest more : List Char}
    (h : text ++ '\'' :: rest = d :: more) : d ≠ '\n' ∧ d ≠ '\r' := by
  cases text with
  | nil =>
    obtain ⟨rfl, -⟩ := List.cons.inj h
    decide
  | cons c text =>
    obtain ⟨rfl, -⟩ := List.cons.inj h
    have hmem := List.mem_cons_self (a := c) (l := text)
    refine ⟨?_, ne_of_needsCode (hcode c hmem) (by decide)⟩
    rintro rfl
    exact hline hmem

/-- What stands between apostrophes on one line begins with no mark. -/
theorem append_apostrophe_ne {text rest : List Char} (happart : '\'' ∉ text)
    (hmark : ∀ more, rest ≠ '\'' :: more) (more : List Char) :
    text ++ '\'' :: rest ≠ '\'' :: '\'' :: more := by
  cases text with
  | nil => simpa using hmark more
  | cons c text =>
    have hc : c ≠ '\'' := by
      rintro rfl
      simp at happart
    simp [hc]

section

variable {text rest : List Char}

theorem read?_basic (hquote : ∀ more, rest ≠ '"' :: more) :
    read? (writeAs .basic text ++ rest) = some (text, rest) := by
  have hwritten : writeAs .basic text ++ rest =
      '"' :: (writeBody false 0 0 text ++ '"' :: rest) := by
    simp [writeAs]
  have hbody := writeBody_append_ne text hquote
  rw [hwritten, read?_eq_readLine? (by simpa using hbody) (by simp)]
  exact readBasic_writeBody text rest

theorem read?_literal (h : Style.literal.Holds text) (hmark : ∀ more, rest ≠ '\'' :: more) :
    read? (writeAs .literal text ++ rest) = some (text, rest) := by
  obtain ⟨hcode, happart, hline⟩ := h
  have htext : ∀ c ∈ text, isTextChar c = true := by
    intro c hc
    apply isTextChar_of_needsCode (hcode c hc)
    rintro rfl
    exact hline hc
  have hwritten : writeAs .literal text ++ rest = '\'' :: (text ++ '\'' :: rest) := by
    simp [writeAs]
  have hbody := append_apostrophe_ne happart hmark
  rw [hwritten, read?_eq_readLine? (by simp) (by simpa using hbody)]
  exact readLiteral_append htext happart rest

theorem read?_basicLines (hquote : ∀ more, rest ≠ '"' :: more) :
    read? (writeAs .basicLines text ++ rest) = some (text, rest) := by
  have hwritten : writeAs .basicLines text ++ rest = '"' :: '"' :: '"' ::
      ((if text.contains '\n' then ['\n'] else []) ++
        (writeBody true 2 0 text ++ '"' :: '"' :: '"' :: rest)) := by
    simp [writeAs]
  rw [hwritten, read?, dropLineEnd_opening]
  · simpa using readBasicLines_writeBody text (Nat.zero_le 2) hquote
  · intro hline d more hd
    exact ne_of_writeBody_append_eq hline hd

theorem read?_literalLines (h : Style.literalLines.Holds text)
    (hmark : ∀ more, rest ≠ '\'' :: more) :
    read? (writeAs .literalLines text ++ rest) = some (text, rest) := by
  obtain ⟨hcode, hrun⟩ := h
  have hwritten : writeAs .literalLines text ++ rest = '\'' :: '\'' :: '\'' ::
      ((if text.contains '\n' then ['\n'] else []) ++
        (text ++ '\'' :: '\'' :: '\'' :: rest)) := by
    simp [writeAs]
  rw [hwritten, read?, dropLineEnd_opening]
  · simpa using readLiteralLines_append hcode (Nat.zero_le 2) hrun hmark
  · intro hline d more hd
    exact ne_of_append_eq hcode hline hd

/-- **A string is read back from every form that can hold it**, whatever follows but a mark. -/
theorem read?_writeAs {form : Style} (h : form.Holds text) (hquote : ∀ more, rest ≠ '"' :: more)
    (hmark : ∀ more, rest ≠ '\'' :: more) :
    read? (writeAs form text ++ rest) = some (text, rest) := by
  cases form with
  | basic => exact read?_basic hquote
  | literal => exact read?_literal h hmark
  | basicLines => exact read?_basicLines hquote
  | literalLines => exact read?_literalLines h hmark

end

/-- A string is read back as it was written. -/
theorem read?_write (text : List Char) {rest : List Char} (hquote : ∀ more, rest ≠ '"' :: more)
    (hmark : ∀ more, rest ≠ '\'' :: more) : read? (write text ++ rest) = some (text, rest) :=
  read?_writeAs (style_holds text) hquote hmark

end Toml.Quoted

end CodeMarkup
