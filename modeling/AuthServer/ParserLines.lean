/-
What `GetToken` makes of a text line by line.

No token reaches over the end of a line.  The relation below says which lexemes
a line has, by its text alone, and whether reading gets to the line's end, stops
at a character that begins no token, or meets a word that is too long for
`value`.
-/

import AuthServer.Parser
import AuthServer.Lib.CText

set_option autoImplicit false

namespace AuthServer

open InputStream

inductive Ending where
  | lineEnd
  | stopped
  | overrun
  deriving DecidableEq, Repr

inductive Reads : List UInt8 → List Lexeme → Ending → Prop where
  | done : Reads [] [] .lineEnd
  | blank {c : UInt8} {line : List UInt8} {lexemes : List Lexeme} {ending : Ending}
      (white : isWhiteSpace c = true) (behind : Reads line lexemes ending) :
      Reads (c :: line) lexemes ending
  | mark {c : UInt8} {token : Token} {line : List UInt8} {lexemes : List Lexeme}
      {ending : Ending} (marks : punctuation c = some token)
      (behind : Reads line lexemes ending) :
      Reads (c :: line) (⟨token, none⟩ :: lexemes) ending
  | minus {line : List UInt8} {lexemes : List Lexeme} {ending : Ending}
      (alone : ∀ next ∈ line.head?, isDigit next = false)
      (behind : Reads line lexemes ending) :
      Reads (45 :: line) (⟨.minus, none⟩ :: lexemes) ending
  | number {sign digits line : List UInt8} {lexemes : List Lexeme} {ending : Ending}
      (signed : sign = [] ∨ sign = [45]) (filled : digits ≠ [])
      (numeric : ∀ c ∈ digits, isDigit c = true)
      (fits : (sign ++ digits).length ≤ maxTokenLen)
      (ends : (∀ next ∈ line.head?, isDigit next = false) ∨
        (sign ++ digits).length = maxTokenLen)
      (behind : Reads line lexemes ending) :
      Reads (sign ++ digits ++ line) (⟨.word, some (sign ++ digits)⟩ :: lexemes) ending
  | quoted {text line : List UInt8} {lexemes : List Lexeme} {ending : Ending}
      (inside : 34 ∉ text) (fits : text.length ≤ maxTokenLen)
      (behind : Reads line lexemes ending) :
      Reads (34 :: (text ++ 34 :: line)) (⟨.word, some text⟩ :: lexemes) ending
  | unclosed {text : List UInt8} (inside : 34 ∉ text) (fits : text.length ≤ maxTokenLen) :
      Reads (34 :: text) [⟨.word, some text⟩] .lineEnd
  | cut {text line : List UInt8} {c : UInt8} {lexemes : List Lexeme} {ending : Ending}
      (inside : 34 ∉ text) (full : text.length = maxTokenLen) (other : c ≠ 34)
      (behind : Reads line lexemes ending) :
      Reads (34 :: (text ++ c :: line)) (⟨.word, some text⟩ :: lexemes) ending
  | word {c : UInt8} {more line : List UInt8} {lexemes : List Lexeme} {ending : Ending}
      (begins : beginsWord c = true) (goesOn : ∀ next ∈ more, continuesWord next = true)
      (fits : (c :: more).length ≤ maxTokenLen)
      (ends : ∀ next ∈ line.head?, continuesWord next = false)
      (behind : Reads line lexemes ending) :
      Reads (c :: (more ++ line)) (⟨.word, some (c :: more)⟩ :: lexemes) ending
  | overlong {c : UInt8} {more line : List UInt8}
      (begins : beginsWord c = true) (goesOn : ∀ next ∈ more, continuesWord next = true)
      (long : maxTokenLen < (c :: more).length)
      (ends : ∀ next ∈ line.head?, continuesWord next = false) :
      Reads (c :: (more ++ line)) [] .overrun
  | unexpected {c : UInt8} {line : List UInt8} (notWhite : isWhiteSpace c = false)
      (noMark : punctuation c = none) (noMinus : c ≠ 45) (noDigit : isDigit c = false)
      (noQuote : c ≠ 34) (noWord : beginsWord c = false) :
      Reads (c :: line) [] .stopped

/-! ### The loops on one token -/

theorem digitLoop_digits (c : UInt8) (count : Nat) (more : List UInt8) (next : UInt8)
    (rest : List UInt8) (numeric : ∀ digit ∈ more, isDigit digit = true)
    (fits : count + 1 + more.length ≤ maxTokenLen)
    (ends : isDigit next = false ∨ count + 1 + more.length = maxTokenLen) :
    digitLoop c count (more ++ next :: rest) = (c :: more, ofText (next :: rest)) := by
  induction more generalizing c count with
  | nil =>
      rw [List.nil_append, digitLoop, if_neg]
      rintro ⟨digit, room⟩
      rcases ends with other | full
      · rw [other] at digit
        cases digit
      · rw [List.length_nil] at full
        omega
  | cons digit more ih =>
      rw [List.length_cons] at fits ends
      have behind := ih digit (count + 1)
        (fun other member => numeric other (List.mem_cons_of_mem digit member))
        (by omega) (ends.imp_right fun full => by omega)
      rw [List.cons_append, digitLoop,
        if_pos ⟨numeric digit List.mem_cons_self, by omega⟩, behind]

theorem quoteLoop_text (count : Nat) (text : List UInt8) (next : UInt8) (rest : List UInt8)
    (inside : 34 ∉ text) (plain : 10 ∉ text) (fits : count + text.length ≤ maxTokenLen)
    (ends : next = 34 ∨ next = 10 ∨ count + text.length = maxTokenLen) :
    quoteLoop count (text ++ next :: rest) =
      (text, if next = 10 then ofText (next :: rest) else ofText rest) := by
  induction text generalizing count with
  | nil =>
      rw [List.nil_append, quoteLoop]
      by_cases newLine : next = 10
      · rw [if_pos newLine, if_pos newLine]
      · rw [if_neg newLine, if_neg newLine, if_neg]
        rintro ⟨noQuote, room⟩
        rcases ends with quote | atEnd | full
        · exact noQuote quote
        · exact newLine atEnd
        · rw [List.length_nil] at full
          omega
  | cons c text ih =>
      rw [List.length_cons] at fits ends
      have noQuote : c ≠ 34 := fun same => inside (same ▸ List.mem_cons_self)
      have noNewLine : c ≠ 10 := fun same => plain (same ▸ List.mem_cons_self)
      have behind := ih (count + 1) (fun member => inside (List.mem_cons_of_mem c member))
        (fun member => plain (List.mem_cons_of_mem c member)) (by omega)
        (ends.imp_right (Or.imp_right fun full => by omega))
      rw [List.cons_append, quoteLoop, if_neg noNewLine, if_pos ⟨noQuote, by omega⟩, behind]

theorem wordLoop_text (c : UInt8) (more : List UInt8) (next : UInt8) (rest : List UInt8)
    (goesOn : ∀ other ∈ more, continuesWord other = true)
    (ends : continuesWord next = false) :
    wordLoop c (more ++ next :: rest) = (c :: more, ofText (next :: rest)) := by
  induction more generalizing c with
  | nil => rw [List.nil_append, wordLoop, ends, if_neg Bool.false_ne_true]
  | cons other more ih =>
      have behind := ih other fun later member => goesOn later (List.mem_cons_of_mem other member)
      rw [List.cons_append, wordLoop, if_pos (goesOn other List.mem_cons_self), behind]

/-! ### Which kinds of characters there are -/

theorem isDigit_bounds (c : UInt8) (digit : isDigit c = true) : 48 ≤ c.toNat ∧ c.toNat ≤ 57 := by
  unfold isDigit at digit
  rw [decide_eq_true_iff, UInt8.le_iff_toNat_le, UInt8.le_iff_toNat_le] at digit
  exact digit

theorem beginsWord_bounds (c : UInt8) (begins : beginsWord c = true) :
    97 ≤ c.toNat ∧ c.toNat ≤ 122 ∨ 65 ≤ c.toNat ∧ c.toNat ≤ 90 ∨
      161 ≤ c.toNat ∧ c.toNat < 254 := by
  unfold beginsWord isAlpha at begins
  rw [Bool.or_eq_true, decide_eq_true_iff, decide_eq_true_iff] at begins
  simp only [UInt8.le_iff_toNat_le, UInt8.lt_iff_toNat_lt] at begins
  change (97 ≤ c.toNat ∧ c.toNat ≤ 122 ∨ 65 ≤ c.toNat ∧ c.toNat ≤ 90) ∨
    161 ≤ c.toNat ∧ c.toNat < 254 at begins
  omega

theorem isWhiteSpace_cases (c : UInt8) (white : isWhiteSpace c = true) :
    c = 32 ∨ c = 9 ∨ c = 13 := by
  unfold isWhiteSpace at white
  exact of_decide_eq_true white

theorem punctuation_none (c : UInt8)
    (apart : 48 ≤ c.toNat ∧ c.toNat ≤ 57 ∨ 65 ≤ c.toNat ∨ c.toNat = 34 ∨ c.toNat = 45) :
    punctuation c = none := by
  unfold punctuation
  split
  all_goals first
    | rfl
    | exact absurd apart (by decide)

theorem isWhiteSpace_false (c : UInt8) (high : 33 ≤ c.toNat) : isWhiteSpace c = false := by
  rw [← Bool.not_eq_true]
  intro white
  rcases isWhiteSpace_cases c white with rfl | rfl | rfl <;> exact absurd high (by decide)

theorem beginsWord_apart (c : UInt8) (begins : beginsWord c = true) :
    isWhiteSpace c = false ∧ punctuation c = none ∧ c ≠ 45 ∧ ¬ isDigit c = true ∧ c ≠ 34 := by
  have bounds := beginsWord_bounds c begins
  refine ⟨isWhiteSpace_false c (by omega), punctuation_none c (by omega), ?_, ?_, ?_⟩
  · rintro rfl
    exact absurd bounds (by decide)
  · intro digit
    have narrow := isDigit_bounds c digit
    omega
  · rintro rfl
    exact absurd bounds (by decide)

theorem isDigit_apart (c : UInt8) (digit : isDigit c = true) :
    isWhiteSpace c = false ∧ punctuation c = none ∧ c ≠ 45 := by
  have bounds := isDigit_bounds c digit
  refine ⟨isWhiteSpace_false c (by omega), punctuation_none c (by omega), ?_⟩
  rintro rfl
  exact absurd bounds.1 (by decide)

/-! ### One token -/

theorem getToken_first (c : UInt8) (rest : List UInt8) (visible : 33 ≤ c.toNat)
    (apart : 48 ≤ c.toNat ∧ c.toNat ≤ 57 ∨ 65 ≤ c.toNat ∨ c.toNat = 34 ∨ c.toNat = 45) :
    getToken (ofText (c :: rest)) true = tokenFrom true c rest := by
  have skipped : skipWhiteSpace (c :: rest) = some (c, rest) := by
    rw [skipWhiteSpace, isWhiteSpace_false c visible, if_neg Bool.false_ne_true]
  unfold getToken
  simp only [ofText, Bool.false_eq_true, if_false, skipped, punctuation_none c apart]

theorem getToken_blank (c : UInt8) (rest : List UInt8) (white : isWhiteSpace c = true) :
    getToken (ofText (c :: rest)) true = getToken (ofText rest) true := by
  have skipped : skipWhiteSpace (c :: rest) = skipWhiteSpace rest := by
    rw [skipWhiteSpace, if_pos white]
  unfold getToken
  simp only [ofText, Bool.false_eq_true, if_false, skipped]

theorem getToken_mark (c : UInt8) (token : Token) (rest : List UInt8)
    (marks : punctuation c = some token) :
    getToken (ofText (c :: rest)) true = .ok (⟨token, none⟩, ofText rest) := by
  have visible : isWhiteSpace c = false := by
    rw [← Bool.not_eq_true]
    intro white
    rcases isWhiteSpace_cases c white with rfl | rfl | rfl <;> cases marks
  have skipped : skipWhiteSpace (c :: rest) = some (c, rest) := by
    rw [skipWhiteSpace, visible, if_neg Bool.false_ne_true]
  unfold getToken
  simp only [ofText, Bool.false_eq_true, if_false, skipped, marks]

theorem getToken_minus (next : UInt8) (rest : List UInt8) (alone : isDigit next = false) :
    getToken (ofText (45 :: next :: rest)) true = .ok (⟨.minus, none⟩, ofText (next :: rest)) := by
  rw [getToken_first 45 _ (by decide) (by decide), tokenFrom, if_pos rfl, minusToken, alone,
    if_neg Bool.false_ne_true]

theorem getToken_number (sign digits : List UInt8) (next : UInt8) (rest : List UInt8)
    (signed : sign = [] ∨ sign = [45]) (filled : digits ≠ [])
    (numeric : ∀ c ∈ digits, isDigit c = true)
    (fits : (sign ++ digits).length ≤ maxTokenLen)
    (ends : isDigit next = false ∨ (sign ++ digits).length = maxTokenLen) :
    getToken (ofText (sign ++ digits ++ next :: rest)) true =
      .ok (⟨.word, some (sign ++ digits)⟩, ofText (next :: rest)) := by
  cases digits with
  | nil => exact absurd rfl filled
  | cons c more =>
      have digit := numeric c List.mem_cons_self
      have bounds := isDigit_bounds c digit
      have size : (sign ++ c :: more).length = sign.length + 1 + more.length := by
        rw [List.length_append, List.length_cons]
        omega
      rw [size] at fits ends
      have read := digitLoop_digits c sign.length more next rest
        (fun other member => numeric other (List.mem_cons_of_mem c member)) fits ends
      have taken : numberToken true sign c (more ++ next :: rest) =
          (⟨.word, some (sign ++ c :: more)⟩, ofText (next :: rest)) := by
        unfold numberToken
        rw [read]
        rfl
      rcases signed with rfl | rfl
      · have noMinus : c ≠ 45 := by
          rintro rfl
          exact absurd bounds.1 (by decide)
        rw [List.nil_append, List.cons_append, getToken_first c _ (by omega) (by omega),
          tokenFrom, if_neg noMinus, if_pos digit]
        exact congrArg Except.ok taken
      · rw [List.cons_append, List.nil_append, List.cons_append, List.cons_append,
          getToken_first 45 _ (by decide) (by decide), tokenFrom, if_pos rfl, minusToken,
          if_pos digit]
        exact congrArg Except.ok taken

theorem getToken_quoted (text : List UInt8) (next : UInt8) (rest : List UInt8)
    (inside : 34 ∉ text) (plain : 10 ∉ text) (fits : text.length ≤ maxTokenLen)
    (ends : next = 34 ∨ next = 10 ∨ text.length = maxTokenLen) :
    getToken (ofText (34 :: (text ++ next :: rest))) true =
      .ok (⟨.word, some text⟩, if next = 10 then ofText (next :: rest) else ofText rest) := by
  have read := quoteLoop_text 0 text next rest inside plain (by omega)
    (ends.imp_right (Or.imp_right fun full => by omega))
  rw [getToken_first 34 _ (by decide) (by decide), tokenFrom, if_neg (by decide),
    if_neg (by decide), if_pos rfl]
  simp only [read]

theorem getToken_word (c : UInt8) (more : List UInt8) (next : UInt8) (rest : List UInt8)
    (begins : beginsWord c = true) (goesOn : ∀ other ∈ more, continuesWord other = true)
    (ends : continuesWord next = false) :
    getToken (ofText (c :: (more ++ next :: rest))) true =
      if maxTokenLen < (c :: more).length then .error .overrun
      else .ok (⟨.word, some (c :: more)⟩, ofText (next :: rest)) := by
  have bounds := beginsWord_bounds c begins
  obtain ⟨_, _, noMinus, noDigit, noQuote⟩ := beginsWord_apart c begins
  rw [getToken_first c _ (by omega) (by omega), tokenFrom, if_neg noMinus, if_neg noDigit,
    if_neg noQuote, if_pos begins]
  simp only [wordLoop_text c more next rest goesOn ends]

theorem getToken_unexpected (c : UInt8) (rest : List UInt8) (notWhite : isWhiteSpace c = false)
    (noMark : punctuation c = none) (noMinus : c ≠ 45) (noDigit : isDigit c = false)
    (noQuote : c ≠ 34) (noWord : beginsWord c = false) :
    getToken (ofText (c :: rest)) true = .ok (⟨.eof, none⟩, ofText rest) := by
  have skipped : skipWhiteSpace (c :: rest) = some (c, rest) := by
    rw [skipWhiteSpace, notWhite, if_neg Bool.false_ne_true]
  unfold getToken
  simp only [ofText, Bool.false_eq_true, if_false, skipped, noMark, tokenFrom, noMinus,
    noDigit, noQuote, noWord]

/-! ### A whole line -/

theorem punctuation_going (c : UInt8) (token : Token) (marks : punctuation c = some token) :
    token ≠ .eof := by
  rintro rfl
  unfold punctuation at marks
  split at marks <;> cases marks

theorem word_going : Token.word ≠ .eof := by decide

theorem minus_going : Token.minus ≠ .eof := by decide

theorem behind_line (condition : UInt8 → Bool) (line rest : List UInt8)
    (ends : ∀ next ∈ line.head?, condition next = false) (newLine : condition 10 = false) :
    ∃ next more, line ++ 10 :: rest = next :: more ∧ condition next = false := by
  cases line with
  | nil => exact ⟨10, rest, rfl, newLine⟩
  | cons next line => exact ⟨next, line ++ 10 :: rest, rfl, ends next rfl⟩

section Loop

variable {State : Type} (body : State → Lexeme → Except Halt State)

def afterLine (rest : List UInt8) (state : State) : Ending → Except Halt State
  | .lineEnd => (body state ⟨.newLine, none⟩).bind fun next => tokenLoop body (ofText rest) next
  | .stopped => .ok state
  | .overrun => .error .overrun

theorem tokenLoop_lexeme (line rest : List UInt8) (lexeme : Lexeme) (lexemes : List Lexeme)
    (stream : InputStream) (ending : Ending) (state : State)
    (read : getToken stream true = .ok (lexeme, ofText (line ++ 10 :: rest)))
    (going : lexeme.token ≠ .eof)
    (behind : ∀ state, tokenLoop body (ofText (line ++ 10 :: rest)) state =
      (lexemes.foldlM body state).bind fun next => afterLine body rest next ending) :
    tokenLoop body stream state =
      ((lexeme :: lexemes).foldlM body state).bind fun next =>
        afterLine body rest next ending := by
  rw [tokenLoop_step body stream _ state lexeme read going, List.foldlM_cons]
  cases body state lexeme with
  | error halt => rfl
  | ok next => exact behind next

theorem tokenLoop_newLine (rest : List UInt8) (state : State) :
    tokenLoop body (ofText (10 :: rest)) state = afterLine body rest state .lineEnd :=
  tokenLoop_step body _ _ state _ (getToken_mark 10 .newLine rest rfl) (by decide)

/-- The loop goes through the lexemes of a line and then on to the next one,
unless it ends or runs into undefined behaviour in the line. -/
theorem tokenLoop_reads (line : List UInt8) (lexemes : List Lexeme) (ending : Ending)
    (reads : Reads line lexemes ending) (plain : 10 ∉ line) (rest : List UInt8)
    (state : State) :
    tokenLoop body (ofText (line ++ 10 :: rest)) state =
      (lexemes.foldlM body state).bind fun next => afterLine body rest next ending := by
  induction reads generalizing state with
  | done => exact tokenLoop_newLine body rest state
  | @blank c line lexemes ending white behind ih =>
      have same := getToken_blank c (line ++ 10 :: rest) white
      rw [List.cons_append, tokenLoop_congr body _ _ state same]
      exact ih (fun member => plain (List.mem_cons_of_mem c member)) state
  | @mark c token line lexemes ending marks behind ih =>
      exact tokenLoop_lexeme body line rest _ lexemes _ ending state
        (getToken_mark c token _ marks) (punctuation_going c token marks)
        (ih fun member => plain (List.mem_cons_of_mem c member))
  | @minus line lexemes ending alone behind ih =>
      obtain ⟨next, more, split, noDigit⟩ := behind_line isDigit line rest alone (by decide)
      apply tokenLoop_lexeme body line rest _ lexemes _ ending state _ minus_going
        (ih fun member => plain (List.mem_cons_of_mem 45 member))
      rw [List.cons_append, split]
      exact getToken_minus next more noDigit
  | @number sign digits line lexemes ending signed filled numeric fits ends behind ih =>
      apply tokenLoop_lexeme body line rest _ lexemes _ ending state _ word_going
        (ih fun member => plain (List.mem_append_right _ member))
      rw [List.append_assoc]
      rcases ends with apart | full
      · obtain ⟨next, more, split, noDigit⟩ := behind_line isDigit line rest apart (by decide)
        rw [split]
        exact getToken_number sign digits next more signed filled numeric fits (Or.inl noDigit)
      · obtain ⟨next, more, split, _⟩ :=
          behind_line (fun _ => false) line rest (fun _ _ => rfl) rfl
        rw [split]
        exact getToken_number sign digits next more signed filled numeric fits (Or.inr full)
  | @quoted text line lexemes ending inside fits behind ih =>
      have within : 10 ∉ text := fun member =>
        plain (List.mem_cons_of_mem 34 (List.mem_append_left _ member))
      apply tokenLoop_lexeme body line rest _ lexemes _ ending state _ word_going
        (ih fun member => plain (List.mem_cons_of_mem 34
          (List.mem_append_right _ (List.mem_cons_of_mem 34 member))))
      rw [List.cons_append, List.append_assoc, List.cons_append]
      exact getToken_quoted text 34 _ inside within fits (Or.inl rfl)
  | @unclosed text inside fits =>
      have within : 10 ∉ text := fun member => plain (List.mem_cons_of_mem 34 member)
      apply tokenLoop_lexeme body [] rest _ [] _ .lineEnd state _ word_going
        (tokenLoop_newLine body rest)
      rw [List.cons_append]
      exact getToken_quoted text 10 rest inside within fits (Or.inr (Or.inl rfl))
  | @cut text line c lexemes ending inside full other behind ih =>
      have within : 10 ∉ text := fun member =>
        plain (List.mem_cons_of_mem 34 (List.mem_append_left _ member))
      have noNewLine : c ≠ 10 := fun same =>
        plain (List.mem_cons_of_mem 34 (List.mem_append_right _ (same ▸ List.mem_cons_self)))
      apply tokenLoop_lexeme body line rest _ lexemes _ ending state _ word_going
        (ih fun member => plain (List.mem_cons_of_mem 34
          (List.mem_append_right _ (List.mem_cons_of_mem c member))))
      rw [List.cons_append, List.append_assoc, List.cons_append,
        getToken_quoted text c _ inside within (Nat.le_of_eq full) (Or.inr (Or.inr full)),
        if_neg noNewLine]
  | @word c more line lexemes ending begins goesOn fits ends behind ih =>
      obtain ⟨next, others, split, apart⟩ := behind_line continuesWord line rest ends (by decide)
      apply tokenLoop_lexeme body line rest _ lexemes _ ending state _ word_going
        (ih fun member => plain (List.mem_cons_of_mem c (List.mem_append_right _ member)))
      rw [List.cons_append, List.append_assoc, split,
        getToken_word c more next others begins goesOn apart, if_neg (Nat.not_lt_of_le fits)]
  | @overlong c more line begins goesOn long ends =>
      obtain ⟨next, others, split, apart⟩ := behind_line continuesWord line rest ends (by decide)
      apply tokenLoop_halt body
      rw [List.cons_append, List.append_assoc, split,
        getToken_word c more next others begins goesOn apart, if_pos long]
  | @unexpected c line notWhite noMark noMinus noDigit noQuote noWord =>
      exact tokenLoop_stop body _ _ state _
        (getToken_unexpected c _ notWhite noMark noMinus noDigit noQuote noWord) rfl

end Loop

/-! ### Every line can be read -/

theorem exists_span (condition : UInt8 → Bool) (limit : Nat) (line : List UInt8) :
    ∃ span rest, line = span ++ rest ∧ (∀ c ∈ span, condition c = true) ∧
      span.length ≤ limit ∧
      ((∀ next ∈ rest.head?, condition next = false) ∨ span.length = limit) := by
  induction line generalizing limit with
  | nil =>
      refine ⟨[], [], rfl, List.forall_mem_nil _, Nat.zero_le _, Or.inl ?_⟩
      intro next none
      cases none
  | cons c line ih =>
      cases limit with
      | zero => exact ⟨[], c :: line, rfl, List.forall_mem_nil _, Nat.le_refl _, Or.inr rfl⟩
      | succ limit =>
          cases meets : condition c with
          | false =>
              refine ⟨[], c :: line, rfl, List.forall_mem_nil _, Nat.zero_le _, Or.inl ?_⟩
              exact CText.head_cons _ c line meets
          | true =>
              obtain ⟨span, rest, rfl, all, within, ends⟩ := ih limit
              refine ⟨c :: span, rest, rfl, List.forall_mem_cons.mpr ⟨meets, all⟩,
                Nat.succ_le_succ within, ?_⟩
              exact ends.imp_right fun full => congrArg Nat.succ full

theorem exists_whole_span (condition : UInt8 → Bool) (line : List UInt8) :
    ∃ span rest, line = span ++ rest ∧ (∀ c ∈ span, condition c = true) ∧
      ∀ next ∈ rest.head?, condition next = false := by
  obtain ⟨span, rest, rfl, all, _, ends⟩ := exists_span condition (line.length + 1) line
  refine ⟨span, rest, rfl, all, ?_⟩
  rcases ends with apart | full
  · exact apart
  · rw [List.length_append] at full
    omega

theorem exists_numeral (sign : List UInt8) (c : UInt8) (line : List UInt8)
    (signed : sign = [] ∨ sign = [45]) (digit : isDigit c = true) :
    ∃ more rest, line = more ++ rest ∧ (∀ x ∈ c :: more, isDigit x = true) ∧
      (sign ++ c :: more).length ≤ maxTokenLen ∧
      ((∀ next ∈ rest.head?, isDigit next = false) ∨
        (sign ++ c :: more).length = maxTokenLen) := by
  have short : sign.length + 1 ≤ maxTokenLen := by
    rcases signed with rfl | rfl <;> decide
  obtain ⟨more, rest, rfl, numeric, within, ends⟩ :=
    exists_span isDigit (maxTokenLen - (sign.length + 1)) line
  have size : (sign ++ c :: more).length = sign.length + 1 + more.length := by
    rw [List.length_append, List.length_cons]
    omega
  refine ⟨more, rest, rfl, List.forall_mem_cons.mpr ⟨digit, numeric⟩, by omega, ?_⟩
  exact ends.imp_right fun full => by omega

section Total

variable {line : List UInt8}
  (shorter : ∀ rest : List UInt8, rest.length ≤ line.length →
    ∃ lexemes ending, Reads rest lexemes ending)

include shorter

theorem exists_reads_number (sign : List UInt8) (c : UInt8) (signed : sign = [] ∨ sign = [45])
    (digit : isDigit c = true) :
    ∃ lexemes ending, Reads (sign ++ c :: line) lexemes ending := by
  obtain ⟨more, rest, rfl, numeric, fits, ends⟩ := exists_numeral sign c line signed digit
  obtain ⟨lexemes, ending, behind⟩ := shorter rest (by rw [List.length_append]; omega)
  have reads := Reads.number signed (List.cons_ne_nil c more) numeric fits ends behind
  rw [List.append_assoc] at reads
  exact ⟨_, _, reads⟩

theorem exists_reads_minus : ∃ lexemes ending, Reads (45 :: line) lexemes ending := by
  by_cases alone : ∀ next ∈ line.head?, isDigit next = false
  · obtain ⟨lexemes, ending, behind⟩ := shorter line (Nat.le_refl _)
    exact ⟨_, _, .minus alone behind⟩
  · cases line with
    | nil =>
        refine absurd ?_ alone
        intro next none
        cases none
    | cons first line =>
        have digit : isDigit first = true := by
          by_contra other
          exact alone (CText.head_cons _ first line (Bool.not_eq_true _ |>.mp other))
        refine exists_reads_number (fun rest fits => ?_) [45] first (Or.inr rfl) digit
        exact shorter rest (Nat.le_succ_of_le fits)

theorem exists_reads_quoted : ∃ lexemes ending, Reads (34 :: line) lexemes ending := by
  obtain ⟨text, rest, rfl, inside, within, ends⟩ :=
    exists_span (fun x => decide (x ≠ 34)) maxTokenLen line
  have unquoted : 34 ∉ text := fun member => of_decide_eq_true (inside 34 member) rfl
  cases rest with
  | nil =>
      rw [List.append_nil]
      exact ⟨_, _, .unclosed unquoted within⟩
  | cons next rest =>
      obtain ⟨lexemes, ending, behind⟩ := shorter rest (by
        rw [List.length_append, List.length_cons]
        omega)
      by_cases closing : next = 34
      · subst closing
        exact ⟨_, _, .quoted unquoted within behind⟩
      · rcases ends with atQuote | full
        · exact absurd (of_decide_eq_false (atQuote next rfl)) (not_not.mpr closing)
        · exact ⟨_, _, .cut unquoted full closing behind⟩

theorem exists_reads_word (c : UInt8) (begins : beginsWord c = true) :
    ∃ lexemes ending, Reads (c :: line) lexemes ending := by
  obtain ⟨more, rest, rfl, goesOn, ends⟩ := exists_whole_span continuesWord line
  obtain ⟨lexemes, ending, behind⟩ := shorter rest (by rw [List.length_append]; omega)
  by_cases fits : (c :: more).length ≤ maxTokenLen
  · exact ⟨_, _, .word begins goesOn fits ends behind⟩
  · exact ⟨_, _, .overlong begins goesOn (Nat.lt_of_not_le fits) ends⟩

end Total

theorem reads_total (line : List UInt8) : ∃ lexemes ending, Reads line lexemes ending := by
  induction size : line.length using Nat.strongRecOn generalizing line with
  | ind length ih =>
      cases line with
      | nil => exact ⟨_, _, .done⟩
      | cons c line =>
          rw [List.length_cons] at size
          have shorter : ∀ rest : List UInt8, rest.length ≤ line.length →
              ∃ lexemes ending, Reads rest lexemes ending := fun rest less =>
            ih rest.length (by omega) rest rfl
          obtain ⟨lexemes, ending, behind⟩ := shorter line (Nat.le_refl _)
          by_cases white : isWhiteSpace c = true
          · exact ⟨_, _, .blank white behind⟩
          cases marks : punctuation c with
          | some token => exact ⟨_, _, .mark marks behind⟩
          | none =>
          by_cases minus : c = 45
          · subst minus
            exact exists_reads_minus shorter
          by_cases digit : isDigit c = true
          · exact exists_reads_number shorter [] c (Or.inl rfl) digit
          by_cases quote : c = 34
          · subst quote
            exact exists_reads_quoted shorter
          by_cases begins : beginsWord c = true
          · exact exists_reads_word shorter c begins
          · exact ⟨_, _, .unexpected (Bool.not_eq_true _ |>.mp white) marks minus
              (Bool.not_eq_true _ |>.mp digit) quote (Bool.not_eq_true _ |>.mp begins)⟩

end AuthServer
