/-
The pieces that a text is cut into, by the text alone.

A piece is what one call of `GetToken` takes after the blanks; the end of a text
closes a number, a word or a string.  Words have no limit here.  The relation
`TokenStart` says at which places of a text the reading looks for a token.
-/

import AuthServer.ParserLines
import AuthServer.TokenLoops

set_option autoImplicit false

namespace AuthServer

open InputStream

def inString (c : UInt8) : Bool := decide (c ≠ 34 ∧ c ≠ 10)

inductive Piece : List UInt8 → List UInt8 → Prop where
  | mark {c : UInt8} {token : Token} (rest : List UInt8) (marks : punctuation c = some token) :
      Piece (c :: rest) rest
  | minus {next : UInt8} (rest : List UInt8) (alone : isDigit next = false) :
      Piece (45 :: next :: rest) (next :: rest)
  | number {sign more : List UInt8} {c : UInt8} (rest : List UInt8)
      (signed : sign = [] ∨ sign = [45]) (digit : isDigit c = true)
      (numeric : ∀ other ∈ more, isDigit other = true)
      (fits : sign.length + 1 + more.length ≤ maxTokenLen)
      (ends : (∀ next ∈ rest.head?, isDigit next = false) ∨
        sign.length + 1 + more.length = maxTokenLen) :
      Piece (sign ++ c :: (more ++ rest)) rest
  | quoted {text : List UInt8} (rest : List UInt8) (inside : ∀ c ∈ text, inString c = true)
      (fits : text.length ≤ maxTokenLen) : Piece (34 :: (text ++ 34 :: rest)) rest
  | lineEnd {text : List UInt8} (rest : List UInt8) (inside : ∀ c ∈ text, inString c = true)
      (fits : text.length ≤ maxTokenLen) : Piece (34 :: (text ++ 10 :: rest)) (10 :: rest)
  | cut {text : List UInt8} {c : UInt8} (rest : List UInt8)
      (inside : ∀ c ∈ text, inString c = true) (full : text.length = maxTokenLen)
      (other : inString c = true) : Piece (34 :: (text ++ c :: rest)) rest
  | unclosed {text : List UInt8} (inside : ∀ c ∈ text, inString c = true)
      (fits : text.length ≤ maxTokenLen) : Piece (34 :: text) []
  | word {c : UInt8} {more : List UInt8} (rest : List UInt8) (begins : beginsWord c = true)
      (goesOn : ∀ next ∈ more, continuesWord next = true)
      (ends : ∀ next ∈ rest.head?, continuesWord next = false) :
      Piece (c :: (more ++ rest)) rest

/-- The reading of the first text comes to the second one when it looks for a token. -/
inductive TokenStart : List UInt8 → List UInt8 → Prop where
  | here {blanks : List UInt8} (rest : List UInt8)
      (white : ∀ c ∈ blanks, isWhiteSpace c = true) : TokenStart (blanks ++ rest) rest
  | next {blanks text behind rest : List UInt8} (white : ∀ c ∈ blanks, isWhiteSpace c = true)
      (piece : Piece text behind) (later : TokenStart behind rest) :
      TokenStart (blanks ++ text) rest

theorem Piece.shorter {text rest : List UInt8} (piece : Piece text rest) :
    rest.length < text.length := by
  cases piece with
  | mark => exact Nat.lt_succ_self _
  | minus => exact Nat.lt_succ_self _
  | number =>
      simp only [List.length_append, List.length_cons]
      omega
  | quoted =>
      simp only [List.length_append, List.length_cons]
      omega
  | lineEnd =>
      simp only [List.length_append, List.length_cons]
      omega
  | cut =>
      simp only [List.length_append, List.length_cons]
      omega
  | unclosed => exact Nat.succ_pos _
  | word =>
      simp only [List.length_append, List.length_cons]
      omega

/-! ### What a call makes of a piece -/

/-- The stream still gives the text; at its end that may be known already. -/
def Ahead (stream : InputStream) (text : List UInt8) : Prop :=
  stream = ofText text ∨ text = [] ∧ stream = ended

theorem digitLoop_ahead (c : UInt8) (count : Nat) (more rest : List UInt8)
    (numeric : ∀ digit ∈ more, isDigit digit = true)
    (fits : count + 1 + more.length ≤ maxTokenLen)
    (ends : (∀ next ∈ rest.head?, isDigit next = false) ∨ count + 1 + more.length = maxTokenLen) :
    Ahead (digitLoop c count (more ++ rest)).2 rest := by
  cases rest with
  | cons next rest =>
      rw [digitLoop_digits c count more next rest numeric fits
        (ends.imp_left fun stopped => stopped next rfl)]
      exact Or.inl rfl
  | nil =>
      refine Or.inr ⟨rfl, ?_⟩
      clear ends
      rw [List.append_nil]
      induction more generalizing c count with
      | nil => rfl
      | cons digit more ih =>
          rw [List.length_cons] at fits
          rw [digitLoop, if_pos ⟨numeric digit List.mem_cons_self, by omega⟩]
          exact ih digit (count + 1)
            (fun other member => numeric other (List.mem_cons_of_mem digit member)) (by omega)

theorem wordLoop_ahead (c : UInt8) (more rest : List UInt8)
    (goesOn : ∀ other ∈ more, continuesWord other = true)
    (ends : ∀ next ∈ rest.head?, continuesWord next = false) :
    Ahead (wordLoop c (more ++ rest)).2 rest := by
  cases rest with
  | cons next rest =>
      rw [wordLoop_text c more next rest goesOn (ends next rfl)]
      exact Or.inl rfl
  | nil =>
      refine Or.inr ⟨rfl, ?_⟩
      rw [List.append_nil]
      induction more generalizing c with
      | nil => rfl
      | cons other more ih =>
          rw [wordLoop, if_pos (goesOn other List.mem_cons_self)]
          exact ih other fun later member => goesOn later (List.mem_cons_of_mem other member)

theorem quoteLoop_unclosed (count : Nat) (text : List UInt8)
    (inside : ∀ c ∈ text, inString c = true) (fits : count + text.length ≤ maxTokenLen) :
    (quoteLoop count text).2 = ended := by
  induction text generalizing count with
  | nil => rfl
  | cons c text ih =>
      have plain := of_decide_eq_true (inside c List.mem_cons_self)
      rw [List.length_cons] at fits
      rw [quoteLoop, if_neg plain.2, if_pos ⟨plain.1, by omega⟩]
      exact ih (count + 1) (fun other member => inside other (List.mem_cons_of_mem c member))
        (by omega)

theorem scanned_blanks (strOnly : Bool) (blanks text : List UInt8)
    (white : ∀ c ∈ blanks, isWhiteSpace c = true) :
    scanned strOnly (blanks ++ text) = scanned strOnly text := by
  induction blanks with
  | nil => rfl
  | cons c blanks ih =>
      have skipped : skipWhiteSpace (c :: (blanks ++ text)) = skipWhiteSpace (blanks ++ text) := by
        rw [skipWhiteSpace, if_pos (white c List.mem_cons_self)]
      rw [List.cons_append, scanned, skipped, ← scanned]
      exact ih fun other member => white other (List.mem_cons_of_mem c member)

section First

variable (strOnly : Bool) (c : UInt8) (rest : List UInt8)

theorem scanned_visible (visible : isWhiteSpace c = false) :
    scanned strOnly (c :: rest) = scannedFrom strOnly c rest := by
  rw [scanned, skipWhiteSpace, visible, if_neg Bool.false_ne_true]

theorem scanned_mark (token : Token) (marks : punctuation c = some token) :
    scanned strOnly (c :: rest) = (⟨token, none⟩, ofText rest) := by
  have visible : isWhiteSpace c = false := by
    rw [← Bool.not_eq_true]
    intro white
    rcases isWhiteSpace_cases c white with rfl | rfl | rfl <;> cases marks
  rw [scanned_visible strOnly c rest visible, scannedFrom, marks]

theorem scanned_minus : scanned strOnly (45 :: rest) = minusToken strOnly rest := by
  rw [scanned_visible strOnly 45 rest (isWhiteSpace_false 45 (by decide))]
  rfl

theorem scanned_quote :
    scanned strOnly (34 :: rest) = (⟨.word, some (quoteLoop 0 rest).1⟩, (quoteLoop 0 rest).2) := by
  rw [scanned_visible strOnly 34 rest (isWhiteSpace_false 34 (by decide))]
  rfl

theorem scanned_digit (digit : isDigit c = true) :
    scanned strOnly (c :: rest) = numberToken strOnly [] c rest := by
  obtain ⟨visible, noMark, noMinus⟩ := isDigit_apart c digit
  rw [scanned_visible strOnly c rest visible, scannedFrom, noMark]
  simp only [if_neg noMinus, if_pos digit]

theorem scanned_word (begins : beginsWord c = true) :
    scanned strOnly (c :: rest) = (⟨.word, some (wordLoop c rest).1⟩, (wordLoop c rest).2) := by
  obtain ⟨visible, noMark, noMinus, noDigit, noQuote⟩ := beginsWord_apart c begins
  rw [scanned_visible strOnly c rest visible, scannedFrom, noMark]
  simp only [if_neg noMinus, if_neg noDigit, if_neg noQuote, if_pos begins]

end First

theorem scanned_string (strOnly : Bool) (text rest : List UInt8) (next : UInt8)
    (inside : ∀ c ∈ text, inString c = true) (fits : text.length ≤ maxTokenLen)
    (ends : next = 34 ∨ next = 10 ∨ text.length = maxTokenLen) :
    scanned strOnly (34 :: (text ++ next :: rest)) =
      (⟨.word, some text⟩, if next = 10 then ofText (next :: rest) else ofText rest) := by
  have read := quoteLoop_text 0 text next rest
    (fun member => (of_decide_eq_true (inside 34 member)).1 rfl)
    (fun member => (of_decide_eq_true (inside 10 member)).2 rfl) (by omega)
    (ends.imp_right (Or.imp_right fun full => by omega))
  rw [scanned_quote, read]

/-- A call takes the piece. -/
theorem Piece.scanned {text rest : List UInt8} (piece : Piece text rest) (strOnly : Bool) :
    ∃ lexeme stream, scanned strOnly text = (lexeme, stream) ∧ lexeme.token ≠ .eof ∧
      Ahead stream rest := by
  cases piece with
  | mark _ marks =>
      exact ⟨_, _, scanned_mark strOnly _ rest _ marks, punctuation_going _ _ marks, Or.inl rfl⟩
  | minus more alone =>
      refine ⟨⟨.minus, none⟩, _, ?_, minus_going, Or.inl rfl⟩
      rw [scanned_minus, minusToken, alone, if_neg Bool.false_ne_true]
  | number _ signed digit numeric fits ends =>
      rename_i sign more c
      have behind := digitLoop_ahead c sign.length more rest numeric fits ends
      have going : (if strOnly then Token.word else Token.number) ≠ .eof := by
        cases strOnly with
        | true => exact word_going
        | false => exact fun impossible => by cases impossible
      rcases signed with rfl | rfl
      · rw [List.nil_append, scanned_digit strOnly c _ digit]
        exact ⟨_, _, rfl, going, behind⟩
      · rw [List.cons_append, List.nil_append, scanned_minus, minusToken, if_pos digit]
        exact ⟨_, _, rfl, going, behind⟩
  | quoted _ inside fits =>
      exact ⟨_, _, scanned_string strOnly _ rest 34 inside fits (Or.inl rfl), word_going,
        Or.inl rfl⟩
  | lineEnd more inside fits =>
      exact ⟨_, _, scanned_string strOnly _ more 10 inside fits (Or.inr (Or.inl rfl)), word_going,
        Or.inl rfl⟩
  | cut _ inside full other =>
      refine ⟨_, _, scanned_string strOnly _ rest _ inside (Nat.le_of_eq full)
        (Or.inr (Or.inr full)), word_going, Or.inl ?_⟩
      exact if_neg (of_decide_eq_true other).2
  | unclosed inside fits =>
      rename_i inner
      refine ⟨_, _, scanned_quote strOnly inner, word_going, Or.inr ⟨rfl, ?_⟩⟩
      exact quoteLoop_unclosed 0 inner inside (by omega)
  | word _ begins goesOn ends =>
      rename_i c more
      exact ⟨_, _, scanned_word strOnly c _ begins, word_going,
        wordLoop_ahead c more rest goesOn ends⟩

/-! ### Every text begins with a piece, or reading stops there -/

theorem span_room (p : UInt8 → Bool) (room : Nat) (text : List UInt8) :
    ∃ taken rest, text = taken ++ rest ∧ (∀ c ∈ taken, p c = true) ∧ taken.length ≤ room ∧
      ((∀ next ∈ rest.head?, p next = false) ∨ taken.length = room) := by
  induction text generalizing room with
  | nil =>
      refine ⟨[], [], rfl, List.forall_mem_nil _, Nat.zero_le _, Or.inl fun next member => ?_⟩
      cases member
  | cons c text ih =>
      cases room with
      | zero => exact ⟨[], c :: text, rfl, List.forall_mem_nil _, Nat.le_refl _, Or.inr rfl⟩
      | succ room =>
          cases holds : p c with
          | false =>
              refine ⟨[], c :: text, rfl, List.forall_mem_nil _, Nat.zero_le _, Or.inl ?_⟩
              intro next member
              cases member
              exact holds
          | true =>
              obtain ⟨taken, rest, rfl, all, fits, ends⟩ := ih room
              exact ⟨c :: taken, rest, rfl, List.forall_mem_cons.mpr ⟨holds, all⟩,
                Nat.succ_le_succ fits, ends.imp_right (congrArg Nat.succ)⟩

theorem number_piece (sign rest : List UInt8) (c : UInt8) (signed : sign = [] ∨ sign = [45])
    (digit : isDigit c = true) : ∃ behind, Piece (sign ++ c :: rest) behind := by
  have room : sign.length + 1 ≤ maxTokenLen := by
    rcases signed with rfl | rfl
    · decide
    · decide
  obtain ⟨more, behind, rfl, numeric, fits, ends⟩ :=
    span_room isDigit (maxTokenLen - (sign.length + 1)) rest
  exact ⟨behind, .number behind signed digit numeric (by omega)
    (ends.imp_right fun full => by omega)⟩

theorem string_piece (rest : List UInt8) : ∃ behind, Piece (34 :: rest) behind := by
  obtain ⟨text, behind, rfl, inside, fits, ends⟩ := span_room inString maxTokenLen rest
  cases behind with
  | nil =>
      rw [List.append_nil]
      exact ⟨[], .unclosed inside fits⟩
  | cons next behind =>
      cases other : inString next with
      | true =>
          rcases ends with stopped | full
          · rw [stopped next rfl] at other
            cases other
          · exact ⟨behind, .cut behind inside full other⟩
      | false =>
          by_cases quote : next = 34
          · exact ⟨behind, quote ▸ .quoted behind inside fits⟩
          · by_cases newLine : next = 10
            · exact ⟨10 :: behind, newLine ▸ .lineEnd behind inside fits⟩
            · exact absurd ⟨quote, newLine⟩ (of_decide_eq_false other)

theorem word_piece (c : UInt8) (rest : List UInt8) (begins : beginsWord c = true) :
    ∃ behind, Piece (c :: rest) behind := by
  obtain ⟨more, behind, rfl, goesOn, _, ends⟩ := span_room continuesWord rest.length rest
  refine ⟨behind, .word behind begins goesOn ?_⟩
  rcases ends with stopped | all
  · exact stopped
  · rw [List.length_append] at all
    have empty : behind = [] := List.eq_nil_of_length_eq_zero (by omega)
    rw [empty]
    intro next member
    cases member

theorem piece_cases (c : UInt8) (rest : List UInt8) (visible : isWhiteSpace c = false) :
    (∃ behind, Piece (c :: rest) behind) ∨ c :: rest = [45] ∨
      ∀ strOnly, (scanned strOnly (c :: rest)).1.token = .eof := by
  cases marks : punctuation c with
  | some token => exact Or.inl ⟨rest, .mark rest marks⟩
  | none =>
      by_cases minus : c = 45
      · subst minus
        cases rest with
        | nil => exact Or.inr (Or.inl rfl)
        | cons next rest =>
            cases digit : isDigit next with
            | true => exact Or.inl (number_piece [45] rest next (Or.inr rfl) digit)
            | false => exact Or.inl ⟨_, .minus rest digit⟩
      by_cases digit : isDigit c = true
      · exact Or.inl (number_piece [] rest c (Or.inl rfl) digit)
      by_cases quote : c = 34
      · exact Or.inl (quote ▸ string_piece rest)
      by_cases begins : beginsWord c = true
      · exact Or.inl (word_piece c rest begins)
      refine Or.inr (Or.inr fun strOnly => ?_)
      rw [scanned_visible strOnly c rest visible, scannedFrom, marks]
      simp only [if_neg minus, if_neg digit, if_neg quote, if_neg begins]

/-- A call takes a token off the text and leaves what is behind it. -/
structure TakenOff (strOnly : Bool) (text behind : List UInt8) (lexeme : Lexeme)
    (following : InputStream) : Prop where
  found : scanned strOnly text = (lexeme, following)
  going : lexeme.token ≠ .eof
  ahead : Ahead following behind
  shorter : behind.length < text.length
  starts : ∀ rest, TokenStart behind rest → TokenStart text rest

theorem Piece.taken {text behind : List UInt8} (piece : Piece text behind) (strOnly : Bool)
    (blanks : List UInt8) (white : ∀ c ∈ blanks, isWhiteSpace c = true) :
    ∃ lexeme following, TakenOff strOnly (blanks ++ text) behind lexeme following := by
  obtain ⟨lexeme, following, found, going, ahead⟩ := piece.scanned strOnly
  have shorter := piece.shorter
  refine ⟨lexeme, following, (scanned_blanks strOnly blanks text white).trans found, going, ahead,
    ?_, fun rest start => .next white piece start⟩
  rw [List.length_append]
  omega

/-- A call takes a token, or comes to a minus sign that is the last character, or finds
no token. -/
theorem taken_cases (strOnly : Bool) (text : List UInt8) :
    (∃ behind lexeme following, TakenOff strOnly text behind lexeme following) ∨
      TokenStart text [45] ∨ (scanned strOnly text).1.token = .eof := by
  obtain ⟨blanks, tail, rfl, white, _, ends⟩ := span_room isWhiteSpace text.length text
  cases tail with
  | nil =>
      refine Or.inr (Or.inr ?_)
      rw [scanned_blanks strOnly blanks [] white]
      rfl
  | cons c rest =>
      have visible : isWhiteSpace c = false := by
        rcases ends with stopped | all
        · exact stopped c rfl
        · rw [List.length_append, List.length_cons] at all
          omega
      rcases piece_cases c rest visible with ⟨behind, piece⟩ | minus | stopped
      · exact Or.inl ⟨behind, piece.taken strOnly blanks white⟩
      · exact Or.inr (Or.inl (minus ▸ .here [45] white))
      · refine Or.inr (Or.inr ?_)
        rw [scanned_blanks strOnly blanks _ white]
        exact stopped strOnly

end AuthServer
