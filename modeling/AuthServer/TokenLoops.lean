/-
`GetToken` on any stream, good or not.

A read that fails leaves `c` as it was, at the first read without a value of its
own: `garbage` below.  Putting back forgets the end of the stream but not the
failure.  Some loops then never end, so they are cut off after `fuel` turns;
`stored` are the bytes that were written to `value` up to there.

`rest` are the characters that `>>` gives, so a stream that skips blanks is one
without them, and a stream that is bad is one that has failed.
-/

import AuthServer.Parser

set_option autoImplicit false

namespace AuthServer

open InputStream

/-- What came of a call: the bytes written to `value`, and the token with the
stream behind it when the call has ended. -/
structure Scan where
  stored : List UInt8
  result : Option (Token × InputStream)
  deriving DecidableEq, Repr

def storeLoop (more : UInt8 → Nat → Bool) :
    Nat → InputStream → UInt8 → Nat → List UInt8 × Option (InputStream × UInt8)
  | 0, _, _, _ => ([], none)
  | fuel + 1, stream, c, count =>
      let read := stream.extract c
      if more read.2 (count + 1) = true ∧ read.1.eof = false then
        let behind := storeLoop more fuel read.1 read.2 (count + 1)
        (c :: behind.1, behind.2)
      else ([c], some read)

def moreBlanks (c : UInt8) (_ : Nat) : Bool := isWhiteSpace c

def moreDigits (c : UInt8) (count : Nat) : Bool := isDigit c && decide (count < maxTokenLen)

def moreString (c : UInt8) (count : Nat) : Bool :=
  decide (c ≠ 34 ∧ c ≠ 10) && decide (count < maxTokenLen)

def moreLetters (c : UInt8) (_ : Nat) : Bool := continuesWord c

def skipLoop (fuel : Nat) (stream : InputStream) (c : UInt8) : Option (InputStream × UInt8) :=
  (storeLoop moreBlanks fuel stream c 0).2

def restoreUnlessEof (stream : InputStream) (c : UInt8) : InputStream :=
  if stream.eof then stream else stream.putback c

def restoreNewLine (stream : InputStream) (c : UInt8) : InputStream :=
  if c = 10 then stream.putback c else stream

def closeToken (token : Token) (restore : InputStream → UInt8 → InputStream)
    (before : List UInt8) (loop : List UInt8 × Option (InputStream × UInt8)) : Scan :=
  match loop.2 with
  | none => ⟨before ++ loop.1, none⟩
  | some read => ⟨before ++ loop.1 ++ [0], some (token, restore read.1 read.2)⟩

def scanNumber (fuel : Nat) (stream : InputStream) (strOnly : Bool) (sign : List UInt8)
    (c : UInt8) : Scan :=
  closeToken (if strOnly then .word else .number) restoreUnlessEof sign
    (storeLoop moreDigits fuel stream c sign.length)

def scanString (fuel : Nat) (stream : InputStream) : Scan :=
  let read := stream.extract 34
  closeToken .word restoreNewLine []
    (if moreString read.2 0 = true ∧ read.1.eof = false then
      storeLoop moreString fuel read.1 read.2 0
    else ([], some read))

def scanWord (fuel : Nat) (stream : InputStream) (c : UInt8) : Scan :=
  closeToken .word restoreUnlessEof [] (storeLoop moreLetters fuel stream c 0)

def scanMinus (fuel : Nat) (stream : InputStream) (strOnly : Bool) : Scan :=
  let read := stream.extract 45
  if isDigit read.2 then scanNumber fuel read.1 strOnly [45] read.2
  else ⟨[], some (.minus, read.1.putback read.2)⟩

def scanFrom (fuel : Nat) (stream : InputStream) (strOnly : Bool) (c : UInt8) : Scan :=
  match punctuation c with
  | some token => ⟨[], some (token, stream)⟩
  | none =>
      if c = 45 then scanMinus fuel stream strOnly
      else if isDigit c then scanNumber fuel stream strOnly [] c
      else if c = 34 then scanString fuel stream
      else if beginsWord c then scanWord fuel stream c
      else ⟨[], some (.eof, stream)⟩

def scanToken (fuel : Nat) (garbage : UInt8) (stream : InputStream) (strOnly : Bool) : Scan :=
  if stream.eof then ⟨[], some (.eof, stream)⟩
  else
    match skipLoop fuel stream garbage with
    | none => ⟨[], none⟩
    | some read =>
        if read.1.eof then ⟨[], some (.eof, read.1)⟩
        else scanFrom fuel read.1 strOnly read.2

/-! ### More turns change nothing -/

theorem storeLoop_mono (more : UInt8 → Nat → Bool) (fuel larger : Nat) (stream : InputStream)
    (c : UInt8) (count : Nat) (le : fuel ≤ larger) (read : InputStream × UInt8)
    (ended : (storeLoop more fuel stream c count).2 = some read) :
    storeLoop more larger stream c count = storeLoop more fuel stream c count := by
  induction fuel generalizing larger stream c count with
  | zero => cases ended
  | succ fuel ih =>
      obtain ⟨larger, rfl⟩ := Nat.exists_eq_add_of_le' le
      rw [← Nat.add_assoc] at le ⊢
      rw [storeLoop] at ended
      rw [storeLoop, storeLoop]
      simp only at ended ⊢
      split at ended
      · rename_i going
        rw [if_pos going, if_pos going, ih _ _ _ _ (Nat.le_of_succ_le_succ le) ended]
      · rename_i stopped
        rw [if_neg stopped, if_neg stopped]

theorem closeToken_mono (token : Token) (restore : InputStream → UInt8 → InputStream)
    (before : List UInt8) (more : UInt8 → Nat → Bool) (fuel larger : Nat)
    (stream : InputStream) (c : UInt8) (count : Nat) (le : fuel ≤ larger)
    (found : Token × InputStream)
    (ended : (closeToken token restore before (storeLoop more fuel stream c count)).result =
      some found) :
    closeToken token restore before (storeLoop more larger stream c count) =
      closeToken token restore before (storeLoop more fuel stream c count) := by
  cases inner : (storeLoop more fuel stream c count).2 with
  | none =>
      rw [closeToken, inner] at ended
      cases ended
  | some read => rw [storeLoop_mono more fuel larger stream c count le read inner]

theorem scanString_mono (fuel larger : Nat) (stream : InputStream) (le : fuel ≤ larger)
    (found : Token × InputStream) (ended : (scanString fuel stream).result = some found) :
    scanString larger stream = scanString fuel stream := by
  unfold scanString at ended ⊢
  simp only at ended ⊢
  split at ended
  · rename_i going
    rw [if_pos going, if_pos going]
    exact closeToken_mono _ _ _ _ fuel larger _ _ _ le found ended
  · rename_i stopped
    rw [if_neg stopped, if_neg stopped]

theorem scanMinus_mono (fuel larger : Nat) (stream : InputStream) (strOnly : Bool)
    (le : fuel ≤ larger) (found : Token × InputStream)
    (ended : (scanMinus fuel stream strOnly).result = some found) :
    scanMinus larger stream strOnly = scanMinus fuel stream strOnly := by
  unfold scanMinus at ended ⊢
  simp only at ended ⊢
  split at ended
  · rename_i digit
    rw [if_pos digit, if_pos digit]
    exact closeToken_mono _ _ _ _ fuel larger _ _ _ le found ended
  · rename_i other
    rw [if_neg other, if_neg other]

theorem scanFrom_mono (fuel larger : Nat) (stream : InputStream) (strOnly : Bool) (c : UInt8)
    (le : fuel ≤ larger) (found : Token × InputStream)
    (ended : (scanFrom fuel stream strOnly c).result = some found) :
    scanFrom larger stream strOnly c = scanFrom fuel stream strOnly c := by
  unfold scanFrom at ended ⊢
  cases marks : punctuation c with
  | some token => rfl
  | none =>
      rw [marks] at ended
      simp only at ended ⊢
      by_cases minus : c = 45
      · rw [if_pos minus] at ended
        rw [if_pos minus, if_pos minus]
        exact scanMinus_mono fuel larger stream strOnly le found ended
      rw [if_neg minus] at ended
      rw [if_neg minus, if_neg minus]
      by_cases digit : isDigit c = true
      · rw [if_pos digit] at ended
        rw [if_pos digit, if_pos digit]
        exact closeToken_mono _ _ _ _ fuel larger _ _ _ le found ended
      rw [if_neg digit] at ended
      rw [if_neg digit, if_neg digit]
      by_cases quote : c = 34
      · rw [if_pos quote] at ended
        rw [if_pos quote, if_pos quote]
        exact scanString_mono fuel larger stream le found ended
      rw [if_neg quote] at ended
      rw [if_neg quote, if_neg quote]
      by_cases begins : beginsWord c = true
      · rw [if_pos begins] at ended
        rw [if_pos begins, if_pos begins]
        exact closeToken_mono _ _ _ _ fuel larger _ _ _ le found ended
      rw [if_neg begins, if_neg begins]

/-- A call that ends within some turns does the same whenever it is given more. -/
theorem scanToken_mono (fuel larger : Nat) (garbage : UInt8) (stream : InputStream)
    (strOnly : Bool) (le : fuel ≤ larger) (found : Token × InputStream)
    (ended : (scanToken fuel garbage stream strOnly).result = some found) :
    scanToken larger garbage stream strOnly = scanToken fuel garbage stream strOnly := by
  unfold scanToken at ended ⊢
  by_cases atEnd : stream.eof = true
  · rw [if_pos atEnd, if_pos atEnd]
  · rw [if_neg atEnd] at ended
    rw [if_neg atEnd, if_neg atEnd]
    cases skipped : skipLoop fuel stream garbage with
    | none =>
        rw [skipped] at ended
        cases ended
    | some read =>
        have same : skipLoop larger stream garbage = some read := by
          rw [skipLoop, storeLoop_mono moreBlanks fuel larger stream garbage 0 le read skipped]
          exact skipped
        rw [skipped] at ended
        rw [same]
        simp only at ended ⊢
        split at ended
        · rename_i stopped
          rw [if_pos stopped, if_pos stopped]
        · rename_i going
          rw [if_neg going, if_neg going]
          exact scanFrom_mono fuel larger read.1 strOnly read.2 le found ended

/-! ### Good streams -/

def scannedFrom (strOnly : Bool) (c : UInt8) (rest : List UInt8) : Lexeme × InputStream :=
  match punctuation c with
  | some token => (⟨token, none⟩, ofText rest)
  | none =>
      if c = 45 then minusToken strOnly rest
      else if isDigit c then numberToken strOnly [] c rest
      else if c = 34 then
        let string := quoteLoop 0 rest
        (⟨.word, some string.1⟩, string.2)
      else if beginsWord c then
        let word := wordLoop c rest
        (⟨.word, some word.1⟩, word.2)
      else (⟨.eof, none⟩, ofText rest)

def scanned (strOnly : Bool) (text : List UInt8) : Lexeme × InputStream :=
  match skipWhiteSpace text with
  | none => (⟨.eof, none⟩, ended)
  | some (c, rest) => scannedFrom strOnly c rest

def Scan.of (after : Lexeme × InputStream) : Scan where
  stored :=
    match after.1.stored with
    | none => []
    | some stored => stored ++ [0]
  result := some (after.1.token, after.2)

theorem Scan.of_stored (after : Lexeme × InputStream) (stored : List UInt8)
    (isStored : after.1.stored = some stored) : (Scan.of after).stored = stored ++ [0] := by
  rw [Scan.of]
  simp only [isStored]

theorem getToken_scanned (text : List UInt8) (strOnly : Bool) (after : Lexeme × InputStream)
    (ok : getToken (ofText text) strOnly = .ok after) : scanned strOnly text = after := by
  unfold getToken at ok
  simp only [ofText, Bool.false_eq_true, if_false] at ok
  unfold scanned
  cases skipped : skipWhiteSpace text with
  | none =>
      rw [skipped] at ok
      exact Except.ok.inj ok
  | some first =>
      obtain ⟨c, rest⟩ := first
      rw [skipped] at ok
      simp only at ok ⊢
      unfold scannedFrom
      cases marks : punctuation c with
      | some token =>
          rw [marks] at ok
          exact Except.ok.inj ok
      | none =>
          rw [marks] at ok
          simp only [tokenFrom] at ok ⊢
          split at ok
          · rename_i minus
            rw [if_pos minus]
            exact Except.ok.inj ok
          · rename_i notMinus
            rw [if_neg notMinus]
            split at ok
            · rename_i digit
              rw [if_pos digit]
              exact Except.ok.inj ok
            · rename_i notDigit
              rw [if_neg notDigit]
              split at ok
              · rename_i quote
                rw [if_pos quote]
                exact Except.ok.inj ok
              · rename_i notQuote
                rw [if_neg notQuote]
                split at ok
                · rename_i begins
                  rw [if_pos begins]
                  split at ok
                  · cases ok
                  · exact Except.ok.inj ok
                · rename_i notWord
                  rw [if_neg notWord]
                  exact Except.ok.inj ok

theorem storeLoop_end (more : UInt8 → Nat → Bool) (fuel : Nat) (c : UInt8) (count : Nat) :
    storeLoop more (fuel + 1) (ofText []) c count = ([c], some (ended, c)) := by
  rw [storeLoop, extract_empty, if_neg]
  · rfl
  · rintro ⟨_, going⟩
    cases going

theorem storeLoop_going (more : UInt8 → Nat → Bool) (fuel : Nat) (next c : UInt8)
    (rest : List UInt8) (count : Nat) (going : more next (count + 1) = true) :
    storeLoop more (fuel + 1) (ofText (next :: rest)) c count =
      (c :: (storeLoop more fuel (ofText rest) next (count + 1)).1,
        (storeLoop more fuel (ofText rest) next (count + 1)).2) := by
  rw [storeLoop, extract_next, if_pos ⟨going, rfl⟩]

theorem storeLoop_stop (more : UInt8 → Nat → Bool) (fuel : Nat) (next c : UInt8)
    (rest : List UInt8) (count : Nat) (stopped : ¬ more next (count + 1) = true) :
    storeLoop more (fuel + 1) (ofText (next :: rest)) c count =
      ([c], some (ofText rest, next)) := by
  rw [storeLoop, extract_next, if_neg fun going => stopped going.1]

theorem moreDigits_iff (c : UInt8) (count : Nat) :
    moreDigits c count = true ↔ isDigit c = true ∧ count < maxTokenLen := by
  rw [moreDigits, Bool.and_eq_true, decide_eq_true_iff]

theorem moreString_iff (c : UInt8) (count : Nat) :
    moreString c count = true ↔ (c ≠ 34 ∧ c ≠ 10) ∧ count < maxTokenLen := by
  rw [moreString, Bool.and_eq_true, decide_eq_true_iff, decide_eq_true_iff]

theorem storeLoop_blanks (text : List UInt8) (c : UInt8) (count fuel : Nat)
    (enough : text.length < fuel) :
    match skipWhiteSpace text with
    | none => ∃ last, (storeLoop moreBlanks fuel (ofText text) c count).2 = some (ended, last)
    | some (first, rest) =>
        (storeLoop moreBlanks fuel (ofText text) c count).2 = some (ofText rest, first) := by
  induction text generalizing c count fuel with
  | nil =>
      obtain ⟨fuel, rfl⟩ := Nat.exists_eq_succ_of_ne_zero (Nat.ne_of_gt enough)
      rw [storeLoop_end]
      exact ⟨c, rfl⟩
  | cons next text ih =>
      obtain ⟨fuel, rfl⟩ := Nat.exists_eq_succ_of_ne_zero
        (Nat.ne_of_gt (Nat.zero_lt_of_lt enough))
      have later := ih next (count + 1) fuel (Nat.lt_of_succ_lt_succ enough)
      rw [skipWhiteSpace]
      by_cases white : isWhiteSpace next = true
      · rw [if_pos white, storeLoop_going moreBlanks fuel next c text count white]
        exact later
      · rw [if_neg white, storeLoop_stop moreBlanks fuel next c text count white]

theorem storeLoop_digits (text : List UInt8) (c : UInt8) (count fuel : Nat)
    (enough : text.length < fuel) :
    ∃ read, storeLoop moreDigits fuel (ofText text) c count =
        ((digitLoop c count text).1, some read) ∧
      restoreUnlessEof read.1 read.2 = (digitLoop c count text).2 := by
  induction text generalizing c count fuel with
  | nil =>
      obtain ⟨fuel, rfl⟩ := Nat.exists_eq_succ_of_ne_zero (Nat.ne_of_gt enough)
      exact ⟨(ended, c), storeLoop_end moreDigits fuel c count, rfl⟩
  | cons next text ih =>
      obtain ⟨fuel, rfl⟩ := Nat.exists_eq_succ_of_ne_zero
        (Nat.ne_of_gt (Nat.zero_lt_of_lt enough))
      rw [digitLoop]
      by_cases going : isDigit next = true ∧ count + 1 < maxTokenLen
      · obtain ⟨read, looped, restored⟩ := ih next (count + 1) fuel
          (Nat.lt_of_succ_lt_succ enough)
        rw [if_pos going, storeLoop_going moreDigits fuel next c text count
          ((moreDigits_iff next (count + 1)).mpr going), looped]
        exact ⟨read, rfl, restored⟩
      · rw [if_neg going, storeLoop_stop moreDigits fuel next c text count fun more =>
          going ((moreDigits_iff next (count + 1)).mp more)]
        exact ⟨_, rfl, rfl⟩

theorem storeLoop_letters (text : List UInt8) (c : UInt8) (count fuel : Nat)
    (enough : text.length < fuel) :
    ∃ read, storeLoop moreLetters fuel (ofText text) c count =
        ((wordLoop c text).1, some read) ∧
      restoreUnlessEof read.1 read.2 = (wordLoop c text).2 := by
  induction text generalizing c count fuel with
  | nil =>
      obtain ⟨fuel, rfl⟩ := Nat.exists_eq_succ_of_ne_zero (Nat.ne_of_gt enough)
      exact ⟨(ended, c), storeLoop_end moreLetters fuel c count, rfl⟩
  | cons next text ih =>
      obtain ⟨fuel, rfl⟩ := Nat.exists_eq_succ_of_ne_zero
        (Nat.ne_of_gt (Nat.zero_lt_of_lt enough))
      rw [wordLoop]
      by_cases going : continuesWord next = true
      · obtain ⟨read, looped, restored⟩ := ih next (count + 1) fuel
          (Nat.lt_of_succ_lt_succ enough)
        rw [if_pos going, storeLoop_going moreLetters fuel next c text count going, looped]
        exact ⟨read, rfl, restored⟩
      · rw [if_neg going, storeLoop_stop moreLetters fuel next c text count going]
        exact ⟨_, rfl, rfl⟩

/-- The character that is stored is never a newline, so none is put back at the end. -/
theorem storeLoop_string (text : List UInt8) (c : UInt8) (count fuel : Nat) (inLine : c ≠ 10)
    (enough : text.length < fuel) :
    ∃ read, storeLoop moreString fuel (ofText text) c count =
        (c :: (quoteLoop (count + 1) text).1, some read) ∧
      restoreNewLine read.1 read.2 = (quoteLoop (count + 1) text).2 := by
  induction text generalizing c count fuel with
  | nil =>
      obtain ⟨fuel, rfl⟩ := Nat.exists_eq_succ_of_ne_zero (Nat.ne_of_gt enough)
      exact ⟨(ended, c), storeLoop_end moreString fuel c count, if_neg inLine⟩
  | cons next text ih =>
      obtain ⟨fuel, rfl⟩ := Nat.exists_eq_succ_of_ne_zero
        (Nat.ne_of_gt (Nat.zero_lt_of_lt enough))
      rw [quoteLoop]
      by_cases newLine : next = 10
      · rw [if_pos newLine, storeLoop_stop moreString fuel next c text count fun more =>
          ((moreString_iff next (count + 1)).mp more).1.2 newLine]
        subst newLine
        exact ⟨_, rfl, rfl⟩
      · rw [if_neg newLine]
        by_cases going : next ≠ 34 ∧ count + 1 < maxTokenLen
        · obtain ⟨read, looped, restored⟩ := ih next (count + 1) fuel newLine
            (Nat.lt_of_succ_lt_succ enough)
          rw [if_pos going, storeLoop_going moreString fuel next c text count
            ((moreString_iff next (count + 1)).mpr ⟨⟨going.1, newLine⟩, going.2⟩), looped]
          exact ⟨read, rfl, restored⟩
        · rw [if_neg going, storeLoop_stop moreString fuel next c text count fun more =>
            going ⟨((moreString_iff next (count + 1)).mp more).1.1,
              ((moreString_iff next (count + 1)).mp more).2⟩]
          exact ⟨_, rfl, if_neg newLine⟩

section Good

variable (fuel : Nat) (strOnly : Bool) (rest : List UInt8) (enough : rest.length < fuel)

include enough

theorem scanNumber_ofText (sign : List UInt8) (c : UInt8) :
    scanNumber fuel (ofText rest) strOnly sign c =
      Scan.of (numberToken strOnly sign c rest) := by
  obtain ⟨read, looped, restored⟩ := storeLoop_digits rest c sign.length fuel enough
  rw [scanNumber, closeToken, looped]
  simp only [restored]
  rfl

theorem scanString_ofText :
    scanString fuel (ofText rest) =
      Scan.of (⟨.word, some (quoteLoop 0 rest).1⟩, (quoteLoop 0 rest).2) := by
  cases rest with
  | nil => rfl
  | cons next more =>
      rw [scanString, extract_next, quoteLoop]
      by_cases newLine : next = 10
      · subst newLine
        rfl
      · rw [if_neg newLine]
        by_cases going : next ≠ 34 ∧ 0 < maxTokenLen
        · have stores := (moreString_iff next 0).mpr ⟨⟨going.1, newLine⟩, going.2⟩
          obtain ⟨read, looped, restored⟩ := storeLoop_string more next 0 fuel newLine
            (Nat.lt_of_succ_lt enough)
          rw [if_pos going, if_pos ⟨stores, rfl⟩, closeToken, looped]
          simp only [restored]
          rfl
        · rw [if_neg going, if_neg, closeToken]
          · simp only [restoreNewLine, if_neg newLine]
            rfl
          · rintro ⟨stores, _⟩
            have inside := (moreString_iff next 0).mp stores
            exact going ⟨inside.1.1, inside.2⟩

theorem scanWord_ofText (c : UInt8) :
    scanWord fuel (ofText rest) c =
      Scan.of (⟨.word, some (wordLoop c rest).1⟩, (wordLoop c rest).2) := by
  obtain ⟨read, looped, restored⟩ := storeLoop_letters rest c 0 fuel enough
  rw [scanWord, closeToken, looped]
  simp only [restored]
  rfl

theorem scanMinus_ofText :
    scanMinus fuel (ofText rest) strOnly = Scan.of (minusToken strOnly rest) := by
  cases rest with
  | nil => rfl
  | cons next more =>
      rw [scanMinus, minusToken, extract_next]
      simp only
      split
      · exact scanNumber_ofText fuel strOnly more (Nat.lt_of_succ_lt enough) [45] next
      · rfl

theorem scanFrom_ofText (c : UInt8) :
    scanFrom fuel (ofText rest) strOnly c = Scan.of (scannedFrom strOnly c rest) := by
  unfold scanFrom scannedFrom
  cases punctuation c with
  | some token => rfl
  | none =>
      simp only
      split
      · exact scanMinus_ofText fuel strOnly rest enough
      · split
        · exact scanNumber_ofText fuel strOnly rest enough [] c
        · split
          · exact scanString_ofText fuel rest enough
          · split
            · exact scanWord_ofText fuel rest enough c
            · rfl

end Good

/-- On a good stream a call ends, within as many turns as there are characters. -/
theorem scanToken_ofText (fuel : Nat) (garbage : UInt8) (text : List UInt8) (strOnly : Bool)
    (enough : text.length < fuel) :
    scanToken fuel garbage (ofText text) strOnly = Scan.of (scanned strOnly text) := by
  have skips := storeLoop_blanks text garbage 0 fuel enough
  rw [scanToken, ofText_eof, if_neg Bool.false_ne_true]
  unfold scanned skipLoop
  cases skipped : skipWhiteSpace text with
  | none =>
      rw [skipped] at skips
      obtain ⟨last, looped⟩ := skips
      rw [looped]
      rfl
  | some first =>
      obtain ⟨c, rest⟩ := first
      rw [skipped] at skips
      simp only at skips
      rw [skips]
      exact scanFrom_ofText fuel strOnly rest
        (Nat.lt_trans (skipWhiteSpace_length text rest c skipped) enough) c

/-- Where `getToken` has an answer, the call comes to it. -/
theorem scanToken_getToken (fuel : Nat) (garbage : UInt8) (text : List UInt8) (strOnly : Bool)
    (after : Lexeme × InputStream) (ok : getToken (ofText text) strOnly = .ok after)
    (enough : text.length < fuel) :
    scanToken fuel garbage (ofText text) strOnly = Scan.of after := by
  rw [scanToken_ofText fuel garbage text strOnly enough, getToken_scanned text strOnly after ok]

end AuthServer
