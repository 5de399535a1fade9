/-
`GetToken`, which cuts a configuration file into words and marks.

The loops of the source run until a character does not belong to the token or
the stream has ended; here they recurse on what the stream still holds.  A
character that was read too far is put back, except the one behind the
seventieth of a quoted string.  A word has no limit of its own, so a long one
is written past the end of `value`.
-/

import AuthServer.Lib.InputStream

set_option autoImplicit false

namespace AuthServer

open InputStream

inductive Token where
  | word
  | period
  | comma
  | minus
  | colon
  | semiColon
  | equal
  | slash
  | ampersand
  | leftParen
  | rightParen
  | newLine
  | number
  | eof
  deriving DecidableEq, Repr

/-- Where the code runs into undefined behaviour. -/
inductive Halt where
  | overrun
  | uninitialised
  deriving DecidableEq, Repr

def maxTokenLen : Nat := 70

def isDigit (c : UInt8) : Bool := 48 ≤ c ∧ c ≤ 57

def isWhiteSpace (c : UInt8) : Bool := c = 32 ∨ c = 9 ∨ c = 13

def isAlpha (c : UInt8) : Bool := 97 ≤ c ∧ c ≤ 122 ∨ 65 ≤ c ∧ c ≤ 90

def beginsWord (c : UInt8) : Bool := isAlpha c || decide (0xa1 ≤ c ∧ c < 0xfe)

def continuesWord (c : UInt8) : Bool := beginsWord c || decide (c = 95)

def punctuation (c : UInt8) : Option Token :=
  match c with
  | 46 => some .period
  | 44 => some .comma
  | 58 => some .colon
  | 59 => some .semiColon
  | 61 => some .equal
  | 47 => some .slash
  | 38 => some .ampersand
  | 40 => some .leftParen
  | 41 => some .rightParen
  | 10 => some .newLine
  | _ => none

structure Lexeme where
  token : Token
  stored : Option (List UInt8)
  deriving DecidableEq, Repr

def ended : InputStream := ⟨[], true, true⟩

def skipWhiteSpace : List UInt8 → Option (UInt8 × List UInt8)
  | [] => none
  | c :: rest => if isWhiteSpace c then skipWhiteSpace rest else some (c, rest)

def digitLoop (c : UInt8) (count : Nat) : List UInt8 → List UInt8 × InputStream
  | [] => ([c], ended)
  | next :: rest =>
      if isDigit next ∧ count + 1 < maxTokenLen then
        let behind := digitLoop next (count + 1) rest
        (c :: behind.1, behind.2)
      else ([c], ofText (next :: rest))

def quoteLoop (count : Nat) : List UInt8 → List UInt8 × InputStream
  | [] => ([], ended)
  | c :: rest =>
      if c = 10 then ([], ofText (c :: rest))
      else if c ≠ 34 ∧ count < maxTokenLen then
        let behind := quoteLoop (count + 1) rest
        (c :: behind.1, behind.2)
      else ([], ofText rest)

def wordLoop (c : UInt8) : List UInt8 → List UInt8 × InputStream
  | [] => ([c], ended)
  | next :: rest =>
      if continuesWord next then
        let behind := wordLoop next rest
        (c :: behind.1, behind.2)
      else ([c], ofText (next :: rest))

def numberToken (strOnly : Bool) (sign : List UInt8) (c : UInt8) (rest : List UInt8) :
    Lexeme × InputStream :=
  let digits := digitLoop c sign.length rest
  (⟨if strOnly then .word else .number, some (sign ++ digits.1)⟩, digits.2)

def minusToken (strOnly : Bool) : List UInt8 → Lexeme × InputStream
  -- Putting back clears the end, but not the failure to read behind it.
  | [] => (⟨.minus, none⟩, ⟨[], false, true⟩)
  | next :: rest =>
      if isDigit next then numberToken strOnly [45] next rest
      else (⟨.minus, none⟩, ofText (next :: rest))

def tokenFrom (strOnly : Bool) (c : UInt8) (rest : List UInt8) :
    Except Halt (Lexeme × InputStream) :=
  if c = 45 then .ok (minusToken strOnly rest)
  else if isDigit c then .ok (numberToken strOnly [] c rest)
  else if c = 34 then
    let string := quoteLoop 0 rest
    .ok (⟨.word, some string.1⟩, string.2)
  else if beginsWord c then
    let word := wordLoop c rest
    if maxTokenLen < word.1.length then .error .overrun
    else .ok (⟨.word, some word.1⟩, word.2)
  else .ok (⟨.eof, none⟩, ofText rest)

def getToken (stream : InputStream) (strOnly : Bool) : Except Halt (Lexeme × InputStream) :=
  if stream.eof then .ok (⟨.eof, none⟩, stream)
  else if stream.fail then .error .uninitialised
  else
    match skipWhiteSpace stream.rest with
    | none => .ok (⟨.eof, none⟩, ended)
    | some (c, rest) =>
        match punctuation c with
        | some token => .ok (⟨token, none⟩, ofText rest)
        | none => tokenFrom strOnly c rest

/-! ### Each token takes the stream further -/

theorem skipWhiteSpace_length (text rest : List UInt8) (c : UInt8)
    (found : skipWhiteSpace text = some (c, rest)) : rest.length < text.length := by
  induction text with
  | nil => cases found
  | cons first text ih =>
      unfold skipWhiteSpace at found
      split at found
      · exact Nat.lt_succ_of_lt (ih found)
      · obtain ⟨_, rfl⟩ := Prod.mk.inj (Option.some.inj found)
        exact Nat.lt_succ_self _

theorem digitLoop_length (c : UInt8) (count : Nat) (rest : List UInt8) :
    (digitLoop c count rest).2.rest.length ≤ rest.length := by
  induction rest generalizing c count with
  | nil => exact Nat.le_refl _
  | cons next rest ih =>
      unfold digitLoop
      split
      · exact Nat.le_succ_of_le (ih next (count + 1))
      · exact Nat.le_refl _

theorem quoteLoop_length (count : Nat) (rest : List UInt8) :
    (quoteLoop count rest).2.rest.length ≤ rest.length := by
  induction rest generalizing count with
  | nil => exact Nat.le_refl _
  | cons next rest ih =>
      unfold quoteLoop
      split
      · exact Nat.le_refl _
      · split
        · exact Nat.le_succ_of_le (ih (count + 1))
        · exact Nat.le_succ _

theorem wordLoop_length (c : UInt8) (rest : List UInt8) :
    (wordLoop c rest).2.rest.length ≤ rest.length := by
  induction rest generalizing c with
  | nil => exact Nat.le_refl _
  | cons next rest ih =>
      unfold wordLoop
      split
      · exact Nat.le_succ_of_le (ih next)
      · exact Nat.le_refl _

theorem minusToken_length (strOnly : Bool) (rest : List UInt8) :
    (minusToken strOnly rest).2.rest.length ≤ rest.length := by
  cases rest with
  | nil => exact Nat.le_refl _
  | cons next rest =>
      rw [minusToken]
      split
      · exact Nat.le_succ_of_le (digitLoop_length next 1 rest)
      · exact Nat.le_refl _

theorem tokenFrom_length (strOnly : Bool) (c : UInt8) (rest : List UInt8)
    (after : Lexeme × InputStream) (read : tokenFrom strOnly c rest = .ok after) :
    after.2.rest.length ≤ rest.length := by
  unfold tokenFrom at read
  split at read
  · obtain rfl := Except.ok.inj read
    exact minusToken_length strOnly rest
  · split at read
    · obtain rfl := Except.ok.inj read
      exact digitLoop_length c 0 rest
    · split at read
      · obtain rfl := Except.ok.inj read
        exact quoteLoop_length 0 rest
      · split at read
        · simp only at read
          split at read
          · cases read
          · obtain rfl := Except.ok.inj read
            exact wordLoop_length c rest
        · obtain rfl := Except.ok.inj read
          exact Nat.le_refl _

theorem getToken_length (stream : InputStream) (strOnly : Bool) (after : Lexeme × InputStream)
    (read : getToken stream strOnly = .ok after) (going : after.1.token ≠ .eof) :
    after.2.rest.length < stream.rest.length := by
  unfold getToken at read
  split at read
  · obtain rfl := Except.ok.inj read
    exact absurd rfl going
  · split at read
    · cases read
    · split at read
      · obtain rfl := Except.ok.inj read
        exact absurd rfl going
      · rename_i c rest found
        have shorter := skipWhiteSpace_length stream.rest rest c found
        split at read
        · obtain rfl := Except.ok.inj read
          exact shorter
        · exact Nat.lt_of_le_of_lt (tokenFrom_length strOnly c rest after read) shorter

/-! ### The loop over the tokens -/

section Loop

variable {State : Type}

/-- `while ((token = GetToken(stream, value, true)) != eEOF)`, over its body. -/
def tokenLoop (body : State → Lexeme → Except Halt State) (stream : InputStream)
    (state : State) : Except Halt State :=
  match _read : getToken stream true with
  | .error halt => .error halt
  | .ok after =>
      if _going : after.1.token ≠ .eof then
        (body state after.1).bind fun next => tokenLoop body after.2 next
      else .ok state
termination_by stream.rest.length
decreasing_by exact getToken_length stream true after _read _going

theorem tokenLoop_step (body : State → Lexeme → Except Halt State) (stream next : InputStream)
    (state : State) (lexeme : Lexeme) (read : getToken stream true = .ok (lexeme, next))
    (going : lexeme.token ≠ .eof) :
    tokenLoop body stream state =
      (body state lexeme).bind fun later => tokenLoop body next later := by
  rw [tokenLoop]
  split
  · rename_i halted
    rw [read] at halted
    cases halted
  · rename_i after found
    rw [read] at found
    obtain rfl := Except.ok.inj found
    rw [dif_pos going]

theorem tokenLoop_stop (body : State → Lexeme → Except Halt State) (stream next : InputStream)
    (state : State) (lexeme : Lexeme) (read : getToken stream true = .ok (lexeme, next))
    (stopped : lexeme.token = .eof) : tokenLoop body stream state = .ok state := by
  rw [tokenLoop]
  split
  · rename_i halted
    rw [read] at halted
    cases halted
  · rename_i after found
    rw [read] at found
    obtain rfl := Except.ok.inj found
    rw [dif_neg fun going => going stopped]

theorem tokenLoop_halt (body : State → Lexeme → Except Halt State) (stream : InputStream)
    (state : State) (halt : Halt) (read : getToken stream true = .error halt) :
    tokenLoop body stream state = .error halt := by
  rw [tokenLoop]
  split
  · rename_i halted
    rw [read] at halted
    obtain rfl := Except.error.inj halted
    rfl
  · rename_i after found
    rw [read] at found
    cases found

/-- The loop sees of a stream only its next token. -/
theorem tokenLoop_congr (body : State → Lexeme → Except Halt State)
    (left right : InputStream) (state : State)
    (same : getToken left true = getToken right true) :
    tokenLoop body left state = tokenLoop body right state := by
  cases read : getToken left true with
  | error halt =>
      rw [tokenLoop_halt body left state halt read,
        tokenLoop_halt body right state halt (same ▸ read)]
  | ok after =>
      obtain ⟨lexeme, next⟩ := after
      by_cases stopped : lexeme.token = .eof
      · rw [tokenLoop_stop body left next state lexeme read stopped,
          tokenLoop_stop body right next state lexeme (same ▸ read) stopped]
      · rw [tokenLoop_step body left next state lexeme read stopped,
          tokenLoop_step body right next state lexeme (same ▸ read) stopped]

end Loop

end AuthServer
