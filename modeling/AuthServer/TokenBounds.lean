/-
How many bytes `GetToken` writes to `value`, and `Config::Load` to its arrays.

Numbers and strings stop at `MAX_TOKEN_LEN` characters on every stream; the loop
over a word has no such test.  On a stream that has failed it stores the same
character for ever.
-/

import AuthServer.TokenRuns

set_option autoImplicit false

namespace AuthServer

open InputStream

/-- What was written has its place in `char value[MAX_TOKEN_LEN+1]`. -/
def FitsArray (written : List UInt8) : Prop := written.length ≤ maxTokenLen + 1

/-- The first 71 characters belong to one word. -/
def Overlong (text : List UInt8) : Prop :=
  ∃ c word more, text = c :: (word ++ more) ∧ beginsWord c = true ∧
    (∀ next ∈ word, continuesWord next = true) ∧ word.length = maxTokenLen

/-- The token that comes next is a word that is too long: on a stream that has failed, a
word that the uninitialised character begins. -/
def LongWordAhead (stream : InputStream) (garbage : UInt8) : Prop :=
  stream.eof = false ∧
    if stream.fail then beginsWord garbage = true
    else
      ∃ blanks rest, stream.rest = blanks ++ rest ∧ (∀ c ∈ blanks, isWhiteSpace c = true) ∧
        Overlong rest

/-! ### Numbers and strings -/

theorem storeLoop_bound (more : UInt8 → Nat → Bool) (limit : Nat)
    (bounded : ∀ c count, more c count = true → count < limit) (fuel : Nat)
    (stream : InputStream) (c : UInt8) (count : Nat) (room : count < limit) :
    (storeLoop more fuel stream c count).1.length ≤ limit - count := by
  induction fuel generalizing stream c count with
  | zero => exact Nat.zero_le _
  | succ fuel ih =>
      rw [storeLoop]
      simp only
      split
      · rename_i going
        have later := ih (stream.extract c).1 (stream.extract c).2 (count + 1)
          (bounded _ _ going.1)
        rw [List.length_cons]
        omega
      · rw [List.length_singleton]
        omega

theorem closeToken_length (token : Token) (restore : InputStream → UInt8 → InputStream)
    (before : List UInt8) (loop : List UInt8 × Option (InputStream × UInt8)) :
    (closeToken token restore before loop).stored.length ≤ before.length + loop.1.length + 1 := by
  unfold closeToken
  split
  · rw [List.length_append]
    omega
  · rw [List.length_append, List.length_append, List.length_singleton]

section Stream

variable (fuel : Nat) (stream : InputStream) (strOnly : Bool)

theorem scanNumber_fits (sign : List UInt8) (c : UInt8) (room : sign.length < maxTokenLen) :
    FitsArray (scanNumber fuel stream strOnly sign c).stored := by
  have digits := storeLoop_bound moreDigits maxTokenLen
    (fun c count more => ((moreDigits_iff c count).mp more).2) fuel stream c sign.length room
  have closed := closeToken_length (if strOnly then .word else .number) restoreUnlessEof sign
    (storeLoop moreDigits fuel stream c sign.length)
  rw [FitsArray, scanNumber]
  omega

theorem scanString_fits : FitsArray (scanString fuel stream).stored := by
  rw [FitsArray, scanString]
  split
  · have text := storeLoop_bound moreString maxTokenLen
      (fun c count more => ((moreString_iff c count).mp more).2) fuel (stream.extract 34).1
      (stream.extract 34).2 0 (by decide)
    have closed := closeToken_length .word restoreNewLine []
      (storeLoop moreString fuel (stream.extract 34).1 (stream.extract 34).2 0)
    rw [List.length_nil] at closed
    omega
  · exact Nat.succ_le_succ (Nat.zero_le _)

theorem scanMinus_fits : FitsArray (scanMinus fuel stream strOnly).stored := by
  rw [scanMinus]
  split
  · exact scanNumber_fits fuel _ strOnly [45] _ (by decide)
  · exact Nat.zero_le _

theorem scanFrom_fits (c : UInt8) (noWord : beginsWord c = false) :
    FitsArray (scanFrom fuel stream strOnly c).stored := by
  unfold scanFrom
  split
  · exact Nat.zero_le _
  · split
    · exact scanMinus_fits fuel stream strOnly
    · split
      · exact scanNumber_fits fuel stream strOnly [] c (by decide)
      · split
        · exact scanString_fits fuel stream
        · rw [noWord, if_neg Bool.false_ne_true]
          exact Nat.zero_le _

theorem scanFrom_word (c : UInt8) (begins : beginsWord c = true) :
    scanFrom fuel stream strOnly c = scanWord fuel stream c := by
  obtain ⟨_, noMark, noMinus, noDigit, noQuote⟩ := beginsWord_apart c begins
  rw [scanFrom, noMark]
  simp only [if_neg noMinus, if_neg noDigit, if_neg noQuote, if_pos begins]

end Stream

/-! ### Words -/

theorem storeLoop_letters_bound (word rest : List UInt8) (c : UInt8) (count fuel : Nat)
    (ends : ∀ next ∈ rest.head?, continuesWord next = false) :
    (storeLoop moreLetters fuel (ofText (word ++ rest)) c count).1.length ≤ word.length + 1 := by
  induction word generalizing c count fuel with
  | nil =>
      cases fuel with
      | zero => exact Nat.zero_le _
      | succ fuel =>
          cases rest with
          | nil =>
              rw [List.nil_append, storeLoop_end]
              exact Nat.le_refl _
          | cons next rest =>
              have stopped : ¬ moreLetters next (count + 1) = true := by
                rw [moreLetters, ends next rfl]
                exact Bool.false_ne_true
              rw [List.nil_append, storeLoop_stop moreLetters fuel next c rest count stopped]
              exact Nat.le_refl _
  | cons other word ih =>
      cases fuel with
      | zero => exact Nat.zero_le _
      | succ fuel =>
          rw [List.cons_append]
          by_cases going : moreLetters other (count + 1) = true
          · rw [storeLoop_going moreLetters fuel other c _ count going]
            exact Nat.succ_le_succ (ih other (count + 1) fuel)
          · rw [storeLoop_stop moreLetters fuel other c _ count going]
            exact Nat.succ_le_succ (Nat.zero_le _)

theorem scanWord_fits (fuel : Nat) (rest : List UInt8) (c : UInt8) (begins : beginsWord c = true)
    (short : ¬ Overlong (c :: rest)) : FitsArray (scanWord fuel (ofText rest) c).stored := by
  obtain ⟨word, behind, rfl, goesOn, _, ends⟩ := span_room continuesWord rest.length rest
  have stops : ∀ next ∈ behind.head?, continuesWord next = false := by
    rcases ends with stopped | all
    · exact stopped
    · rw [List.length_append] at all
      rw [List.eq_nil_of_length_eq_zero (show behind.length = 0 by omega)]
      intro next member
      cases member
  have few : word.length < maxTokenLen := by
    by_contra many
    refine short ⟨c, word.take maxTokenLen, word.drop maxTokenLen ++ behind, ?_, begins,
      fun next member => goesOn next (List.mem_of_mem_take member), ?_⟩
    · rw [← List.append_assoc, List.take_append_drop]
    · rw [List.length_take, Nat.min_eq_left (Nat.le_of_not_lt many)]
  have letters := storeLoop_letters_bound word behind c 0 fuel stops
  have closed := closeToken_length .word restoreUnlessEof []
    (storeLoop moreLetters fuel (ofText (word ++ behind)) c 0)
  rw [List.length_nil] at closed
  rw [FitsArray, scanWord]
  omega

theorem wordLoop_long (word more : List UInt8) (c : UInt8)
    (goesOn : ∀ next ∈ word, continuesWord next = true) :
    word.length + 1 ≤ (wordLoop c (word ++ more)).1.length := by
  induction word generalizing c with
  | nil =>
      cases more with
      | nil => exact Nat.le_refl _
      | cons next more =>
          rw [List.nil_append, wordLoop]
          split
          · exact Nat.succ_le_succ (Nat.zero_le _)
          · exact Nat.le_refl _
  | cons next word ih =>
      rw [List.cons_append, wordLoop, if_pos (goesOn next List.mem_cons_self)]
      exact Nat.succ_le_succ
        (ih next fun other member => goesOn other (List.mem_cons_of_mem next member))

theorem scanned_overlong (strOnly : Bool) (blanks rest : List UInt8)
    (white : ∀ c ∈ blanks, isWhiteSpace c = true) (overlong : Overlong rest) :
    (scanned strOnly (blanks ++ rest)).1.token ≠ .eof ∧
      ¬ FitsArray (Scan.of (scanned strOnly (blanks ++ rest))).stored := by
  obtain ⟨c, word, more, rfl, begins, goesOn, size⟩ := overlong
  have long := wordLoop_long word more c goesOn
  rw [scanned_blanks strOnly blanks _ white, scanned_word strOnly c _ begins]
  refine ⟨word_going, fun fits => ?_⟩
  have whole : ((wordLoop c (word ++ more)).1 ++ [0]).length ≤ maxTokenLen + 1 := fits
  rw [List.length_append, List.length_singleton] at whole
  omega

/-! ### One call -/

theorem skipWhiteSpace_blanks (text rest : List UInt8) (c : UInt8)
    (found : skipWhiteSpace text = some (c, rest)) :
    ∃ blanks, text = blanks ++ c :: rest ∧ ∀ blank ∈ blanks, isWhiteSpace blank = true := by
  induction text with
  | nil => cases found
  | cons first text ih =>
      unfold skipWhiteSpace at found
      split at found
      · rename_i white
        obtain ⟨blanks, rfl, all⟩ := ih found
        exact ⟨first :: blanks, rfl, List.forall_mem_cons.mpr ⟨white, all⟩⟩
      · cases found
        exact ⟨[], rfl, List.forall_mem_nil _⟩

section Call

variable (garbage : UInt8) (strOnly : Bool)

theorem scanToken_fits_good (text : List UInt8) :
    (∀ fuel, FitsArray (scanToken fuel garbage (ofText text) strOnly).stored) ↔
      ¬ ∃ blanks rest, text = blanks ++ rest ∧ (∀ c ∈ blanks, isWhiteSpace c = true) ∧
        Overlong rest := by
  constructor
  · rintro fits ⟨blanks, rest, rfl, white, overlong⟩
    have written := fits ((blanks ++ rest).length + 1)
    rw [scanToken_ofText _ garbage _ strOnly (Nat.lt_succ_self _)] at written
    exact (scanned_overlong strOnly blanks rest white overlong).2 written
  · intro short fuel
    rw [scanToken, ofText_eof, if_neg Bool.false_ne_true]
    cases skipped : skipLoop fuel (ofText text) garbage with
    | none => exact Nat.zero_le _
    | some read =>
        have skips := storeLoop_blanks text garbage 0 (fuel + (text.length + 1)) (by omega)
        rw [storeLoop_mono moreBlanks fuel _ _ garbage 0 (Nat.le_add_right _ _) read skipped,
          show (storeLoop moreBlanks fuel (ofText text) garbage 0).2 = some read from skipped]
          at skips
        simp only
        cases first : skipWhiteSpace text with
        | none =>
            rw [first] at skips
            obtain ⟨last, isLast⟩ := skips
            cases isLast
            exact Nat.zero_le _
        | some after =>
            obtain ⟨c, rest⟩ := after
            rw [first] at skips
            cases skips
            rw [ofText_eof, if_neg Bool.false_ne_true]
            cases begins : beginsWord c with
            | false => exact scanFrom_fits fuel (ofText rest) strOnly c begins
            | true =>
                obtain ⟨blanks, isText, white⟩ := skipWhiteSpace_blanks text rest c first
                rw [scanFrom_word fuel (ofText rest) strOnly c begins]
                exact scanWord_fits fuel rest c begins fun overlong =>
                  short ⟨blanks, c :: rest, isText, white, overlong⟩

theorem scanToken_visibleGarbage (fuel : Nat) (rest : List UInt8)
    (visible : isWhiteSpace garbage = false) :
    scanToken (fuel + 1) garbage (failed rest) strOnly =
      scanFrom (fuel + 1) (failed rest) strOnly garbage := by
  have skipped : skipLoop (fuel + 1) (failed rest) garbage = some (failed rest, garbage) := by
    rw [skipLoop, storeLoop, extract_failed, if_neg]
    rintro ⟨white, _⟩
    rw [moreBlanks, visible] at white
    cases white
  rw [scanToken, failed_eof, if_neg Bool.false_ne_true, skipped]
  rfl

theorem scanToken_wordGarbage (fuel : Nat) (rest : List UInt8)
    (begins : beginsWord garbage = true) :
    scanToken (fuel + 1) garbage (failed rest) strOnly =
      ⟨List.replicate (fuel + 1) garbage, none⟩ := by
  have bounds := beginsWord_bounds garbage begins
  have always : ∀ count, moreLetters garbage count = true := by
    intro _
    rw [moreLetters, continuesWord, begins]
    rfl
  rw [scanToken_visibleGarbage garbage strOnly fuel rest (isWhiteSpace_false garbage (by omega)),
    scanFrom_word _ _ strOnly garbage begins, scanWord,
    storeLoop_forever moreLetters rest garbage always]
  rfl

theorem scanToken_fits_failed (rest : List UInt8) :
    (∀ fuel, FitsArray (scanToken fuel garbage (failed rest) strOnly).stored) ↔
      ¬ beginsWord garbage = true := by
  constructor
  · intro fits begins
    have written := fits (maxTokenLen + 1 + 1)
    rw [scanToken_wordGarbage garbage strOnly (maxTokenLen + 1) rest begins, FitsArray,
      List.length_replicate] at written
    exact absurd written (Nat.not_succ_le_self _)
  · intro noWord fuel
    cases white : isWhiteSpace garbage with
    | true =>
        rw [scanToken_blankGarbage fuel garbage rest strOnly white]
        exact Nat.zero_le _
    | false =>
        cases fuel with
        | zero => exact Nat.zero_le _
        | succ fuel =>
            rw [scanToken_visibleGarbage garbage strOnly fuel rest white]
            exact scanFrom_fits _ _ strOnly garbage ((Bool.not_eq_true _).mp noWord)

/-- A call keeps to the array exactly when no long word comes next. -/
theorem scanToken_fits (stream : InputStream) :
    (∀ fuel, FitsArray (scanToken fuel garbage stream strOnly).stored) ↔
      ¬ LongWordAhead stream garbage := by
  obtain ⟨rest, eof, fail⟩ := stream
  cases eof with
  | true =>
      refine iff_of_true (fun _ => Nat.zero_le _) fun ahead => ?_
      cases ahead.1
  | false =>
      unfold LongWordAhead
      rw [and_iff_right rfl]
      cases fail with
      | true => exact scanToken_fits_failed garbage strOnly rest
      | false => exact scanToken_fits_good garbage strOnly rest

end Call

/-! ### The loop in `Load` -/

theorem punctuation_noWord (c : UInt8) : punctuation c ≠ some .word := by
  unfold punctuation
  split
  all_goals exact fun impossible => by cases impossible

theorem scanned_filled (strOnly : Bool) (text : List UInt8)
    (isWord : (scanned strOnly text).1.token = .word) :
    ∃ stored, (scanned strOnly text).1.stored = some stored := by
  unfold scanned at isWord ⊢
  split at isWord
  · cases isWord
  · rename_i c rest found
    unfold scannedFrom at isWord ⊢
    cases marks : punctuation c with
    | some token =>
        rw [marks] at isWord
        exact absurd (marks.trans (congrArg some isWord)) (punctuation_noWord c)
    | none =>
        rw [marks] at isWord
        simp only at isWord ⊢
        by_cases minus : c = 45
        · rw [if_pos minus] at isWord ⊢
          cases rest with
          | nil => cases isWord
          | cons next rest =>
              rw [minusToken] at isWord ⊢
              by_cases digit : isDigit next = true
              · rw [if_pos digit]
                exact ⟨_, rfl⟩
              · rw [if_neg digit] at isWord
                cases isWord
        rw [if_neg minus] at isWord ⊢
        by_cases digit : isDigit c = true
        · rw [if_pos digit]
          exact ⟨_, rfl⟩
        rw [if_neg digit] at isWord ⊢
        by_cases quote : c = 34
        · rw [if_pos quote]
          exact ⟨_, rfl⟩
        rw [if_neg quote] at isWord ⊢
        by_cases begins : beginsWord c = true
        · rw [if_pos begins]
          exact ⟨_, rfl⟩
        rw [if_neg begins] at isWord
        cases isWord

namespace Config

/-- Nothing is written past `value` or `key`. -/
def Within (heap file : List UInt8) : Prop :=
  ∀ garbage fuel calls, ∀ written ∈ (loadTokens heap file garbage fuel calls).values ++
    (loadTokens heap file garbage fuel calls).keys, FitsArray written

theorem strcpy_length (text : List UInt8) :
    (strcpy (text ++ [0])).length ≤ (text ++ [0]).length := by
  have shorter : (cString (text ++ [0])).length ≤ text.length := by
    induction text with
    | nil => exact Nat.le_refl _
    | cons c text ih =>
        rw [List.cons_append, cString, List.takeWhile_cons]
        split
        · exact Nat.succ_le_succ ih
        · exact Nat.zero_le _
  rw [strcpy, List.length_append, List.length_append]
  exact Nat.add_le_add_right shorter _

theorem scanToken_fits_ahead (fuel : Nat) (garbage : UInt8) (stream : InputStream)
    (text : List UInt8) (ahead : Ahead stream text)
    (clear : ∀ rest, TokenStart text rest → rest ≠ [45] ∧ ¬ Overlong rest) :
    FitsArray (scanToken fuel garbage stream true).stored := by
  apply (scanToken_fits garbage true stream).mpr
  rcases ahead with rfl | ⟨rfl, rfl⟩
  · rintro ⟨_, blanks, rest, rfl, white, overlong⟩
    exact (clear rest (.here rest white)).2 overlong
  · intro long
    cases long.1

theorem strcpy_fits (text : List UInt8) (isWord : (scanned true text).1.token = .word)
    (fits : FitsArray (Scan.of (scanned true text)).stored) :
    FitsArray (strcpy (Scan.of (scanned true text)).stored) := by
  obtain ⟨stored, isStored⟩ := scanned_filled true text isWord
  rw [Scan.of_stored _ stored isStored] at fits ⊢
  exact Nat.le_trans (strcpy_length stored) fits

theorem loadLoop_fits (text : List UInt8) (fuel calls : Nat) (garbage : Nat → UInt8)
    (stream : InputStream) (state : State) (ahead : Ahead stream text)
    (clear : ∀ rest, TokenStart text rest → rest ≠ [45] ∧ ¬ Overlong rest) :
    ∀ written ∈ (loadLoop fuel calls garbage stream state).values ++
      (loadLoop fuel calls garbage stream state).keys, FitsArray written := by
  induction calls generalizing text garbage stream state with
  | zero => exact List.forall_mem_nil _
  | succ calls ih =>
      have first := scanToken_fits_ahead fuel (garbage 0) stream text ahead clear
      rcases scanToken_ahead fuel (garbage 0) stream true text ahead with running | found
      · rw [loadLoop_unended fuel calls garbage stream state running]
        exact List.forall_mem_singleton.mpr first
      · rcases taken_cases true text with ⟨behind, lexeme, following, taken⟩ | minus | stopped
        · have later := ih behind (fun call => garbage (call + 1)) following
            (advance state lexeme.token) taken.ahead
            fun rest start => clear rest (taken.starts rest start)
          rw [List.forall_mem_append] at later
          rw [loadLoop_taken fuel calls garbage stream state text found behind lexeme following
            taken, List.forall_mem_append, List.forall_mem_cons]
          refine ⟨⟨first, later.1⟩, ?_⟩
          simp only
          split
          · rename_i copies
            have isWord := (congrArg (fun after => after.1.token) taken.found).trans copies.2
            refine List.forall_mem_cons.mpr ⟨?_, later.2⟩
            rw [found] at first ⊢
            exact strcpy_fits text isWord first
          · exact later.2
        · exact absurd rfl (clear [45] minus).1
        · rw [loadLoop_stopped fuel calls garbage stream state text found stopped]
          exact List.forall_mem_singleton.mpr first

/-- Where the reading comes to such a place, a call writes past `value`. -/
theorem loadLoop_overrun (text last : List UInt8) (start : TokenStart text last)
    (bad : last = [45] ∨ Overlong last) (fuel : Nat) (stream : InputStream) (state : State)
    (ahead : Ahead stream text) (turns : text.length + (maxTokenLen + 1) < fuel) :
    ∃ calls, ∃ written ∈ (loadLoop fuel calls (fun _ => 97) stream state).values,
      ¬ FitsArray written := by
  induction start generalizing stream state with
  | @here blanks rest white =>
      have found := scanToken_ends fuel 97 stream true _ ahead (by omega)
      have result := congrArg Scan.result found
      rcases bad with rfl | overlong
      · rw [scanned_lastMinus true blanks white] at result
        obtain ⟨fuel, rfl⟩ := Nat.exists_eq_succ_of_ne_zero (Nat.ne_of_gt
          (Nat.zero_lt_of_lt turns))
        have stuck := scanToken_wordGarbage 97 true fuel [] rfl
        refine ⟨2, List.replicate (fuel + 1) 97, ?_, fun fits => ?_⟩
        · rw [loadLoop_next _ 1 _ stream state .minus (failed []) result minus_going,
            loadLoop_unended _ 0 _ _ _ (congrArg Scan.result stuck), stuck]
          exact List.mem_cons_of_mem _ List.mem_cons_self
        · rw [FitsArray, List.length_replicate] at fits
          omega
      · obtain ⟨going, long⟩ := scanned_overlong true blanks rest white overlong
        refine ⟨1, _, ?_, long⟩
        rw [loadLoop_next fuel 0 _ stream state _ _ result going, found]
        exact List.mem_cons_self
  | @next blanks text behind rest white piece later ih =>
      obtain ⟨lexeme, following, taken⟩ := piece.taken true blanks white
      have found := scanToken_ends fuel 97 stream true _ ahead (by omega)
      have shorter := taken.shorter
      obtain ⟨calls, written, member, long⟩ :=
        ih bad following (advance state lexeme.token) taken.ahead (by omega)
      refine ⟨calls + 1, written, ?_, long⟩
      rw [loadLoop_taken fuel calls _ stream state _ found behind lexeme following taken]
      exact List.mem_cons_of_mem _ member

theorem load_fits (heap file : List UInt8) :
    Within heap file ↔
      ∀ rest, TokenStart (streamText heap file) rest → rest ≠ [45] ∧ ¬ Overlong rest := by
  constructor
  · intro within rest start
    rw [← not_or]
    intro bad
    obtain ⟨calls, written, member, long⟩ := loadLoop_overrun _ rest start bad
      ((streamText heap file).length + (maxTokenLen + 1) + 1) _ .waitKey (Or.inl rfl)
      (Nat.lt_succ_self _)
    exact long (within (fun _ => 97) _ calls written (List.mem_append_left _ member))
  · intro clear garbage fuel calls
    exact loadLoop_fits _ fuel calls garbage _ .waitKey (Or.inl rfl) clear

theorem getToken_blanks (blanks text : List UInt8) (white : ∀ c ∈ blanks, isWhiteSpace c = true) :
    getToken (ofText (blanks ++ text)) true = getToken (ofText text) true := by
  induction blanks with
  | nil => rfl
  | cons c blanks ih =>
      rw [List.cons_append, getToken_blank c _ (white c List.mem_cons_self)]
      exact ih fun other member => white other (List.mem_cons_of_mem c member)

theorem getToken_overlong (text : List UInt8) (overlong : Overlong text) :
    getToken (ofText text) true = .error .overrun := by
  obtain ⟨c, word, more, rfl, begins, goesOn, size⟩ := overlong
  have bounds := beginsWord_bounds c begins
  obtain ⟨_, _, noMinus, noDigit, noQuote⟩ := beginsWord_apart c begins
  have long := wordLoop_long word more c goesOn
  rw [getToken_first c _ (by omega) (by omega), tokenFrom, if_neg noMinus, if_neg noDigit,
    if_neg noQuote, if_pos begins]
  exact if_pos (by omega)

theorem tokenLoop_clear (text last : List UInt8) (start : TokenStart text last)
    (stream : InputStream) (loading final : Loading) (ahead : Ahead stream text)
    (ok : tokenLoop onToken stream loading = .ok final) : last ≠ [45] ∧ ¬ Overlong last := by
  induction start generalizing stream loading with
  | @here blanks rest white =>
      rw [← not_or]
      intro bad
      have present : blanks ++ rest ≠ [] := by
        rw [Ne, List.append_eq_nil_iff]
        rintro ⟨_, rfl⟩
        rcases bad with impossible | ⟨_, _, _, impossible, _⟩
        · cases impossible
        · cases impossible
      rcases ahead with rfl | ⟨empty, _⟩
      · have blank := getToken_blanks blanks rest white
        rcases bad with rfl | overlong
        · have read : getToken (ofText (blanks ++ [45])) true = .ok (⟨.minus, none⟩, failed []) :=
            blank
          rw [tokenLoop_step onToken _ _ loading _ read minus_going] at ok
          have halted : getToken (failed []) true = .error .uninitialised := rfl
          cases body : onToken loading ⟨.minus, none⟩ with
          | error halt =>
              rw [body] at ok
              cases ok
          | ok next =>
              rw [body, Except.bind, tokenLoop_halt onToken _ next _ halted] at ok
              cases ok
        · rw [tokenLoop_halt onToken _ loading _
            (blank.trans (getToken_overlong rest overlong))] at ok
          cases ok
      · exact absurd empty present
  | @next blanks text behind rest white piece later ih =>
      obtain ⟨lexeme, following, taken⟩ := piece.taken true blanks white
      rcases ahead with rfl | ⟨empty, _⟩
      · cases read : getToken (ofText (blanks ++ text)) true with
        | error halt =>
            rw [tokenLoop_halt onToken _ loading halt read] at ok
            cases ok
        | ok after =>
            have same := getToken_scanned _ true after read
            rw [taken.found] at same
            subst same
            rw [tokenLoop_step onToken _ _ loading _ read taken.going] at ok
            cases body : onToken loading lexeme with
            | error halt =>
                rw [body] at ok
                cases ok
            | ok next =>
                rw [body] at ok
                exact ih following next taken.ahead ok
      · have shorter := taken.shorter
        rw [empty] at shorter
        cases shorter

/-- A file that is loaded without a fault keeps to the arrays and is read to its end,
whatever the uninitialised characters are. -/
theorem loadFile_safe (heap file : List UInt8) (map after : StringMap)
    (ok : loadFile heap file map = .ok after) : Within heap file ∧ Ends heap file := by
  have clear : ∀ rest, TokenStart (streamText heap file) rest → rest ≠ [45] ∧ ¬ Overlong rest := by
    intro rest start
    cases loop : tokenLoop onToken (ofText (streamText heap file)) ⟨.waitKey, none, map⟩ with
    | error halt =>
        rw [loadFile, loop] at ok
        cases ok
    | ok final => exact tokenLoop_clear _ rest start _ _ final (Or.inl rfl) loop
  refine ⟨(load_fits heap file).mpr clear, fun garbage => ?_⟩
  exact ⟨_, _, loadLoop_ends _ _ _ garbage _ .waitKey (fun start => (clear [45] start).1 rfl)
    (Or.inl rfl) (Nat.lt_succ_self _) (Nat.lt_succ_self _)⟩

/-- When a call keeps to its array on a stream, and the loop of `Load` on a file. -/
theorem arrays_kept_iff (stream : InputStream) (strOnly : Bool) (garbage : UInt8)
    (heap file : List UInt8) :
    ((∀ fuel, FitsArray (scanToken fuel garbage stream strOnly).stored) ↔
      ¬ LongWordAhead stream garbage) ∧
    (Within heap file ↔
      ∀ rest, TokenStart (streamText heap file) rest → rest ≠ [45] ∧ ¬ Overlong rest) :=
  ⟨scanToken_fits garbage strOnly stream, load_fits heap file⟩

/-- A file of one word with 71 letters. -/
theorem long_word_overruns :
    ¬ (∀ fuel, FitsArray (scanToken fuel 0 (ofText (List.replicate 71 97)) true).stored) ∧
      ¬ Within [] (List.replicate 71 97) := by
  have overlong : Overlong (List.replicate 71 97) :=
    ⟨97, List.replicate 70 97, [], rfl, rfl, fun next member => by
      rw [List.eq_of_mem_replicate member]
      rfl, List.length_replicate⟩
  constructor
  · rw [scanToken_fits]
    exact fun free => free ⟨rfl, [], _, rfl, List.forall_mem_nil _, overlong⟩
  · rw [load_fits]
    have start : TokenStart ([] ++ List.replicate 71 97) (List.replicate 71 97) :=
      .here _ (List.forall_mem_nil _)
    exact fun clear => (clear _ start).2 overlong

end Config

end AuthServer
