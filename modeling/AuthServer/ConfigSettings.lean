/-
One setting of a configuration file among arbitrary other lines.

The other lines can reach a setting through the variables of the loop: they can
end it, overrun `value`, or give a value while there is no key.  Putting the same
key into the map is excluded: its characters stand in no other line.
-/

import AuthServer.ConfigLines

set_option autoImplicit false

namespace AuthServer

open InputStream

namespace Config

def Finds (heap : List UInt8) (lines : List (List UInt8)) (key value : List UInt8) : Prop :=
  ∃ map, loadFile heap (fileOf lines) OrderedMap.empty = .ok map ∧ get map key = some value

def Readable (line : List UInt8) : Prop := ∃ lexemes, Reads line lexemes .lineEnd

/-- A word too long for `value` comes before reading has ended. -/
inductive Overruns : List (List UInt8) → Prop where
  | here {line : List UInt8} {lines : List (List UInt8)} {lexemes : List Lexeme}
      (reads : Reads line lexemes .overrun) : Overruns (line :: lines)
  | later {line : List UInt8} {lines : List (List UInt8)}
      (readable : Readable line) (behind : Overruns lines) : Overruns (line :: lines)

/-- Outside of comments the first word stands behind an equals sign. -/
def valueFirst (afterEqual : Bool) : List Lexeme → Bool
  | [] => false
  | lexeme :: rest =>
      match lexeme.token with
      | .word => afterEqual
      | .equal => valueFirst true rest
      | .semiColon => false
      | _ => valueFirst afterEqual rest

def anyWord : List Lexeme → Bool
  | [] => false
  | lexeme :: rest =>
      match lexeme.token with
      | .word => true
      | .semiColon => false
      | _ => anyWord rest

/-- A value is given before there is any key. -/
inductive ValueFirst : List (List UInt8) → Prop where
  | here {line : List UInt8} {lines : List (List UInt8)} {lexemes : List Lexeme}
      (reads : Reads line lexemes .lineEnd) (orphan : valueFirst false lexemes = true) :
      ValueFirst (line :: lines)
  | later {line : List UInt8} {lines : List (List UInt8)} {lexemes : List Lexeme}
      (reads : Reads line lexemes .lineEnd) (silent : anyWord lexemes = false)
      (behind : ValueFirst lines) : ValueFirst (line :: lines)

/-! ### What the lexemes of a line are -/

structure OfLine (line : List UInt8) (lexeme : Lexeme) : Prop where
  filled : Filled lexeme
  sameLine : lexeme.token ≠ .newLine
  inside : ∀ stored, lexeme.stored = some stored → stored <:+: line

theorem OfLine.mono {line longer : List UInt8} {lexeme : Lexeme}
    (ofLine : OfLine line lexeme) (within : line <:+: longer) : OfLine longer lexeme :=
  ⟨ofLine.filled, ofLine.sameLine, fun stored text => (ofLine.inside stored text).trans within⟩

theorem OfLine.word {text line : List UInt8} (within : text <:+: line) :
    OfLine line ⟨.word, some text⟩ :=
  ⟨fun _ => rfl, fun same => Token.noConfusion same, fun stored same => by
    obtain rfl := Option.some.inj same
    exact within⟩

theorem OfLine.mark {token : Token} {line : List UInt8} (noWord : token ≠ .word)
    (sameLine : token ≠ .newLine) : OfLine line ⟨token, none⟩ :=
  ⟨fun isWord => absurd isWord noWord, sameLine, fun _ none => by cases none⟩

theorem punctuation_plain (c : UInt8) (token : Token) (marks : punctuation c = some token)
    (plain : c ≠ 10) : token ≠ .word ∧ token ≠ .newLine := by
  unfold punctuation at marks
  split at marks
  case h_10 => exact absurd rfl plain
  all_goals
    cases marks
    try exact ⟨by decide, by decide⟩

theorem ofLine_cons (front behind : List UInt8) {lexeme : Lexeme} {lexemes : List Lexeme}
    (first : OfLine (front ++ behind) lexeme)
    (others : ∀ other ∈ lexemes, OfLine behind other) :
    ∀ other ∈ lexeme :: lexemes, OfLine (front ++ behind) other :=
  List.forall_mem_cons.mpr ⟨first, fun other member =>
    (others other member).mono (List.suffix_append front behind).isInfix⟩

/-- A string, up to the byte that ends it. -/
theorem ofLine_string (text behind : List UInt8) (last : UInt8) {lexemes : List Lexeme}
    (others : ∀ other ∈ lexemes, OfLine behind other) :
    ∀ other ∈ ⟨.word, some text⟩ :: lexemes, OfLine (34 :: (text ++ last :: behind)) other := by
  have split : 34 :: (text ++ last :: behind) = (34 :: (text ++ [last])) ++ behind := by
    rw [List.cons_append, List.append_assoc, List.singleton_append]
  rw [split]
  refine ofLine_cons _ behind (.word ?_) others
  exact ⟨[34], last :: behind, by
    simp only [List.cons_append, List.nil_append, List.append_assoc]⟩

theorem reads_ofLine (line : List UInt8) (lexemes : List Lexeme) (ending : Ending)
    (reads : Reads line lexemes ending) (plain : 10 ∉ line) :
    ∀ lexeme ∈ lexemes, OfLine line lexeme := by
  induction reads with
  | done => exact List.forall_mem_nil _
  | @blank c line lexemes ending white behind ih =>
      intro lexeme member
      exact (ih (fun newLine => plain (List.mem_cons_of_mem c newLine)) lexeme member).mono
        (List.suffix_cons c line).isInfix
  | @mark c token line lexemes ending marks behind ih =>
      obtain ⟨noWord, sameLine⟩ :=
        punctuation_plain c token marks fun same => plain (same ▸ List.mem_cons_self)
      exact ofLine_cons [c] line (.mark noWord sameLine)
        (ih fun newLine => plain (List.mem_cons_of_mem c newLine))
  | @minus line lexemes ending alone behind ih =>
      exact ofLine_cons [45] line (.mark (by decide) (by decide))
        (ih fun newLine => plain (List.mem_cons_of_mem 45 newLine))
  | @number sign digits line lexemes ending signed filled numeric fits ends behind ih =>
      exact ofLine_cons (sign ++ digits) line (.word (List.prefix_append _ _).isInfix)
        (ih fun newLine => plain (List.mem_append_right _ newLine))
  | @quoted text line lexemes ending inside fits behind ih =>
      exact ofLine_string text line 34 (ih fun newLine =>
        plain (List.mem_cons_of_mem 34 (List.mem_append_right text (List.mem_cons_of_mem 34 newLine))))
  | @unclosed text inside fits =>
      refine List.forall_mem_cons.mpr ⟨.word (List.suffix_cons 34 text).isInfix, ?_⟩
      exact List.forall_mem_nil _
  | @cut text line c lexemes ending inside full other behind ih =>
      exact ofLine_string text line c (ih fun newLine =>
        plain (List.mem_cons_of_mem 34 (List.mem_append_right text (List.mem_cons_of_mem c newLine))))
  | @word c more line lexemes ending begins goesOn fits ends behind ih =>
      exact ofLine_cons (c :: more) line (.word (List.prefix_append (c :: more) line).isInfix)
        (ih fun newLine => plain (List.mem_append_right (c :: more) newLine))
  | overlong begins goesOn long ends => exact List.forall_mem_nil _
  | unexpected notWhite noMark noMinus noDigit noQuote noWord => exact List.forall_mem_nil _

/-! ### A line is read in one way -/

def collect (seen : List Lexeme) (lexeme : Lexeme) : Except Halt (List Lexeme) :=
  .ok (seen ++ [lexeme])

theorem foldlM_collect (lexemes seen : List Lexeme) :
    lexemes.foldlM collect seen = .ok (seen ++ lexemes) := by
  induction lexemes generalizing seen with
  | nil => exact congrArg Except.ok (List.append_nil seen).symm
  | cons lexeme lexemes ih =>
      have behind := ih (seen ++ [lexeme])
      rw [List.append_assoc] at behind
      exact behind

/-- What the loop finds in a line determines how the line is read. -/
theorem collect_reads (line : List UInt8) (lexemes : List Lexeme) (ending : Ending)
    (reads : Reads line lexemes ending) (plain : 10 ∉ line) :
    tokenLoop collect (ofText (line ++ [10])) [] = afterLine collect [] lexemes ending := by
  rw [tokenLoop_reads collect line lexemes ending reads plain [] [], foldlM_collect]
  rfl

theorem afterLine_lineEnd (lexemes : List Lexeme) :
    afterLine collect [] lexemes .lineEnd = .ok (lexemes ++ [⟨.newLine, none⟩]) :=
  tokenLoop_stop collect _ _ _ _ rfl rfl

theorem ending_unique (line : List UInt8) (first second : List Lexeme) (one other : Ending)
    (reads : Reads line first one) (again : Reads line second other) (plain : 10 ∉ line) :
    one = other := by
  have same := (collect_reads line first one reads plain).symm.trans
    (collect_reads line second other again plain)
  have apart (lexemes others : List Lexeme) (ending : Ending) (read : Reads line others ending) :
      lexemes ++ [⟨.newLine, none⟩] ≠ others := by
    rintro rfl
    exact (reads_ofLine line _ ending read plain _
      (List.mem_append_right lexemes (List.mem_singleton.mpr rfl))).sameLine rfl
  cases one with
  | lineEnd =>
      rw [afterLine_lineEnd] at same
      cases other with
      | lineEnd => rfl
      | stopped => exact absurd (Except.ok.inj same) (apart first second _ again)
      | overrun => cases same
  | stopped =>
      cases other with
      | lineEnd =>
          rw [afterLine_lineEnd] at same
          exact absurd (Except.ok.inj same).symm (apart second first _ reads)
      | stopped => rfl
      | overrun => cases same
  | overrun =>
      cases other with
      | lineEnd =>
          rw [afterLine_lineEnd] at same
          cases same
      | stopped => cases same
      | overrun => rfl

theorem lexemes_unique (line : List UInt8) (first second : List Lexeme)
    (reads : Reads line first .lineEnd) (again : Reads line second .lineEnd)
    (plain : 10 ∉ line) : first = second := by
  have same := (collect_reads line first _ reads plain).symm.trans
    (collect_reads line second _ again plain)
  rw [afterLine_lineEnd, afterLine_lineEnd] at same
  exact List.append_cancel_right (Except.ok.inj same)

/-! ### The loop before, in and behind the setting -/

/-- Nothing is known of the key yet. -/
structure Clear (key : List UInt8) (loading : Loading) : Prop where
  absent : loading.map.find? (lowered key) = none
  other : ∀ stored, loading.key = some stored → lowered key ≠ lowered stored

structure Settled (key value : List UInt8) (loading : Loading) : Prop where
  known : loading.key.isSome
  present : loading.map.find? (lowered key) = some value

def Foreign (key : List UInt8) (lexeme : Lexeme) : Prop :=
  Filled lexeme ∧ ∀ stored, lexeme.stored = some stored →
    lowered key ≠ lowered (cString stored)

theorem foreign_of_ofLine (key line : List UInt8) (lexeme : Lexeme)
    (ofLine : OfLine line lexeme) (elsewhere : ¬ lowered key <:+: lowered line) :
    Foreign key lexeme := by
  refine ⟨ofLine.filled, fun stored text same => elsewhere ?_⟩
  have within : cString stored <:+: line :=
    (List.takeWhile_prefix _).isInfix.trans (ofLine.inside stored text)
  rw [same]
  exact within.map tolower

theorem onToken_clear (key : List UInt8) (loading next : Loading) (lexeme : Lexeme)
    (foreign : Foreign key lexeme) (clear : Clear key loading)
    (step : onToken loading lexeme = .ok next) : Clear key next := by
  have effect := onToken_effect loading lexeme foreign.1
  rw [step] at effect
  cases effect with
  | moved state => exact ⟨clear.absent, clear.other⟩
  | keyed stored isWord =>
      refine ⟨clear.absent, fun text same => ?_⟩
      obtain rfl := Option.some.inj same
      exact foreign.2 stored (congrArg Lexeme.stored isWord)
  | valued old stored isWord known =>
      refine ⟨?_, clear.other⟩
      simp only [OrderedMap.find?_insert, if_neg (clear.other old known)]
      exact clear.absent

theorem onToken_settled (key value : List UInt8) (loading : Loading) (lexeme : Lexeme)
    (filled : Filled lexeme) (settled : Settled key value loading) :
    ∃ next, onToken loading lexeme = .ok next ∧ Settled key value next := by
  generalize outcome : onToken loading lexeme = result
  have effect := onToken_effect loading lexeme filled
  rw [outcome] at effect
  cases effect with
  | moved state => exact ⟨_, rfl, settled.known, settled.present⟩
  | keyed stored isWord => exact ⟨_, rfl, rfl, settled.present⟩
  | valued old stored isWord known =>
      refine ⟨_, rfl, settled.known, ?_⟩
      simp only [OrderedMap.find?_insert]
      by_cases same : lowered key = lowered old
      · rw [if_pos same, ← same, settled.present]
        rfl
      · rw [if_neg same]
        exact settled.present
  | orphan unknown =>
      have known := settled.known
      rw [unknown] at known
      contradiction

theorem fold_clear (key : List UInt8) (lexemes : List Lexeme) (loading next : Loading)
    (foreign : ∀ lexeme ∈ lexemes, Foreign key lexeme) (clear : Clear key loading)
    (folded : lexemes.foldlM onToken loading = .ok next) : Clear key next := by
  induction lexemes generalizing loading with
  | nil =>
      obtain rfl := Except.ok.inj folded
      exact clear
  | cons lexeme lexemes ih =>
      obtain ⟨first, others⟩ := List.forall_mem_cons.mp foreign
      cases step : onToken loading lexeme with
      | error halt =>
          rw [List.foldlM_cons, step] at folded
          cases folded
      | ok middle =>
          rw [foldlM_ok _ _ _ _ step] at folded
          exact ih middle others (onToken_clear key loading middle lexeme first clear step) folded

theorem fold_settled (key value : List UInt8) (lexemes : List Lexeme) (loading : Loading)
    (filled : ∀ lexeme ∈ lexemes, Filled lexeme) (settled : Settled key value loading) :
    ∃ next, lexemes.foldlM onToken loading = .ok next ∧ Settled key value next :=
  foldlM_keeps (Settled key value) lexemes
    (fun lexeme member loading => onToken_settled key value loading lexeme (filled lexeme member))
    loading settled

/-! ### The first key -/

theorem onToken_known (loading : Loading) (lexeme : Lexeme) (filled : Filled lexeme)
    (known : loading.key.isSome) :
    ∃ next, onToken loading lexeme = .ok next ∧ next.key.isSome := by
  generalize outcome : onToken loading lexeme = result
  have effect := onToken_effect loading lexeme filled
  rw [outcome] at effect
  cases effect with
  | moved state => exact ⟨_, rfl, known⟩
  | keyed stored isWord => exact ⟨_, rfl, rfl⟩
  | valued old stored isWord found => exact ⟨_, rfl, known⟩
  | orphan unknown =>
      rw [unknown] at known
      contradiction

theorem fold_known (lexemes : List Lexeme) (loading : Loading)
    (filled : ∀ lexeme ∈ lexemes, Filled lexeme) (known : loading.key.isSome) :
    ∃ next, lexemes.foldlM onToken loading = .ok next ∧ next.key.isSome :=
  foldlM_keeps (fun loading => loading.key.isSome) lexemes
    (fun lexeme member loading => onToken_known loading lexeme (filled lexeme member)) loading known

/-- Without a key the loop waits for one, or for a value behind an equals sign. -/
theorem fold_unknown (lexemes : List Lexeme) (loading : Loading) (afterEqual : Bool)
    (unknown : loading.key = none)
    (waits : loading.state = if afterEqual then .waitValue else .waitKey)
    (ofLine : ∀ lexeme ∈ lexemes, Filled lexeme ∧ lexeme.token ≠ .newLine) :
    if valueFirst afterEqual lexemes = true then
      lexemes.foldlM onToken loading = .error .uninitialised
    else ∃ next, lexemes.foldlM onToken loading = .ok next ∧
      (next.key = none ↔ anyWord lexemes = false) := by
  induction lexemes generalizing loading afterEqual with
  | nil => exact ⟨loading, rfl, fun _ => rfl, fun _ => unknown⟩
  | cons lexeme lexemes ih =>
      obtain ⟨⟨filled, sameLine⟩, others⟩ := List.forall_mem_cons.mp ofLine
      have outside : loading.state ≠ .inComment := by
        rw [waits]
        cases afterEqual <;> decide
      obtain ⟨token, stored⟩ := lexeme
      have step := onToken_outside loading token stored outside
      -- Every other token leaves the loop as it is.
      have passed : onToken loading ⟨token, stored⟩ = .ok loading →
          valueFirst afterEqual (⟨token, stored⟩ :: lexemes) = valueFirst afterEqual lexemes →
          anyWord (⟨token, stored⟩ :: lexemes) = anyWord lexemes →
          if valueFirst afterEqual (⟨token, stored⟩ :: lexemes) = true then
            (⟨token, stored⟩ :: lexemes).foldlM onToken loading = .error .uninitialised
          else ∃ next, (⟨token, stored⟩ :: lexemes).foldlM onToken loading = .ok next ∧
            (next.key = none ↔ anyWord (⟨token, stored⟩ :: lexemes) = false) := by
        intro ignored values words
        rw [foldlM_ok _ _ _ _ ignored, values, words]
        exact ih loading afterEqual unknown waits others
      cases token with
      | word =>
          cases afterEqual with
          | true =>
              change (⟨.word, stored⟩ :: lexemes).foldlM onToken loading = .error .uninitialised
              rw [List.foldlM_cons, step]
              simp only [onWord, waits, if_true, unknown]
              rfl
          | false =>
              have keyed : onToken loading ⟨.word, stored⟩ =
                  .ok { loading with key := some (cString (stored.getD [])) } := by
                rw [step]
                simp only [onWord, waits, Bool.false_eq_true, if_false]
              obtain ⟨next, folded, known⟩ := fold_known lexemes
                { loading with key := some (cString (stored.getD [])) }
                (fun other member => (others other member).1) rfl
              refine ⟨next, by rw [foldlM_ok _ _ _ _ keyed, folded], ?_⟩
              constructor
              · intro none
                rw [none] at known
                contradiction
              · intro none
                cases none
      | equal =>
          rw [foldlM_ok _ _ _ _ step]
          exact ih { loading with state := .waitValue } true unknown rfl others
      | semiColon =>
          have skipped := fold_inComment lexemes { loading with state := .inComment } rfl
            fun other member => (others other member).2
          refine ⟨{ loading with state := .inComment }, ?_, fun _ => rfl, fun _ => unknown⟩
          rw [foldlM_ok _ _ _ _ step, skipped]
      | newLine => exact absurd rfl sameLine
      | period => exact passed step rfl rfl
      | comma => exact passed step rfl rfl
      | minus => exact passed step rfl rfl
      | colon => exact passed step rfl rfl
      | slash => exact passed step rfl rfl
      | ampersand => exact passed step rfl rfl
      | leftParen => exact passed step rfl rfl
      | rightParen => exact passed step rfl rfl
      | number => exact passed step rfl rfl
      | eof => exact passed step rfl rfl

/-! ### The lines before the setting -/

section Lines

variable (key : List UInt8)

def Elsewhere (lines : List (List UInt8)) : Prop :=
  ∀ line ∈ lines, 10 ∉ line ∧ ¬ lowered key <:+: lowered line

theorem Elsewhere.cons {line : List UInt8} {lines : List (List UInt8)}
    (elsewhere : Elsewhere key (line :: lines)) :
    (10 ∉ line ∧ ¬ lowered key <:+: lowered line) ∧ Elsewhere key lines :=
  List.forall_mem_cons.mp elsewhere

theorem before_run (before : List (List UInt8)) (loading : Loading)
    (elsewhere : Elsewhere key before) (readable : ∀ line ∈ before, Readable line)
    (named : loading.key = none → ¬ ValueFirst before)
    (atStart : loading.state = .waitKey) (clear : Clear key loading) :
    ∃ next, next.state = .waitKey ∧ Clear key next ∧
      ∀ rest, tokenLoop onToken (ofText (fileOf before ++ rest)) loading =
        tokenLoop onToken (ofText rest) next := by
  induction before generalizing loading with
  | nil => exact ⟨loading, atStart, clear, fun _ => rfl⟩
  | cons line before ih =>
      obtain ⟨⟨plain, apart⟩, others⟩ := elsewhere.cons
      obtain ⟨⟨lexemes, reads⟩, laterReadable⟩ := List.forall_mem_cons.mp readable
      have ofLine := reads_ofLine line lexemes _ reads plain
      have foreign : ∀ lexeme ∈ lexemes, Foreign key lexeme := fun lexeme member =>
        foreign_of_ofLine key line lexeme (ofLine lexeme member) apart
      have folded : ∃ middle, lexemes.foldlM onToken loading = .ok middle ∧
          (middle.key = none → ¬ ValueFirst before) := by
        cases unknown : loading.key with
        | some old =>
            obtain ⟨middle, done, known⟩ := fold_known lexemes loading
              (fun lexeme member => (ofLine lexeme member).filled) (by rw [unknown]; rfl)
            refine ⟨middle, done, fun none => ?_⟩
            rw [none] at known
            contradiction
        | none =>
            have outcome := fold_unknown lexemes loading false unknown atStart
              fun lexeme member => ⟨(ofLine lexeme member).filled, (ofLine lexeme member).sameLine⟩
            split at outcome
            · rename_i orphan
              exact absurd (.here reads orphan) (named unknown)
            · obtain ⟨middle, done, keyless⟩ := outcome
              exact ⟨middle, done, fun none orphan =>
                named unknown (.later reads (keyless.mp none) orphan)⟩
      obtain ⟨middle, done, laterNamed⟩ := folded
      have stillClear := fold_clear key lexemes loading middle foreign clear done
      obtain ⟨next, waits, nextClear, run⟩ := ih { middle with state := .waitKey } others
        laterReadable laterNamed rfl ⟨stillClear.absent, stillClear.other⟩
      refine ⟨next, waits, nextClear, fun rest => ?_⟩
      rw [fileOf_cons, line_step line lexemes loading middle reads plain done]
      exact run rest

/-- A line that is not read to its end ends the loop, or worse. -/
theorem unreadable_run (line : List UInt8) (loading final : Loading) (rest : List UInt8)
    (plain : 10 ∉ line) (apart : ¬ lowered key <:+: lowered line)
    (unreadable : ¬ Readable line) (clear : Clear key loading)
    (ended : tokenLoop onToken (ofText (line ++ 10 :: rest)) loading = .ok final) :
    Clear key final := by
  obtain ⟨lexemes, ending, reads⟩ := reads_total line
  have foreign : ∀ lexeme ∈ lexemes, Foreign key lexeme := fun lexeme member =>
    foreign_of_ofLine key line lexeme (reads_ofLine line lexemes _ reads plain lexeme member) apart
  rw [tokenLoop_reads onToken line lexemes ending reads plain rest loading] at ended
  cases folded : lexemes.foldlM onToken loading with
  | error halt =>
      rw [folded] at ended
      cases ended
  | ok middle =>
      rw [folded] at ended
      cases ending with
      | lineEnd => exact absurd ⟨lexemes, reads⟩ unreadable
      | stopped =>
          obtain rfl := Except.ok.inj ended
          exact fold_clear key lexemes loading middle foreign clear folded
      | overrun => cases ended

theorem before_unreadable (before : List (List UInt8)) (loading final : Loading)
    (rest : List UInt8) (elsewhere : Elsewhere key before)
    (unreadable : ¬ ∀ line ∈ before, Readable line) (clear : Clear key loading)
    (ended : tokenLoop onToken (ofText (fileOf before ++ rest)) loading = .ok final) :
    Clear key final := by
  induction before generalizing loading with
  | nil => exact absurd (List.forall_mem_nil _) unreadable
  | cons line before ih =>
      obtain ⟨⟨plain, apart⟩, others⟩ := elsewhere.cons
      rw [fileOf_cons] at ended
      by_cases readable : Readable line
      · obtain ⟨lexemes, reads⟩ := readable
        have foreign : ∀ lexeme ∈ lexemes, Foreign key lexeme := fun lexeme member =>
          foreign_of_ofLine key line lexeme
            (reads_ofLine line lexemes _ reads plain lexeme member) apart
        have later : ¬ ∀ other ∈ before, Readable other := fun all =>
          unreadable (List.forall_mem_cons.mpr ⟨⟨lexemes, reads⟩, all⟩)
        cases folded : lexemes.foldlM onToken loading with
        | error halt =>
            rw [tokenLoop_reads onToken line lexemes _ reads plain _ loading, folded] at ended
            cases ended
        | ok middle =>
            have still := fold_clear key lexemes loading middle foreign clear folded
            rw [line_step line lexemes loading middle reads plain folded] at ended
            exact ih { middle with state := .waitKey } others later
              ⟨still.absent, still.other⟩ ended
      · exact unreadable_run key line loading final _ plain apart readable clear ended

theorem before_valueFirst (before : List (List UInt8)) (loading : Loading) (rest : List UInt8)
    (elsewhere : Elsewhere key before) (first : ValueFirst before)
    (atStart : loading.state = .waitKey) (unknown : loading.key = none) :
    tokenLoop onToken (ofText (fileOf before ++ rest)) loading = .error .uninitialised := by
  induction first generalizing loading with
  | @here line lines lexemes reads orphan =>
      obtain ⟨⟨plain, _⟩, _⟩ := elsewhere.cons
      have ofLine := reads_ofLine line lexemes _ reads plain
      have outcome := fold_unknown lexemes loading false unknown atStart
        fun lexeme member => ⟨(ofLine lexeme member).filled, (ofLine lexeme member).sameLine⟩
      rw [if_pos orphan] at outcome
      rw [fileOf_cons, tokenLoop_reads onToken line lexemes _ reads plain _ loading, outcome]
      rfl
  | @later line lines lexemes reads silent behind ih =>
      obtain ⟨⟨plain, _⟩, others⟩ := elsewhere.cons
      have ofLine := reads_ofLine line lexemes _ reads plain
      have outcome := fold_unknown lexemes loading false unknown atStart
        fun lexeme member => ⟨(ofLine lexeme member).filled, (ofLine lexeme member).sameLine⟩
      rw [fileOf_cons]
      split at outcome
      · rw [tokenLoop_reads onToken line lexemes _ reads plain _ loading, outcome]
        rfl
      · obtain ⟨middle, folded, keyless⟩ := outcome
        rw [line_step line lexemes loading middle reads plain folded]
        exact ih { middle with state := .waitKey } others rfl (keyless.mpr silent)

/-! ### The lines behind the setting -/

theorem after_run (value : List UInt8) (after : List (List UInt8)) (loading : Loading)
    (elsewhere : Elsewhere key after) (fits : ¬ Overruns after)
    (settled : Settled key value loading) :
    ∃ final, tokenLoop onToken (ofText (fileOf after)) loading = .ok final ∧
      Settled key value final := by
  induction after generalizing loading with
  | nil => exact ⟨loading, tokenLoop_empty loading, settled⟩
  | cons line after ih =>
      obtain ⟨⟨plain, _⟩, others⟩ := elsewhere.cons
      obtain ⟨lexemes, ending, reads⟩ := reads_total line
      have filled : ∀ lexeme ∈ lexemes, Filled lexeme := fun lexeme member =>
        (reads_ofLine line lexemes _ reads plain lexeme member).filled
      obtain ⟨middle, folded, still⟩ := fold_settled key value lexemes loading filled settled
      have text : fileOf (line :: after) = line ++ 10 :: fileOf after := by
        have whole := fileOf_cons line after []
        rw [List.append_nil, List.append_nil] at whole
        exact whole
      rw [text]
      cases ending with
      | lineEnd =>
          rw [line_step line lexemes loading middle reads plain folded]
          exact ih { middle with state := .waitKey } others
            (fun behind => fits (.later ⟨lexemes, reads⟩ behind)) ⟨still.known, still.present⟩
      | stopped =>
          rw [tokenLoop_reads onToken line lexemes _ reads plain _ loading, folded]
          exact ⟨middle, rfl, still⟩
      | overrun => exact absurd (.here reads) fits

theorem after_overruns (value : List UInt8) (after : List (List UInt8)) (loading : Loading)
    (elsewhere : Elsewhere key after) (overruns : Overruns after)
    (settled : Settled key value loading) :
    tokenLoop onToken (ofText (fileOf after ++ [])) loading = .error .overrun := by
  induction overruns generalizing loading with
  | @here line lines lexemes reads =>
      obtain ⟨⟨plain, _⟩, _⟩ := elsewhere.cons
      have filled : ∀ lexeme ∈ lexemes, Filled lexeme := fun lexeme member =>
        (reads_ofLine line lexemes _ reads plain lexeme member).filled
      obtain ⟨middle, folded, _⟩ := fold_settled key value lexemes loading filled settled
      rw [fileOf_cons, tokenLoop_reads onToken line lexemes _ reads plain _ loading, folded]
      rfl
  | @later line lines readable behind ih =>
      obtain ⟨⟨plain, _⟩, others⟩ := elsewhere.cons
      obtain ⟨lexemes, reads⟩ := readable
      have filled : ∀ lexeme ∈ lexemes, Filled lexeme := fun lexeme member =>
        (reads_ofLine line lexemes _ reads plain lexeme member).filled
      obtain ⟨middle, folded, still⟩ := fold_settled key value lexemes loading filled settled
      rw [fileOf_cons, line_step line lexemes loading middle reads plain folded]
      exact ih { middle with state := .waitKey } others ⟨still.known, still.present⟩

end Lines

/-! ### The whole file -/

theorem clear_fresh (key : List UInt8) : Clear key ⟨.waitKey, none, OrderedMap.empty⟩ :=
  ⟨rfl, fun _ none => by cases none⟩

theorem setting_settled (pair : Pair) (loading : Loading) (atStart : loading.state = .waitKey)
    (clear : Clear pair.key.text loading) :
    ∃ next, Settled pair.key.text pair.value.text next ∧
      ∀ rest, tokenLoop onToken (ofText (pair.text ++ 10 :: rest)) loading =
        tokenLoop onToken (ofText rest) next := by
  refine ⟨_, ⟨?_, ?_⟩, line_step pair.text pair.lexemes loading _ (reads_pair pair)
    pair.noNewLine (fold_pair pair loading atStart)⟩
  · rfl
  · simp only [OrderedMap.find?_insert, if_true, clear.absent]
    rfl

theorem loadFile_lines (heap : List UInt8) (before after : List (List UInt8))
    (line : List UInt8) :
    loadFile heap (fileOf (before ++ line :: after)) OrderedMap.empty =
      (tokenLoop onToken (ofText (fileOf before ++ (line ++ 10 :: fileOf after)))
        ⟨.waitKey, none, OrderedMap.empty⟩).map (·.map) := by
  have split : fileOf (before ++ line :: after) =
      fileOf before ++ (line ++ 10 :: fileOf after) := by
    unfold fileOf
    rw [List.flatMap_append, List.flatMap_cons, List.append_assoc]
    rfl
  have filled : streamText heap (fileOf (before ++ line :: after)) =
      fileOf (before ++ line :: after) := by
    refine if_neg fun none => ?_
    rw [split, List.length_append, List.length_append, List.length_cons] at none
    omega
  rw [loadFile, filled, split]

/-- A setting is found exactly when every line before it can be read to its end,
with no value before the first key, and no word behind it overruns `value`
before reading ends. -/
theorem finds_iff (heap : List UInt8) (before after : List (List UInt8)) (pair : Pair)
    (elsewhere : Elsewhere pair.key.text (before ++ after)) :
    Finds heap (before ++ pair.text :: after) pair.key.text pair.value.text ↔
      (∀ line ∈ before, Readable line) ∧ ¬ ValueFirst before ∧ ¬ Overruns after := by
  have earlier : Elsewhere pair.key.text before := fun line member =>
    elsewhere line (List.mem_append_left after member)
  have later : Elsewhere pair.key.text after := fun line member =>
    elsewhere line (List.mem_append_right before member)
  unfold Finds
  rw [loadFile_lines]
  constructor
  · rintro ⟨map, loaded, found⟩
    cases ended : tokenLoop onToken (ofText (fileOf before ++ (pair.text ++ 10 :: fileOf after)))
        ⟨.waitKey, none, OrderedMap.empty⟩ with
    | error halt =>
        rw [ended] at loaded
        cases loaded
    | ok final =>
        rw [ended] at loaded
        obtain rfl := Except.ok.inj loaded
        have readable : ∀ line ∈ before, Readable line := by
          by_contra unreadable
          have clear := before_unreadable pair.key.text before _ final _ earlier unreadable
            (clear_fresh _) ended
          rw [get, clear.absent] at found
          cases found
        have named : ¬ ValueFirst before := by
          intro first
          rw [before_valueFirst pair.key.text before _ _ earlier first rfl rfl] at ended
          cases ended
        refine ⟨readable, named, fun overruns => ?_⟩
        obtain ⟨next, waits, clear, run⟩ := before_run pair.key.text before _ earlier readable
          (fun _ => named) rfl (clear_fresh _)
        obtain ⟨placed, settled, through⟩ := setting_settled pair next waits clear
        have failed := after_overruns pair.key.text _ after placed later overruns settled
        rw [List.append_nil] at failed
        rw [run, through, failed] at ended
        cases ended
  · rintro ⟨readable, named, fits⟩
    obtain ⟨next, waits, clear, run⟩ := before_run pair.key.text before _ earlier readable
      (fun _ => named) rfl (clear_fresh _)
    obtain ⟨placed, settled, through⟩ := setting_settled pair next waits clear
    obtain ⟨final, ended, still⟩ := after_run pair.key.text _ after placed later fits settled
    refine ⟨final.map, ?_, still.present⟩
    rw [run, through, ended]
    rfl

/-! The setting `a = "1;2"` behind a comment and the line `k == 5 (`, and before
a comment with an apostrophe. -/

def settingQuoted : Pair where
  lead := noGap
  key := letterA
  left := oneBlank
  right := oneBlank
  value := .quoted ⟨[49, 59, 50], by decide, by decide, by decide, by decide⟩
  trail := noGap

theorem comment_reads : Reads [59, 32, 40, 41]
    [⟨.semiColon, none⟩, ⟨.leftParen, none⟩, ⟨.rightParen, none⟩] .lineEnd :=
  .mark rfl (.blank rfl (.mark rfl (.mark rfl .done)))

theorem malformed_reads : Reads [107, 32, 61, 61, 32, 53, 32, 40]
    [⟨.word, some [107]⟩, ⟨.equal, none⟩, ⟨.equal, none⟩, ⟨.word, some [53]⟩,
      ⟨.leftParen, none⟩] .lineEnd := by
  have number : Reads [53, 32, 40] [⟨.word, some [53]⟩, ⟨.leftParen, none⟩] .lineEnd := by
    refine @Reads.number [] [53] [32, 40] _ _ (.inl rfl) (List.cons_ne_nil _ _) ?_ ?_ ?_ ?_
    · exact fun c member => List.mem_singleton.mp member ▸ rfl
    · decide
    · exact .inl fun next head => Option.some.inj head ▸ rfl
    · exact .blank rfl (.mark rfl .done)
  refine @Reads.word 107 [] [32, 61, 61, 32, 53, 32, 40] _ _ rfl (List.forall_mem_nil _)
    (by decide) ?_ ?_
  · exact fun next head => Option.some.inj head ▸ rfl
  · exact .blank rfl (.mark rfl (.mark rfl (.blank rfl number)))

theorem apostrophe_reads : Reads [59, 39] [⟨.semiColon, none⟩] .stopped :=
  .mark rfl (.unexpected rfl rfl (by decide) rfl (by decide) rfl)

theorem setting_among_lines_found :
    Finds [] ([[59, 32, 40, 41], [107, 32, 61, 61, 32, 53, 32, 40]] ++
      settingQuoted.text :: [[59, 39], [107]]) letterA.text [49, 59, 50] := by
  refine (finds_iff [] [[59, 32, 40, 41], [107, 32, 61, 61, 32, 53, 32, 40]] [[59, 39], [107]]
    settingQuoted ?_).mpr ⟨?_, ?_, ?_⟩
  · intro line member
    simp only [List.cons_append, List.nil_append, List.mem_cons, List.not_mem_nil,
      or_false] at member
    rcases member with rfl | rfl | rfl | rfl <;> decide
  · intro line member
    simp only [List.mem_cons, List.not_mem_nil, or_false] at member
    rcases member with rfl | rfl
    · exact ⟨_, comment_reads⟩
    · exact ⟨_, malformed_reads⟩
  · intro first
    cases first with
    | here reads orphan =>
        obtain rfl := lexemes_unique _ _ _ reads comment_reads (by decide)
        cases orphan
    | later reads silent behind =>
        cases behind with
        | here reads orphan =>
            obtain rfl := lexemes_unique _ _ _ reads malformed_reads (by decide)
            cases orphan
        | later reads silent behind => cases behind
  · intro overruns
    cases overruns with
    | here reads => cases ending_unique _ _ _ _ _ reads apostrophe_reads (by decide)
    | later readable behind =>
        obtain ⟨lexemes, reads⟩ := readable
        cases ending_unique _ _ _ _ _ reads apostrophe_reads (by decide)

/-- The line `;'` before the setting: an apostrophe in a comment. -/
theorem apostrophe_hides_setting :
    ¬ ∀ (heap : List UInt8) (before after : List (List UInt8)) (pair : Pair),
      Elsewhere pair.key.text (before ++ after) →
        Finds heap (before ++ pair.text :: after) pair.key.text pair.value.text := by
  intro claimed
  have elsewhere : Elsewhere settingA.key.text ([[59, 39]] ++ []) := by
    intro line member
    obtain rfl := List.mem_singleton.mp member
    decide
  obtain ⟨map, loaded, found⟩ := claimed [] [[59, 39]] [] settingA elsewhere
  rw [loadFile_lines, fileOf_cons,
    tokenLoop_reads onToken _ _ _ apostrophe_reads (by decide)] at loaded
  obtain rfl := Except.ok.inj loaded
  cases found

end Config

end AuthServer
