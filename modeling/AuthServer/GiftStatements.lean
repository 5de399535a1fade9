/-
The two statements that send a gift.

The names go through `snprintf` into the statement, which `Query` and `Exec`
take for the format of a second `vsprintf`; what that writes is handed to
`mysql_real_query`.  `gbkToUTF8` is the conversion of the names.  `none` stands
for a statement whose text C leaves open.
-/

import AuthServer.Lib.CFormat
import AuthServer.Lib.CScan
import AuthServer.Lib.SqlLiteral

set_option autoImplicit false

namespace AuthServer

open CFormat CScan SqlLiteral

/-- A name as the dialogue hands it on: its field holds 63 characters. -/
structure GiftName where
  text : List UInt8
  filled : text ≠ []
  short : text.length ≤ 63
  plain : ∀ c ∈ text, 0 < c ∧ c < 128

/-- What the database answers when it is asked for the item. -/
inductive ItemAnswer where
  | error
  | noRow
  | row (itemId : List UInt8)
  deriving DecidableEq

def str2Int (ints : IntStore) (text : List UInt8) : Int32 := (sscanf ints [.int] text).headD 0

/-- `CMySQLConenction::Query` and `Exec`, up to `mysql_real_query`. -/
def queryText (sQueryFormat : List UInt8) : Option (List UInt8) := vsprintf sQueryFormat []

namespace Tool

def selectFormat : List UInt8 := ascii "SELECT item_id from etcitem where name = '%s'"

def insertFormat : List UInt8 :=
  ascii "INSERT INTO character_elf_warehouse (account_name, item_id, count) VALUES ('%s', %d, %d);"

/-- `Tool::ExecuteSqlGift`: the statements that are sent. -/
def executeSqlGift (ints : IntStore) (gbkToUTF8 : List UInt8 → List UInt8)
    (name giftName : List UInt8) (count : Int32) (answer : ItemAnswer) :
    List (Option (List UInt8)) :=
  let select := (snprintf 1024 selectFormat [.str (gbkToUTF8 giftName)]).bind queryText
  match answer with
  | .error => [select]
  | .noRow => [select]
  | .row itemId =>
      [select, (snprintf 1024 insertFormat
        [.str (gbkToUTF8 name), .int (str2Int ints itemId), .int count]).bind queryText]

/-! ### The statements that are meant -/

def selectFront : List UInt8 := ascii "SELECT item_id from etcitem where name = "

def insertFront : List UInt8 :=
  ascii "INSERT INTO character_elf_warehouse (account_name, item_id, count) VALUES ("

def insertBack (itemId count : Int32) : List UInt8 :=
  ascii ", " ++ (printInt itemId ++ (ascii ", " ++ (printInt count ++ ascii ");")))

def statements (ints : IntStore) (giftLiteral nameLiteral : List UInt8) (count : Int32) :
    ItemAnswer → List (List UInt8)
  | .row itemId =>
      [selectFront ++ (giftLiteral ++ []),
        insertFront ++ (nameLiteral ++ insertBack (str2Int ints itemId) count)]
  | _ => [selectFront ++ (giftLiteral ++ [])]

/-- Whatever the database answers, the names are sent as literals that denote them. -/
def SendsNames (ints : IntStore) (gbkToUTF8 : List UInt8 → List UInt8)
    (name giftName : List UInt8) (count : Int32) : Prop :=
  ∀ answer, ∃ giftLiteral nameLiteral,
    Denotes giftLiteral giftName ∧ Denotes nameLiteral name ∧
      executeSqlGift ints gbkToUTF8 name giftName count answer =
        (statements ints giftLiteral nameLiteral count answer).map some

/-- No quote and no percent sign, and a backslash only in front of an underscore. -/
structure Harmless (name : List UInt8) : Prop where
  quote : 39 ∉ name
  percent : 37 ∉ name
  backslash : ∀ before after, name = before ++ 92 :: after → after.head? = some 95

theorem verbatim_iff (name : List UInt8) (percent : 37 ∉ name) :
    Verbatim name ↔ Harmless name := by
  induction name with
  | nil =>
      refine iff_of_true trivial ⟨List.not_mem_nil, List.not_mem_nil, fun before after split => ?_⟩
      have length := congrArg List.length split
      rw [List.length_append, List.length_cons, List.length_nil] at length
      omega
  | cons c name ih =>
      rw [List.mem_cons, not_or] at percent
      rw [Verbatim, ih percent.2]
      have notPercent : name.head? ≠ some 37 := fun first =>
        percent.2 (List.mem_of_mem_head? first)
      constructor
      · rintro ⟨quote, kept, harmless⟩
        refine ⟨?_, ?_, ?_⟩
        · rw [List.mem_cons, not_or]
          exact ⟨Ne.symm quote, harmless.quote⟩
        · rw [List.mem_cons, not_or]
          exact percent
        · intro before after split
          cases before with
          | nil =>
              obtain ⟨slash, rfl⟩ := List.cons.inj split
              exact (kept slash).resolve_left notPercent
          | cons first more => exact harmless.backslash more after (List.cons.inj split).2
      · intro harmless
        have quote := harmless.quote
        rw [List.mem_cons, not_or] at quote
        refine ⟨Ne.symm quote.1, fun slash => Or.inr ?_, quote.2, percent.2, ?_⟩
        · exact harmless.backslash [] name (congrArg (· :: name) slash)
        · intro before after split
          exact harmless.backslash (c :: before) after (congrArg (c :: ·) split)

/-! ### What is sent -/

/-- A quoted name goes through `Query` as a literal that denotes it exactly when
it is harmless. -/
theorem sent_iff (before name after : List UInt8) (front : 37 ∉ before) (back : 37 ∉ after) :
    (∃ literal, Denotes literal name ∧
      queryText (before ++ (quoted name ++ after)) = some (before ++ (literal ++ after))) ↔
      Harmless name := by
  constructor
  · rintro ⟨literal, denotes, sent⟩
    have long := denotes_length literal name denotes
    have percent : 37 ∉ name := by
      intro inside
      have shrinks := (vsprintf_bare_length _ _ sent).2 (List.mem_append_right _
        (List.mem_append_left _ (List.mem_cons_of_mem _ (List.mem_append_left _ inside))))
      simp only [quoted, List.length_append, List.length_cons, List.length_nil] at shrinks
      omega
    rw [← verbatim_iff name percent, ← denotes_quoted_iff]
    have plain : 37 ∉ before ++ (quoted name ++ after) := by
      simp only [quoted, List.mem_append, List.mem_cons, List.not_mem_nil, not_or]
      exact ⟨front, ⟨by decide, percent, by decide, id⟩, back⟩
    rw [queryText, vsprintf_plain _ _ plain, Option.some.injEq] at sent
    rw [List.append_cancel_right (List.append_cancel_left sent)]
    exact denotes
  · intro harmless
    refine ⟨quoted name,
      (denotes_quoted_iff name).mpr ((verbatim_iff name harmless.percent).mpr harmless),
      vsprintf_plain _ _ ?_⟩
    simp only [quoted, List.mem_append, List.mem_cons, List.not_mem_nil, not_or]
    exact ⟨front, ⟨by decide, harmless.percent, by decide, id⟩, back⟩

theorem selectFront_plain : 37 ∉ selectFront := by decide +kernel

theorem insertFront_plain : 37 ∉ insertFront := by decide +kernel

theorem opened_plain (front : List UInt8) (plain : 37 ∉ front) : 37 ∉ front ++ [39] := by
  rw [List.mem_append, not_or]
  exact ⟨plain, by decide⟩

theorem select_text (giftName : GiftName) :
    snprintf 1024 selectFormat [.str giftName.text] =
      some (selectFront ++ (quoted giftName.text ++ [])) := by
  have split : selectFormat = (selectFront ++ [39]) ++ 37 :: 115 :: [39] := by
    decide +kernel
  have front := opened_plain selectFront selectFront_plain
  have written : vsprintf selectFormat [.str giftName.text] =
      some (selectFront ++ (quoted giftName.text ++ [])) := by
    rw [split, vsprintf_append _ _ _ front, vsprintf_str, vsprintf_plain [39] [] (by decide)]
    simp only [Option.map_some, quoted, List.append_assoc, List.append_nil, List.cons_append,
      List.nil_append]
  have short := giftName.short
  have length : selectFront.length = 41 := rfl
  rw [snprintf, written, Option.map_some, List.take_of_length_le]
  simp only [quoted, List.length_append, List.length_cons, List.length_nil, length]
  omega

theorem insert_text (name : GiftName) (itemId count : Int32) :
    snprintf 1024 insertFormat [.str name.text, .int itemId, .int count] =
      some (insertFront ++ (quoted name.text ++ insertBack itemId count)) := by
  have split : insertFormat = (insertFront ++ [39]) ++ 37 :: 115 :: (39 :: ascii ", " ++
      37 :: 100 :: (ascii ", " ++ 37 :: 100 :: ascii ");")) := by
    decide +kernel
  have front := opened_plain insertFront insertFront_plain
  have written : vsprintf insertFormat [.str name.text, .int itemId, .int count] =
      some (insertFront ++ (quoted name.text ++ insertBack itemId count)) := by
    rw [split, vsprintf_append _ _ _ front, vsprintf_str,
      vsprintf_append (39 :: ascii ", ") _ _ (by decide), vsprintf_int,
      vsprintf_append (ascii ", ") _ _ (by decide), vsprintf_int,
      vsprintf_plain (ascii ");") _ (by decide)]
    simp only [Option.map_some, quoted, insertBack, List.append_assoc, List.cons_append,
      List.nil_append]
  have short := name.short
  have frontLength : insertFront.length ≤ 80 := by decide +kernel
  have idLength := printInt_length_le itemId
  have countLength := printInt_length_le count
  have comma : (ascii ", ").length = 2 := rfl
  have close : (ascii ");").length = 2 := rfl
  rw [snprintf, written, Option.map_some, List.take_of_length_le]
  simp only [quoted, insertBack, List.length_append, List.length_cons, List.length_nil,
    comma, close]
  omega

theorem insertBack_plain (itemId count : Int32) : 37 ∉ insertBack itemId count := by
  have number : ∀ value : Int32, 37 ∉ printInt value := by
    intro value inside
    have digits : (37 : UInt8) ∉ decimal 1 value.toInt.natAbs := fun member =>
      Bool.false_ne_true (decimal_isdigit _ _ 37 member)
    unfold printInt at inside
    split at inside
    · rcases List.mem_cons.mp inside with same | member
      · exact absurd same (by decide)
      · exact digits member
    · exact digits inside
  simp only [insertBack, List.mem_append, not_or]
  exact ⟨by decide, number itemId, by decide, number count, by decide⟩

theorem sendsNames_iff (ints : IntStore) (gbkToUTF8 : List UInt8 → List UInt8)
    (name giftName : GiftName) (count : Int32)
    (identity : ∀ name : GiftName, gbkToUTF8 name.text = name.text) :
    SendsNames ints gbkToUTF8 name.text giftName.text count ↔
      Harmless giftName.text ∧ Harmless name.text := by
  have select := sent_iff selectFront giftName.text [] selectFront_plain List.not_mem_nil
  have insert := fun itemId => sent_iff insertFront name.text (insertBack itemId count)
    insertFront_plain (insertBack_plain itemId count)
  have sent : ∀ answer, executeSqlGift ints gbkToUTF8 name.text giftName.text count answer =
      match answer with
      | .row itemId =>
          [queryText (selectFront ++ (quoted giftName.text ++ [])),
            queryText (insertFront ++ (quoted name.text ++ insertBack (str2Int ints itemId) count))]
      | _ => [queryText (selectFront ++ (quoted giftName.text ++ []))] := by
    intro answer
    unfold executeSqlGift
    rw [identity, identity, select_text]
    cases answer with
    | error => rfl
    | noRow => rfl
    | row itemId =>
        simp only [insert_text]
        rfl
  constructor
  · intro sends
    obtain ⟨giftLiteral, nameLiteral, denotesGift, denotesName, same⟩ := sends (.row [])
    rw [sent] at same
    obtain ⟨first, more⟩ := List.cons.inj same
    obtain ⟨second, _⟩ := List.cons.inj more
    exact ⟨select.mp ⟨giftLiteral, denotesGift, first⟩,
      (insert _).mp ⟨nameLiteral, denotesName, second⟩⟩
  · rintro ⟨giftHarmless, nameHarmless⟩ answer
    obtain ⟨giftLiteral, denotesGift, first⟩ := select.mpr giftHarmless
    cases answer with
    | row itemId =>
        obtain ⟨nameLiteral, denotesName, second⟩ := (insert (str2Int ints itemId)).mpr nameHarmless
        refine ⟨giftLiteral, nameLiteral, denotesGift, denotesName, ?_⟩
        rw [sent]
        exact congrArg₂ (fun first second => [first, second]) first second
    | error =>
        obtain ⟨nameLiteral, denotesName, _⟩ := (insert 0).mpr nameHarmless
        refine ⟨giftLiteral, nameLiteral, denotesGift, denotesName, ?_⟩
        rw [sent]
        exact congrArg (fun first => [first]) first
    | noRow =>
        obtain ⟨nameLiteral, denotesName, _⟩ := (insert 0).mpr nameHarmless
        refine ⟨giftLiteral, nameLiteral, denotesGift, denotesName, ?_⟩
        rw [sent]
        exact congrArg (fun first => [first]) first

/-- Names are sent as they are exactly when none of their characters means
something to `vsprintf` or to the database. -/
theorem gift_statements_iff (ints : IntStore) (gbkToUTF8 : List UInt8 → List UInt8)
    (name giftName : GiftName) (count : Int32)
    (identity : ∀ name : GiftName, gbkToUTF8 name.text = name.text) :
    SendsNames ints gbkToUTF8 name.text giftName.text count ↔
      Harmless giftName.text ∧ Harmless name.text :=
  sendsNames_iff ints gbkToUTF8 name giftName count identity

theorem plain_of_all (text : List UInt8)
    (plain : text.all (fun c => decide (0 < c ∧ c < 128)) = true) :
    ∀ c ∈ text, 0 < c ∧ c < 128 := by
  intro c member
  exact of_decide_eq_true (List.all_eq_true.mp plain c member)

def account : GiftName where
  text := ascii "a\\_b"
  filled := by decide
  short := by decide
  plain := plain_of_all _ rfl

def quotedItem : GiftName where
  text := ascii "Devil's Knife"
  filled := by decide
  short := by decide
  plain := plain_of_all _ rfl

theorem account_harmless : Harmless account.text :=
  (verbatim_iff account.text (by decide)).mp (by simp [Verbatim, account, ascii])

theorem gift_statements_account : SendsNames .wrapping id account.text account.text 5 :=
  (gift_statements_iff .wrapping id account account 5 fun _ => rfl).mpr
    ⟨account_harmless, account_harmless⟩

theorem quoted_item_not_sent :
    ¬ ∀ (ints : IntStore) (gbkToUTF8 : List UInt8 → List UInt8) (name giftName : GiftName)
      (count : Int32), (∀ name : GiftName, gbkToUTF8 name.text = name.text) →
        SendsNames ints gbkToUTF8 name.text giftName.text count := by
  intro always
  have sends := always .wrapping id account quotedItem 1 fun _ => rfl
  have harmless := ((sendsNames_iff .wrapping id account quotedItem 1 fun _ => rfl).mp sends).1
  exact harmless.quote (by decide)

end Tool

end AuthServer
