/-
Configuration files that were written as settings and comments.

`Get` gives back the first value of every key.  A document without any line is
a file of no bytes, and what is read then is whatever the heap holds.
-/

import AuthServer.ConfigLines

set_option autoImplicit false

namespace AuthServer

open InputStream

namespace Config

/-- Words of the key form and blanks, a blank between any two words. -/
inductive CommentBody : List UInt8 → Prop where
  | done : CommentBody []
  | blank {c : UInt8} {rest : List UInt8} (white : isWhiteSpace c = true)
      (behind : CommentBody rest) : CommentBody (c :: rest)
  | word {rest : List UInt8} (name : KeyText)
      (apart : ∀ next ∈ rest.head?, isWhiteSpace next = true)
      (behind : CommentBody rest) : CommentBody (name.text ++ rest)

structure Comment where
  lead : Gap
  body : List UInt8
  shape : CommentBody body

inductive DocumentLine where
  | setting (pair : Pair)
  | comment (remark : Comment)

def DocumentLine.text : DocumentLine → List UInt8
  | setting pair => pair.text
  | comment remark => remark.lead.text ++ 59 :: remark.body

def DocumentLine.pair? : DocumentLine → Option Pair
  | setting pair => some pair
  | comment _ => none

abbrev Document := List DocumentLine

def Document.file (document : Document) : List UInt8 := fileOf (document.map DocumentLine.text)

def Document.pairs (document : Document) : List Pair := document.filterMap DocumentLine.pair?

/-- The value of the first pair with the key, in any letter case. -/
def valueFor (pairs : List Pair) (key : List UInt8) : Option (List UInt8) :=
  (pairs.find? fun pair => decide (lowered key = lowered pair.key.text)).map (·.value.text)

/-- `Load` and `Get` give back what was written, from a fresh map. -/
def ReadsBack (heap : List UInt8) (document : Document) : Prop :=
  ∃ map, loadFile heap document.file OrderedMap.empty = .ok map ∧
    ∀ key, get map key = valueFor document.pairs key

/-! ### Comments -/

theorem reads_comment (body : List UInt8) (shape : CommentBody body) :
    ∃ lexemes, Reads body lexemes .lineEnd ∧ ∀ lexeme ∈ lexemes, lexeme.token = .word := by
  induction shape with
  | done => exact ⟨[], .done, List.forall_mem_nil _⟩
  | blank white behind ih =>
      obtain ⟨lexemes, reads, words⟩ := ih
      exact ⟨lexemes, .blank white reads, words⟩
  | word name apart behind ih =>
      obtain ⟨lexemes, reads, words⟩ := ih
      refine ⟨_, reads_key name _ _ _ ?_ reads, List.forall_mem_cons.mpr ⟨rfl, words⟩⟩
      intro next first
      exact continuesWord_blank next (apart next first)

theorem commentBody_noNewLine (body : List UInt8) (shape : CommentBody body) : 10 ∉ body := by
  induction shape with
  | done => exact List.not_mem_nil
  | @blank c rest white behind ih =>
      intro member
      rcases List.mem_cons.mp member with rfl | later
      · exact absurd white (by decide)
      · exact ih later
  | word name apart behind ih =>
      intro member
      rcases List.mem_append.mp member with inWord | later
      · exact name.absent 10 (by decide) inWord
      · exact ih later

/-- A semicolon that does not itself stand in a comment begins one. -/
theorem fold_semiColon (lexemes : List Lexeme) (loading : Loading)
    (outside : loading.state ≠ .inComment)
    (sameLine : ∀ lexeme ∈ lexemes, lexeme.token ≠ .newLine) :
    (⟨.semiColon, none⟩ :: lexemes).foldlM onToken loading =
      .ok { loading with state := .inComment } := by
  rw [foldlM_ok _ _ _ _ (onToken_outside loading .semiColon none outside)]
  exact fold_inComment lexemes _ rfl sameLine

/-! ### Documents -/

def insertPair (map : StringMap) (pair : Pair) : StringMap :=
  map.insert (lowered pair.key.text) pair.value.text

theorem valueFor_cons (pair : Pair) (pairs : List Pair) (key : List UInt8) :
    valueFor (pair :: pairs) key =
      if lowered key = lowered pair.key.text then some pair.value.text
      else valueFor pairs key := by
  unfold valueFor
  rw [List.find?_cons]
  by_cases same : lowered key = lowered pair.key.text
  · rw [decide_eq_true same, if_pos same]
    rfl
  · rw [decide_eq_false same, if_neg same]

theorem find?_insertPairs (pairs : List Pair) (map : StringMap) (key : List UInt8) :
    (pairs.foldl insertPair map).find? (lowered key) =
      (map.find? (lowered key)).or (valueFor pairs key) := by
  induction pairs generalizing map with
  | nil =>
      rw [List.foldl_nil]
      exact (Option.or_none).symm
  | cons pair pairs ih =>
      rw [List.foldl_cons, ih, insertPair, OrderedMap.find?_insert, valueFor_cons]
      by_cases same : lowered key = lowered pair.key.text
      · rw [if_pos same, if_pos same, same]
        cases map.find? (lowered pair.key.text) with
        | none => rfl
        | some old => rfl
      · rw [if_neg same, if_neg same]

/-- The loop gets through the line and puts the pair into the map, whatever comes behind. -/
def RunsAs (line : List UInt8) (pair? : Option Pair) : Prop :=
  ∀ loading : Loading, loading.state = .waitKey →
    ∃ next, next.state = .waitKey ∧ next.map = pair?.toList.foldl insertPair loading.map ∧
      ∀ rest, tokenLoop onToken (ofText (line ++ 10 :: rest)) loading =
        tokenLoop onToken (ofText rest) next

section Lines

variable {Line : Type} (text : Line → List UInt8) (pair? : Line → Option Pair)

theorem lines_run (runs : ∀ line, RunsAs (text line) (pair? line)) (lines : List Line)
    (loading : Loading) (atStart : loading.state = .waitKey) :
    ∃ next, next.state = .waitKey ∧
      next.map = (lines.filterMap pair?).foldl insertPair loading.map ∧
      ∀ rest, tokenLoop onToken (ofText (fileOf (lines.map text) ++ rest)) loading =
        tokenLoop onToken (ofText rest) next := by
  induction lines generalizing loading with
  | nil => exact ⟨loading, atStart, rfl, fun _ => rfl⟩
  | cons line lines ih =>
      obtain ⟨middle, waits, inserted, first⟩ := runs line loading atStart
      obtain ⟨next, atEnd, others, behind⟩ := ih middle waits
      refine ⟨next, atEnd, ?_, fun rest => ?_⟩
      · rw [others, inserted, List.filterMap_cons]
        cases pair? line <;> rfl
      · rw [List.map_cons, fileOf_cons, first]
        exact behind rest

/-- A file of such lines, and not an empty one, has for every key the value of its first pair
with it. -/
theorem lines_load (runs : ∀ line, RunsAs (text line) (pair? line)) (lines : List Line)
    (filled : lines ≠ []) (heap : List UInt8) :
    ∃ map, loadFile heap (fileOf (lines.map text)) OrderedMap.empty = .ok map ∧
      ∀ key, get map key = valueFor (lines.filterMap pair?) key := by
  obtain ⟨next, _, inserted, run⟩ :=
    lines_run text pair? runs lines ⟨.waitKey, none, OrderedMap.empty⟩ rfl
  have whole := run []
  rw [List.append_nil, tokenLoop_empty] at whole
  have read : streamText heap (fileOf (lines.map text)) = fileOf (lines.map text) := by
    cases lines with
    | nil => exact absurd rfl filled
    | cons line lines => exact streamText_fileOf heap (text line) _
  refine ⟨next.map, ?_, fun key => ?_⟩
  · rw [loadFile, read, whole]
    rfl
  · rw [get, inserted, find?_insertPairs]
    rfl

end Lines

theorem pair_runs (pair : Pair) : RunsAs pair.text (some pair) := fun loading atStart =>
  ⟨_, rfl, rfl, line_step pair.text pair.lexemes loading _ (reads_pair pair) pair.noNewLine
    (fold_pair pair loading atStart)⟩

theorem documentLine_runs (line : DocumentLine) : RunsAs line.text line.pair? := by
  cases line with
  | setting pair => exact pair_runs pair
  | comment remark =>
      intro loading atStart
      obtain ⟨lexemes, reads, words⟩ := reads_comment remark.body remark.shape
      have whole : Reads (DocumentLine.comment remark).text (⟨.semiColon, none⟩ :: lexemes)
          .lineEnd := reads_gap remark.lead _ _ _ (.mark rfl reads)
      have plain : 10 ∉ (DocumentLine.comment remark).text := by
        intro member
        rcases List.mem_append.mp member with lead | member
        · exact remark.lead.noNewLine lead
        rcases List.mem_cons.mp member with mark | inBody
        · exact absurd mark (by decide)
        · exact commentBody_noNewLine remark.body remark.shape inBody
      have folded := fold_semiColon lexemes loading (by rw [atStart]; decide)
        fun lexeme member => by rw [words lexeme member]; decide
      exact ⟨{ loading with state := .waitKey }, rfl, rfl, line_step _ _ loading
        { loading with state := .inComment } whole plain folded⟩

theorem readsBack_of_ne_nil (heap : List UInt8) (document : Document) (filled : document ≠ []) :
    ReadsBack heap document :=
  lines_load DocumentLine.text DocumentLine.pair? documentLine_runs document filled heap

/-! ### The empty file -/

/-- A file of no bytes is read as the heap is. -/
theorem loadFile_empty (lines : List (List UInt8)) (line : List UInt8) (map : StringMap)
    (noZero : 0 ∉ fileOf (line :: lines)) :
    loadFile (fileOf (line :: lines)) [] map = loadFile [] (fileOf (line :: lines)) map := by
  have ofHeap : streamText (fileOf (line :: lines)) [] = fileOf (line :: lines) :=
    cString_eq _ noZero
  rw [loadFile, ofHeap, loadFile, streamText_fileOf]

theorem empty_file_reads_heap :
    ¬ ReadsBack (Document.file [.setting settingA]) [] := by
  rintro ⟨map, loaded, nothing⟩
  obtain ⟨other, fromFile, value⟩ :=
    readsBack_of_ne_nil [] [.setting settingA] (List.cons_ne_nil _ _)
  have same := loadFile_empty [] settingA.text OrderedMap.empty (by decide)
  have equal : map = other := Except.ok.inj (loaded.symm.trans (same.trans fromFile))
  have missing := nothing letterA.text
  rw [equal, value letterA.text] at missing
  exact absurd missing (by decide)

/-- Every document but the empty one is read back, whatever the heap holds. -/
theorem readsBack_iff (document : Document) :
    (∀ heap, ReadsBack heap document) ↔ document ≠ [] := by
  constructor
  · rintro always rfl
    exact empty_file_reads_heap (always _)
  · intro filled heap
    exact readsBack_of_ne_nil heap document filled

theorem empty_document_not_read_back :
    ¬ ∀ (document : Document) (heap : List UInt8), ReadsBack heap document := fun claimed =>
  empty_file_reads_heap (claimed [] _)

end Config

end AuthServer
