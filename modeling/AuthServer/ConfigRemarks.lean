/-
Lines of settings with remarks behind them.

A line may have a setting, and behind it a semicolon and a remark; either may be
missing.  The remark is any text that `GetToken` reads to its end, quotation
marks and further semicolons among it.
-/

import AuthServer.ConfigPairs
import AuthServer.ConfigSettings

set_option autoImplicit false

namespace AuthServer

open InputStream

namespace Config

structure Remark where
  body : List UInt8
  plain : 10 ∉ body
  readable : Readable body

structure SettingsLine where
  pair? : Option Pair
  gap : Gap
  remark? : Option Remark

def remarkText : Option Remark → List UInt8
  | none => []
  | some remark => 59 :: remark.body

def pairText : Option Pair → List UInt8
  | none => []
  | some pair => pair.text

namespace SettingsLine

def text (line : SettingsLine) : List UInt8 :=
  pairText line.pair? ++ (line.gap.text ++ remarkText line.remark?)

def file (lines : List SettingsLine) : List UInt8 := fileOf (lines.map text)

def pairs (lines : List SettingsLine) : List Pair := lines.filterMap pair?

end SettingsLine

/-! ### Which remarks there are -/

def beginsToken (c : UInt8) : Bool :=
  isWhiteSpace c || (decide (c ≠ 10) && (punctuation c).isSome) || decide (c = 45) ||
    isDigit c || decide (c = 34) || beginsWord c

theorem reads_tokens (line : List UInt8) (lexemes : List Lexeme) (ending : Ending)
    (reads : Reads line lexemes ending) (tokens : ∀ c ∈ line, beginsToken c = true)
    (short : line.length ≤ maxTokenLen) : ending = .lineEnd := by
  induction reads with
  | done => rfl
  | @blank c line lexemes ending white behind ih =>
      exact ih (fun other member => tokens other (List.mem_cons_of_mem c member))
        (Nat.le_of_succ_le short)
  | @mark c token line lexemes ending marks behind ih =>
      exact ih (fun other member => tokens other (List.mem_cons_of_mem c member))
        (Nat.le_of_succ_le short)
  | @minus line lexemes ending alone behind ih =>
      exact ih (fun other member => tokens other (List.mem_cons_of_mem 45 member))
        (Nat.le_of_succ_le short)
  | @number sign digits line lexemes ending signed filled numeric fits ends behind ih =>
      rw [List.length_append] at short
      exact ih (fun other member => tokens other (List.mem_append_right _ member)) (by omega)
  | @quoted text line lexemes ending inside fits behind ih =>
      rw [List.length_cons, List.length_append, List.length_cons] at short
      exact ih (fun other member => tokens other (List.mem_cons_of_mem 34
        (List.mem_append_right _ (List.mem_cons_of_mem 34 member)))) (by omega)
  | unclosed inside fits => rfl
  | @cut text line c lexemes ending inside full other behind ih =>
      rw [List.length_cons, List.length_append, List.length_cons] at short
      exact ih (fun other member => tokens other (List.mem_cons_of_mem 34
        (List.mem_append_right _ (List.mem_cons_of_mem c member)))) (by omega)
  | @word c more line lexemes ending begins goesOn fits ends behind ih =>
      rw [List.length_cons, List.length_append] at short
      exact ih (fun other member => tokens other (List.mem_cons_of_mem c
        (List.mem_append_right _ member))) (by omega)
  | overlong begins goesOn long ends =>
      rw [List.length_cons] at long
      rw [List.length_cons, List.length_append] at short
      omega
  | @unexpected c line notWhite noMark noMinus noDigit noQuote noWord =>
      have token := tokens c List.mem_cons_self
      simp [beginsToken, notWhite, noMark, noMinus, noDigit, noQuote, noWord] at token

/-- A text of at most 70 characters, all of which begin tokens, is a remark. -/
def Remark.ofTokens (body : List UInt8) (tokens : body.all beginsToken = true)
    (short : body.length ≤ maxTokenLen) : Remark where
  body := body
  plain member := absurd (List.all_eq_true.mp tokens 10 member) (by decide)
  readable := by
    obtain ⟨lexemes, ending, reads⟩ := reads_total body
    obtain rfl := reads_tokens body lexemes ending reads (List.all_eq_true.mp tokens) short
    exact ⟨lexemes, reads⟩

/-! ### Reading a line -/

theorem remark_reads (gap : Gap) (remark? : Option Remark) :
    10 ∉ gap.text ++ remarkText remark? ∧
      ∃ lexemes, Reads (gap.text ++ remarkText remark?) lexemes .lineEnd ∧
        (lexemes = [] ∨ ∃ body, lexemes = ⟨.semiColon, none⟩ :: body ∧
          ∀ lexeme ∈ body, lexeme.token ≠ .newLine) := by
  cases remark? with
  | none =>
      have rest := reads_gap gap [] [] .lineEnd .done
      exact ⟨fun member => gap.noNewLine (by rwa [remarkText, List.append_nil] at member),
        [], rest, Or.inl rfl⟩
  | some remark =>
      obtain ⟨body, reads⟩ := remark.readable
      have whole := reads_gap gap (59 :: remark.body) _ _ (.mark rfl reads)
      refine ⟨fun member => ?_, ⟨.semiColon, none⟩ :: body, whole, Or.inr ⟨body, rfl, ?_⟩⟩
      · rcases List.mem_append.mp member with lead | member
        · exact gap.noNewLine lead
        rcases List.mem_cons.mp member with mark | inBody
        · exact absurd mark (by decide)
        · exact remark.plain inBody
      · exact fun lexeme member =>
          (reads_ofLine remark.body body _ reads remark.plain lexeme member).sameLine

theorem remark_ends (gap : Gap) (remark? : Option Remark) :
    ∀ next ∈ (gap.text ++ remarkText remark?).head?,
      isDigit next = false ∧ continuesWord next = false := by
  have mark : ∀ condition : UInt8 → Bool, condition 59 = false →
      ∀ next ∈ (remarkText remark?).head?, condition next = false := by
    intro condition fails
    cases remark? with
    | none => intro next none; cases none
    | some remark => exact CText.head_cons _ 59 remark.body fails
  intro next first
  exact ⟨gap_head isDigit gap _ isDigit_blank (mark isDigit rfl) next first,
    gap_head continuesWord gap _ continuesWord_blank (mark continuesWord rfl) next first⟩

theorem remark_fold (lexemes : List Lexeme) (loading : Loading)
    (outside : loading.state ≠ .inComment)
    (remark : lexemes = [] ∨ ∃ body, lexemes = ⟨.semiColon, none⟩ :: body ∧
      ∀ lexeme ∈ body, lexeme.token ≠ .newLine) :
    ∃ state, lexemes.foldlM onToken loading = .ok { loading with state := state } := by
  rcases remark with rfl | ⟨body, rfl, sameLine⟩
  · exact ⟨loading.state, rfl⟩
  · exact ⟨.inComment, fold_semiColon body loading outside sameLine⟩

theorem settingsLine_runs (line : SettingsLine) : RunsAs line.text line.pair? := by
  obtain ⟨pair?, gap, remark?⟩ := line
  obtain ⟨plain, lexemes, reads, remark⟩ := remark_reads gap remark?
  intro loading atStart
  cases pair? with
  | none =>
      obtain ⟨state, folded⟩ := remark_fold lexemes loading (by rw [atStart]; decide) remark
      exact ⟨{ loading with state := .waitKey }, rfl, rfl,
        line_step _ lexemes loading { loading with state := state } reads plain folded⟩
  | some pair =>
      have whole := reads_pair_append _ lexemes _ pair (remark_ends gap remark?) reads
      have nowhere : 10 ∉ pair.text ++ (gap.text ++ remarkText remark?) := fun member =>
        (List.mem_append.mp member).elim pair.noNewLine plain
      obtain ⟨state, folded⟩ := remark_fold lexemes
        ⟨.waitValue, some pair.key.text, insertPair loading.map pair⟩ nofun remark
      refine ⟨⟨.waitKey, some pair.key.text, insertPair loading.map pair⟩, rfl, rfl,
        line_step _ _ loading ⟨state, some pair.key.text, insertPair loading.map pair⟩ whole
          nowhere ?_⟩
      rw [List.foldlM_append, fold_pair pair loading atStart]
      exact folded

/-- Such a file, with at least one line, gives every key the value of its first setting. -/
theorem settings_load (lines : List SettingsLine) (filled : lines ≠ []) (heap : List UInt8) :
    ∃ map, loadFile heap (SettingsLine.file lines) OrderedMap.empty = .ok map ∧
      ∀ key, get map key = valueFor (SettingsLine.pairs lines) key :=
  lines_load SettingsLine.text SettingsLine.pair? settingsLine_runs lines filled heap

end Config

end AuthServer
