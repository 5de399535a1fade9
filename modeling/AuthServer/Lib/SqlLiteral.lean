/-
String literals in single quotes, as MySQL reads them.

Inside the quotes a backslash starts an escape sequence and two quotes stand for
one.  A text that is put between quotes as it is denotes itself exactly when
reading it changes nothing.
-/

import Mathlib.Data.List.Induction

set_option autoImplicit false

namespace SqlLiteral

def unescaped (c : UInt8) : List UInt8 :=
  if c = 48 then [0]
  else if c = 98 then [8]
  else if c = 110 then [10]
  else if c = 114 then [13]
  else if c = 116 then [9]
  else if c = 90 then [26]
  else if c = 37 ∨ c = 95 then [92, c]
  else [c]

/-- From behind the opening quote on: the string, and what is behind the literal. -/
def body : List UInt8 → Option (List UInt8 × List UInt8)
  | [] => none
  | [c] => if c = 39 then some ([], []) else none
  | c :: d :: rest =>
      if c = 92 then (body rest).map fun read => (unescaped d ++ read.1, read.2)
      else if c = 39 then
        if d = 39 then (body rest).map fun read => (39 :: read.1, read.2)
        else some ([], d :: rest)
      else (body (d :: rest)).map fun read => (c :: read.1, read.2)

/-- The text is one literal, and it stands for the string. -/
def Denotes : List UInt8 → List UInt8 → Prop
  | [], _ => False
  | quote :: inner, string => quote = 39 ∧ body inner = some (string, [])

/-- No quote, and every backslash in front of a character that keeps it. -/
def Verbatim : List UInt8 → Prop
  | [] => True
  | c :: rest => c ≠ 39 ∧ (c = 92 → rest.head? = some 37 ∨ rest.head? = some 95) ∧ Verbatim rest

def quoted (string : List UInt8) : List UInt8 := 39 :: (string ++ [39])

theorem unescaped_length (c : UInt8) :
    (unescaped c).length ≤ 2 ∧ ((unescaped c).length = 2 ↔ c = 37 ∨ c = 95) := by
  unfold unescaped
  by_cases keeps : c = 37 ∨ c = 95
  · rcases keeps with rfl | rfl
    · exact ⟨Nat.le_refl 2, iff_of_true rfl (Or.inl rfl)⟩
    · exact ⟨Nat.le_refl 2, iff_of_true rfl (Or.inr rfl)⟩
  · rw [if_neg keeps]
    split_ifs
    all_goals exact ⟨Nat.le_succ 1, iff_of_false (Nat.succ_ne_self 1).symm keeps⟩

theorem body_length (text : List UInt8) : ∀ string rest,
    body text = some (string, rest) → string.length + rest.length + 1 ≤ text.length := by
  induction text using List.twoStepInduction with
  | nil =>
      intro string rest read
      contradiction
  | singleton c =>
      intro string rest read
      rw [body] at read
      split at read
      · cases read
        exact Nat.le_refl 1
      · contradiction
  | cons_cons c d tail behind shorter =>
      intro string rest read
      rw [body] at read
      split at read
      · obtain ⟨⟨inner, left⟩, found, same⟩ := Option.map_eq_some_iff.mp read
        cases same
        have bound := behind inner left found
        have two := (unescaped_length d).1
        simp only [List.length_append, List.length_cons]
        omega
      · split at read
        · split at read
          · obtain ⟨⟨inner, left⟩, found, same⟩ := Option.map_eq_some_iff.mp read
            cases same
            have bound := behind inner left found
            simp only [List.length_cons]
            omega
          · cases read
            simp only [List.length_cons, List.length_nil]
            omega
        · obtain ⟨⟨inner, left⟩, found, same⟩ := Option.map_eq_some_iff.mp read
          cases same
          have bound := shorter d inner left found
          simp only [List.length_cons] at bound ⊢
          omega

theorem denotes_length (text string : List UInt8) (denotes : Denotes text string) :
    string.length + 2 ≤ text.length := by
  cases text with
  | nil => exact denotes.elim
  | cons quote inner =>
      have bound := body_length inner string [] denotes.2
      rw [List.length_cons]
      simp only [List.length_nil] at bound
      omega

theorem body_cons (c : UInt8) (rest : List UInt8) (quote : c ≠ 39) (slash : c ≠ 92) :
    body (c :: rest) = (body rest).map fun read => (c :: read.1, read.2) := by
  cases rest with
  | nil => exact if_neg quote
  | cons d tail => rw [body, if_neg slash, if_neg quote]

theorem body_slash_iff (d : UInt8) (string : List UInt8) :
    body (92 :: d :: (string ++ [39])) = some (92 :: d :: string, []) ↔
      (d = 37 ∨ d = 95) ∧ body (string ++ [39]) = some (string, []) := by
  rw [body, if_pos rfl]
  by_cases keeps : d = 37 ∨ d = 95
  · have both : unescaped d = [92, d] := by
      rcases keeps with rfl | rfl
      · rfl
      · rfl
    rw [both, and_iff_right keeps]
    constructor
    · intro read
      obtain ⟨⟨inner, left⟩, found, same⟩ := Option.map_eq_some_iff.mp read
      cases same
      exact found
    · intro read
      rw [read]
      rfl
  · refine iff_of_false (fun read => ?_) fun given => keeps given.1
    obtain ⟨⟨inner, left⟩, found, same⟩ := Option.map_eq_some_iff.mp read
    have bound := body_length _ inner left found
    have lengths := congrArg List.length (Prod.mk.inj same).1
    obtain ⟨two, exactly⟩ := unescaped_length d
    have one : (unescaped d).length ≠ 2 := fun full => keeps (exactly.mp full)
    simp only [List.length_append, List.length_cons, List.length_nil] at lengths bound
    omega

/-- A quote inside ends the literal, or stands for one of two. -/
theorem body_quote (string : List UInt8) :
    body (39 :: (string ++ [39])) ≠ some (39 :: string, []) := by
  intro read
  cases string with
  | nil => contradiction
  | cons d string =>
      rw [List.cons_append, body, if_neg (by decide), if_pos rfl] at read
      split at read
      · obtain ⟨⟨inner, left⟩, found, same⟩ := Option.map_eq_some_iff.mp read
        have bound := body_length _ inner left found
        have lengths := congrArg List.length (Prod.mk.inj same).1
        simp only [List.length_append, List.length_cons, List.length_nil] at lengths bound
        omega
      · cases read

/-- A string between quotes reads as itself exactly when it is verbatim. -/
theorem body_quoted_iff (string : List UInt8) :
    body (string ++ [39]) = some (string, []) ↔ Verbatim string := by
  induction string with
  | nil => exact iff_of_true rfl trivial
  | cons c string ih =>
      rw [Verbatim, List.cons_append]
      by_cases quote : c = 39
      · subst quote
        exact iff_of_false (body_quote string) fun given => given.1 rfl
      · by_cases slash : c = 92
        · subst slash
          rw [and_iff_right quote, ← ih]
          cases string with
          | nil =>
              refine iff_of_false (fun read => ?_) fun given => ?_
              · contradiction
              · rcases given.1 rfl with impossible | impossible
                · cases impossible
                · cases impossible
          | cons d string =>
              rw [List.cons_append, body_slash_iff]
              constructor
              · rintro ⟨keeps, read⟩
                have plain : d ≠ 39 ∧ d ≠ 92 := by
                  rcases keeps with rfl | rfl
                  · decide
                  · decide
                refine ⟨fun _ => keeps.imp (congrArg some) (congrArg some), ?_⟩
                rw [body_cons d _ plain.1 plain.2, read]
                rfl
              · rintro ⟨next, read⟩
                have keeps := (next rfl).imp Option.some.inj Option.some.inj
                have plain : d ≠ 39 ∧ d ≠ 92 := by
                  rcases keeps with rfl | rfl
                  · decide
                  · decide
                rw [body_cons d _ plain.1 plain.2] at read
                obtain ⟨⟨inner, left⟩, found, same⟩ := Option.map_eq_some_iff.mp read
                cases same
                exact ⟨keeps, found⟩
        · rw [body_cons c _ quote slash, and_iff_right quote, ← ih]
          constructor
          · intro read
            obtain ⟨⟨inner, left⟩, found, same⟩ := Option.map_eq_some_iff.mp read
            cases same
            exact ⟨fun isSlash => absurd isSlash slash, found⟩
          · intro given
            rw [given.2]
            rfl

theorem denotes_quoted_iff (string : List UInt8) :
    Denotes (quoted string) string ↔ Verbatim string := by
  rw [← body_quoted_iff]
  exact and_iff_right rfl

end SqlLiteral
