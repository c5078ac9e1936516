import WideRow.Value.Text

/-!
# Text literals

`Quoted.readLiteral?` reads a literal off the front of query text by the rule of the query language: a
quote opens it, a quote written twice stands for one, and a lone quote closes it.  The reader looks one
character ahead, so what follows a literal must not begin with a quote.  Under that condition it takes
exactly what was rendered for a text and yields the text (`Value.text_literal_closed`), so nothing inside
a text ends its literal.
-/

namespace WideRow

namespace Quoted

/-! ### Reading -/

/-- Reads from behind the opening quote to the closing one: the characters that are meant, and what
follows. -/
def readInside? : List Char → Option (List Char × List Char)
  | [] => none
  | '\'' :: '\'' :: rest => (readInside? rest).map fun taken => ('\'' :: taken.1, taken.2)
  | c :: rest =>
    if c = '\'' then some ([], rest)
    else (readInside? rest).map fun taken => (c :: taken.1, taken.2)

/-- Reads a literal from the front of query text: the text that is meant, and what follows. -/
def readLiteral? (query : String) : Option (String × String) :=
  match query.toList with
  | '\'' :: inside =>
    (readInside? inside).map fun taken => (String.ofList taken.1, String.ofList taken.2)
  | _ => none

/-- What may follow a literal: a further quote would belong to it. -/
def Unquoted (rest : List Char) : Prop := rest.head? ≠ some '\''

theorem readInside?_quote (rest : List Char) :
    readInside? ('\'' :: '\'' :: rest) =
      (readInside? rest).map fun taken => ('\'' :: taken.1, taken.2) := by
  rw [readInside?]

theorem readInside?_close {rest : List Char} (unquoted : Unquoted rest) :
    readInside? ('\'' :: rest) = some ([], rest) := by
  cases rest with
  | nil => rfl
  | cons c more =>
    have other : c ≠ '\'' := fun same => unquoted (congrArg some same)
    rw [readInside?, if_pos rfl]
    intro _ _ same
    exact other (List.head_eq_of_cons_eq same)

theorem readInside?_other {c : Char} (other : c ≠ '\'') (rest : List Char) :
    readInside? (c :: rest) = (readInside? rest).map fun taken => (c :: taken.1, taken.2) := by
  rw [readInside?, if_neg other]
  intro _ same _
  exact other same

/-- What is written for a text, with a closing quote behind it, is read as the text. -/
theorem readInside?_doubleQuotes (s : List Char) {rest : List Char} (unquoted : Unquoted rest) :
    readInside? (doubleQuotes s ++ '\'' :: rest) = some (s, rest) := by
  induction s with
  | nil => exact readInside?_close unquoted
  | cons c s ih =>
    rw [doubleQuotes]
    by_cases quote : c = '\''
    · rw [if_pos quote, quote, List.cons_append, List.cons_append, readInside?_quote, ih,
        Option.map_some]
    · rw [if_neg quote, List.cons_append, readInside?_other quote, ih, Option.map_some]

/-- What is read as a text was written for it. -/
theorem doubleQuotes_of_readInside? {input s rest : List Char}
    (taken : readInside? input = some (s, rest)) :
    input = doubleQuotes s ++ '\'' :: rest ∧ Unquoted rest := by
  fun_induction readInside? input generalizing s rest with
  | case1 => cases taken
  | case2 more ih =>
    obtain ⟨⟨t, behind⟩, inner, same⟩ := Option.map_eq_some_iff.mp taken
    cases same
    obtain ⟨written, unquoted⟩ := ih inner
    refine ⟨?_, unquoted⟩
    rw [doubleQuotes, if_pos rfl, written]
    rfl
  | case3 more lone =>
    cases taken
    refine ⟨rfl, ?_⟩
    intro first
    obtain ⟨behind, same⟩ := List.head?_eq_some_iff.mp first
    exact lone behind rfl same
  | case4 c more _ other ih =>
    obtain ⟨⟨t, behind⟩, inner, same⟩ := Option.map_eq_some_iff.mp taken
    cases same
    obtain ⟨written, unquoted⟩ := ih inner
    refine ⟨?_, unquoted⟩
    rw [doubleQuotes, if_neg other, written]
    rfl

theorem readInside?_eq_some {input s rest : List Char} :
    readInside? input = some (s, rest) ↔ input = doubleQuotes s ++ '\'' :: rest ∧ Unquoted rest := by
  constructor
  · exact doubleQuotes_of_readInside?
  · intro ⟨written, unquoted⟩
    rw [written, readInside?_doubleQuotes s unquoted]

/-! ### Whole literals -/

theorem toList_literal (s : String) :
    (literal s).toList = '\'' :: (doubleQuotes s.toList ++ ['\'']) := String.toList_ofList

/-- A text is read exactly where its literal stands and no further quote is behind it. -/
theorem readLiteral?_eq_some {query s rest : String} :
    readLiteral? query = some (s, rest) ↔ query = literal s ++ rest ∧ Unquoted rest.toList := by
  have written : query = literal s ++ rest ↔
      query.toList = '\'' :: (doubleQuotes s.toList ++ '\'' :: rest.toList) := by
    rw [← String.toList_inj, String.toList_append, toList_literal, List.cons_append, List.append_assoc]
    rfl
  rw [written]
  unfold readLiteral?
  split
  · rename_i inside opened
    rw [opened, List.cons_inj_right, ← readInside?_eq_some, Option.map_eq_some_iff]
    constructor
    · rintro ⟨taken, inner, same⟩
      cases same
      rw [inner, String.toList_ofList, String.toList_ofList]
    · intro inner
      exact ⟨_, inner, by rw [String.ofList_toList, String.ofList_toList]⟩
  · rename_i unopened
    exact iff_of_false nofun fun opened => unopened _ opened.1

end Quoted

/-- **A rendered text cannot be broken out of.**  Read off the front of query text, the literal of a text
is taken whole and yields the text, and what follows is left, unless that begins with a quote.  Nothing
else is read as the text, and different texts have different literals. -/
theorem Value.text_literal_closed :
    (∀ s rest : String, rest.toList.head? ≠ some '\'' →
      Quoted.readLiteral? ((Value.text s).sqlLiteral ++ rest) = some (s, rest)) ∧
    (∀ query s rest : String, Quoted.readLiteral? query = some (s, rest) →
      query = (Value.text s).sqlLiteral ++ rest ∧ rest.toList.head? ≠ some '\'') ∧
    ∀ s t : String, (Value.text s).sqlLiteral = (Value.text t).sqlLiteral → s = t := by
  refine ⟨fun s rest unquoted => Quoted.readLiteral?_eq_some.mpr ⟨rfl, unquoted⟩,
    fun query s rest taken => Quoted.readLiteral?_eq_some.mp taken, ?_⟩
  intro s t same
  have alone : ∀ u, Quoted.readLiteral? (Quoted.literal u ++ "") = some (u, "") :=
    fun _ => Quoted.readLiteral?_eq_some.mpr ⟨rfl, nofun⟩
  have taken := (alone s).symm.trans
    ((congrArg (fun written => Quoted.readLiteral? (written ++ "")) same).trans (alone t))
  cases taken
  rfl

/-- Quotes at the start, in the middle and at the end of a text. -/
theorem Value.text_literal_closed_quotes :
    (Value.text "' OR ''='").sqlLiteral = "''' OR ''''='''" ∧
      " AND b".toList.head? ≠ some '\'' ∧
      Quoted.readLiteral? ("''' OR ''''='''" ++ " AND b") = some ("' OR ''='", " AND b") := by
  have written : (Value.text "' OR ''='").sqlLiteral = "''' OR ''''='''" := by decide
  have unquoted : " AND b".toList.head? ≠ some '\'' := by decide
  have taken := text_literal_closed.1 "' OR ''='" " AND b" unquoted
  rw [written] at taken
  exact ⟨written, unquoted, taken⟩

end WideRow
