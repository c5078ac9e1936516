import Mathlib.Data.List.Forall2
import Mathlib.Data.List.Induction
import Mathlib.Data.List.Nodup
import WideRow.Projection
import WideRow.Proofs.Text.Utf8
import WideRow.Row.Tuple

/-!
# The columns of a projected row

A projected row knows its columns by their names.  Setting named values one after the other
(`ProjectedRow.collect`) leaves each name where it first stands, with the value that was last set for
it; so a projection keeps all its columns exactly when their names are distinct
(`Projection.Shows.keeps_iff_nodup`).  The name of a store column joins its family and its qualifier with a
dot, which does not always tell two columns apart: `Column.name_injective` says when it does.
Main statement: `Projection.columns_kept_iff`.
-/

namespace WideRow

/-! ### Each once -/

section

variable {α : Type} [BEq α] [LawfulBEq α]

theorem eraseDups_snoc (list : List α) (a : α) :
    (list ++ [a]).eraseDups = if a ∈ list then list.eraseDups else list.eraseDups ++ [a] := by
  rw [List.eraseDups_append, List.removeAll]
  by_cases known : a ∈ list
  · simp [known]
  · simp [known, List.eraseDups_cons]

theorem eraseDups_sublist (list : List α) : list.eraseDups.Sublist list := by
  induction list using List.reverseRecOn with
  | nil => simp
  | append_singleton front a ih =>
    rw [eraseDups_snoc]
    split
    · exact ih.trans (List.sublist_append_left front [a])
    · exact ih.append (List.Sublist.refl [a])

theorem nodup_eraseDups (list : List α) : list.eraseDups.Nodup := by
  induction list using List.reverseRecOn with
  | nil => simp
  | append_singleton front a ih =>
    rw [eraseDups_snoc]
    split
    · exact ih
    · next unknown =>
      have unseen : a ∉ front.eraseDups := fun seen => unknown (List.mem_eraseDups.mp seen)
      rw [← List.concat_eq_append]
      exact ih.concat unseen

/-- The members of a list are distinct if none is lost when each is kept once. -/
theorem nodup_of_length_eraseDups {list : List α}
    (same : list.eraseDups.length = list.length) : list.Nodup := by
  have all : list.eraseDups = list := (eraseDups_sublist list).eq_of_length same
  exact all ▸ nodup_eraseDups list

end

/-! ### Setting columns -/

namespace ProjectedRow

/-- The names of the columns, in order. -/
def names (row : ProjectedRow) : List String := row.columns.map Prod.fst

theorem setIn_of_not_mem {name : String} {columns : List (String × Value)} (value : Value)
    (unknown : name ∉ columns.map Prod.fst) :
    setIn name value columns = columns ++ [(name, value)] := by
  induction columns with
  | nil => rfl
  | cons column rest ih =>
    rw [List.map_cons, List.mem_cons, not_or] at unknown
    rw [setIn, if_neg (Ne.symm unknown.1), ih unknown.2, List.cons_append]

theorem map_fst_setIn {name : String} {columns : List (String × Value)} (value : Value)
    (known : name ∈ columns.map Prod.fst) :
    (setIn name value columns).map Prod.fst = columns.map Prod.fst := by
  induction columns with
  | nil => contradiction
  | cons column rest ih =>
    rw [setIn]
    split
    · rfl
    · next other =>
      have inside : name ∈ rest.map Prod.fst := (List.mem_cons.mp known).resolve_left (Ne.symm other)
      rw [List.map_cons, List.map_cons, ih inside]

theorem names_set (row : ProjectedRow) (name : String) (value : Value) :
    (row.set name value).names = if name ∈ row.names then row.names else row.names ++ [name] := by
  split
  · next known => exact map_fst_setIn value known
  · next unknown =>
    rw [names, set, setIn_of_not_mem value unknown, List.map_append]
    rfl

theorem get?_set_self (row : ProjectedRow) (name : String) (value : Value) :
    (row.set name value).get? name = some value := by
  obtain ⟨columns⟩ := row
  show ((setIn name value columns).find? fun column => column.1 == name).map _ = _
  induction columns with
  | nil => simp [setIn]
  | cons column rest ih =>
    rw [setIn]
    split
    · next same => simp [same]
    · next other => simpa [other] using ih

theorem get?_set_of_ne (row : ProjectedRow) {name other : String} (value : Value)
    (ne : name ≠ other) : (row.set name value).get? other = row.get? other := by
  obtain ⟨columns⟩ := row
  show ((setIn name value columns).find? fun column => column.1 == other).map _ =
    (columns.find? fun column => column.1 == other).map _
  induction columns with
  | nil => simp [setIn, ne]
  | cons column rest ih =>
    rw [setIn]
    split
    · next same => simp [same, ne]
    · by_cases found : column.1 = other
      · simp [found]
      · simpa [found] using ih

/-! ### Setting columns one after the other -/

/-- Sets named values, from the first to the last. -/
def setAll (row : ProjectedRow) (entries : List (String × Value)) : ProjectedRow :=
  entries.foldl (fun row entry => row.set entry.1 entry.2) row

/-- The row that named values make. -/
def collect (entries : List (String × Value)) : ProjectedRow := empty.setAll entries

theorem collect_snoc (entries : List (String × Value)) (entry : String × Value) :
    collect (entries ++ [entry]) = (collect entries).set entry.1 entry.2 :=
  List.foldl_append

/-- Each name stands where it is first set. -/
theorem names_collect (entries : List (String × Value)) :
    (collect entries).names = (entries.map Prod.fst).eraseDups := by
  induction entries using List.reverseRecOn with
  | nil => rfl
  | append_singleton front entry ih =>
    rw [collect_snoc, names_set, ih, List.map_append, List.map_singleton, eraseDups_snoc]
    simp only [List.mem_eraseDups]

/-- Nothing is lost of values under distinct names. -/
theorem collect_of_nodup {entries : List (String × Value)}
    (distinct : (entries.map Prod.fst).Nodup) : (collect entries).columns = entries := by
  induction entries using List.reverseRecOn with
  | nil => rfl
  | append_singleton front entry ih =>
    rw [List.map_append, List.map_singleton, List.nodup_append] at distinct
    obtain ⟨distinctFront, -, apart⟩ := distinct
    have unknown : entry.1 ∉ front.map Prod.fst := fun known =>
      apart entry.1 known entry.1 List.mem_cons_self rfl
    rw [collect_snoc, set, ih distinctFront]
    exact setIn_of_not_mem entry.2 unknown

theorem get?_setAll {row : ProjectedRow} {name : String} {entries : List (String × Value)}
    (unset : name ∉ entries.map Prod.fst) : (row.setAll entries).get? name = row.get? name := by
  induction entries generalizing row with
  | nil => rfl
  | cons entry rest ih =>
    rw [List.map_cons, List.mem_cons, not_or] at unset
    show ((row.set entry.1 entry.2).setAll rest).get? name = row.get? name
    rw [ih unset.2, get?_set_of_ne row entry.2 (Ne.symm unset.1)]

/-- The value last set for a name stays. -/
theorem get?_collect {before after : List (String × Value)} {name : String} (value : Value)
    (last : name ∉ after.map Prod.fst) :
    (collect (before ++ (name, value) :: after)).get? name = some value := by
  have stages : collect (before ++ (name, value) :: after) =
      ((collect before).set name value).setAll after := List.foldl_append
  rw [stages, get?_setAll last, get?_set_self]

end ProjectedRow

/-! ### Projections -/

namespace Projection

/-- The output row has all output columns of the projection, each with its value on the row, in
order. -/
structure Keeps (projection : Projection) (row : Row) (output : ProjectedRow) : Prop where
  size : output.size = projection.columnCount
  values : List.Forall₂ (fun column shown => column.expression.evaluate row = .ok shown.2)
    projection.columns output.columns

/-- The names of output columns beside their values on a row. -/
def Shows (row : Row) : List OutputColumn → List (String × Value) → Prop :=
  List.Forall₂ fun column entry =>
    column.name = entry.1 ∧ column.expression.evaluate row = .ok entry.2

theorem exists_shows {row : Row} {columns : List OutputColumn}
    (evaluated : ∀ column ∈ columns, ∃ value, column.expression.evaluate row = .ok value) :
    ∃ entries, Shows row columns entries := by
  induction columns with
  | nil => exact ⟨[], .nil⟩
  | cons column rest ih =>
    obtain ⟨value, found⟩ := evaluated column List.mem_cons_self
    obtain ⟨entries, others⟩ := ih fun column member => evaluated column (List.mem_cons_of_mem _ member)
    exact ⟨(column.name, value) :: entries, .cons ⟨rfl, found⟩ others⟩

theorem Shows.map_fst {row : Row} {columns : List OutputColumn} {entries : List (String × Value)}
    (shows : Shows row columns entries) : entries.map Prod.fst = columns.map OutputColumn.name := by
  induction shows with
  | nil => rfl
  | cons first others ih => rw [List.map_cons, List.map_cons, ih, first.1]

/-- Projecting sets the named values one after the other. -/
theorem Shows.projectFrom_eq {row : Row} {columns : List OutputColumn}
    {entries : List (String × Value)} (shows : Shows row columns entries) (projected : ProjectedRow) :
    projectFrom row projected columns = .ok (projected.setAll entries) := by
  induction shows generalizing projected with
  | nil => rfl
  | @cons column entry rest entries first others ih =>
    rw [projectFrom, first.2, first.1]
    exact ih (projected.set entry.1 entry.2)

theorem Shows.split {row : Row} {column : OutputColumn} {before after : List OutputColumn}
    {entries : List (String × Value)} (shows : Shows row (before ++ column :: after) entries) :
    ∃ front value back, entries = front ++ (column.name, value) :: back ∧
      column.expression.evaluate row = .ok value ∧
      back.map Prod.fst = after.map OutputColumn.name := by
  induction before generalizing entries with
  | nil =>
    cases shows with
    | @cons _ entry _ back first others =>
      exact ⟨[], entry.2, back, by rw [first.1]; rfl, first.2, Shows.map_fst others⟩
  | cons earlier before ih =>
    cases shows with
    | @cons _ entry _ entries first others =>
      obtain ⟨front, value, back, rfl, found, names⟩ := ih others
      exact ⟨entry :: front, value, back, rfl, found, names⟩

/-- The columns are all kept exactly when their names are distinct. -/
theorem Shows.keeps_iff_nodup {row : Row} {columns : List OutputColumn}
    {entries : List (String × Value)} (shows : Shows row columns entries) :
    Keeps ⟨columns⟩ row (.collect entries) ↔ (columns.map OutputColumn.name).Nodup := by
  constructor
  · intro keeps
    apply nodup_of_length_eraseDups
    rw [← shows.map_fst, ← ProjectedRow.names_collect, ProjectedRow.names, List.length_map,
      List.length_map]
    exact keeps.size.trans (List.Forall₂.length_eq shows)
  · intro distinct
    rw [← shows.map_fst] at distinct
    have same := ProjectedRow.collect_of_nodup distinct
    refine ⟨?_, ?_⟩
    · rw [ProjectedRow.size, same]
      exact (List.Forall₂.length_eq shows).symm
    · rw [same]
      exact List.Forall₂.imp (fun _ _ both => both.2) shows

/-! ### Columns of the store -/

/-- The projection that shows columns of the store under their own names. -/
def ofColumns (columns : List Column) : Projection := ⟨columns.map OutputColumn.ofColumn⟩

end Projection

/-- What stands before the first dot. -/
theorem takeWhile_dot {front back : List Char} (none : '.' ∉ front) :
    (front ++ '.' :: back).takeWhile (fun c => c != '.') = front := by
  have plain : ∀ c ∈ front, (c != '.') = true := by
    intro c inside
    simp only [bne_iff_ne]
    intro same
    exact none (same ▸ inside)
  rw [List.takeWhile_append_of_pos plain, List.takeWhile_cons_of_neg (by decide), List.append_nil]

namespace Column

/-- Two references name different places of the store. -/
def Apart (a b : Column) : Prop := (a.family, a.qualifier) ≠ (b.family, b.qualifier)

/-- Family and qualifier are texts, and there is no dot in the family. -/
structure Plain (column : Column) : Prop where
  family : ∃ text, Utf8.decode? column.family = some text ∧ '.' ∉ text.toList
  qualifier : ∃ text, Utf8.decode? column.qualifier = some text

/-- The name of a plain column tells its place. -/
theorem name_injective {a b : Column} (plainA : a.Plain) (plainB : b.Plain)
    (same : a.name = b.name) : a.family = b.family ∧ a.qualifier = b.qualifier := by
  obtain ⟨⟨familyA, readFamilyA, dotA⟩, qualifierA, readQualifierA⟩ := plainA
  obtain ⟨⟨familyB, readFamilyB, dotB⟩, qualifierB, readQualifierB⟩ := plainB
  rw [name, name, Utf8.lossy_of_decode? readFamilyA, Utf8.lossy_of_decode? readFamilyB,
    Utf8.lossy_of_decode? readQualifierA, Utf8.lossy_of_decode? readQualifierB] at same
  have letters : familyA.toList ++ '.' :: qualifierA.toList =
      familyB.toList ++ '.' :: qualifierB.toList := by
    have spelled := congrArg String.toList same
    simpa using spelled
  have families : familyA = familyB := by
    apply String.toList_injective
    rw [← takeWhile_dot dotA, letters, takeWhile_dot dotB]
  have qualifiers : qualifierA = qualifierB := by
    apply String.toList_injective
    rw [families] at letters
    exact (List.cons.inj (List.append_cancel_left letters)).2
  constructor
  · rw [← Utf8.encode_of_decode? readFamilyA, families, Utf8.encode_of_decode? readFamilyB]
  · rw [← Utf8.encode_of_decode? readQualifierA, qualifiers, Utf8.encode_of_decode? readQualifierB]

theorem nodup_names {columns : List Column} (plain : ∀ column ∈ columns, column.Plain)
    (apart : columns.Pairwise Apart) : (columns.map name).Nodup := by
  rw [List.Nodup, List.pairwise_map]
  refine apart.imp_of_mem ?_
  intro a b memberA memberB different same
  obtain ⟨families, qualifiers⟩ := name_injective (plain a memberA) (plain b memberB) same
  exact different (by rw [families, qualifiers])

end Column

namespace Projection

/-- **Columns of different names are kept, and only they.**  Columns that can all be evaluated on a row
make an output row.  It has all of them, each with its own value and in order, exactly if their names
are distinct, as they are where the columns are apart and plain.  In general it has every name once,
where it first stands, with the value of the last column of that name: columns that share a name become
one, also when they are apart in the store. -/
theorem columns_kept_iff {columns : List Column} {row : Row}
    (evaluated : ∀ column ∈ columns, ∃ value, (Expr.column column).evaluate row = .ok value) :
    ∃ output, (ofColumns columns).project row = .ok output ∧
      ((ofColumns columns).Keeps row output ↔ (columns.map Column.name).Nodup) ∧
      ((∀ column ∈ columns, column.Plain) → columns.Pairwise Column.Apart →
        (ofColumns columns).Keeps row output) ∧
      output.names = (columns.map Column.name).eraseDups ∧
      ∀ before column after, columns = before ++ column :: after →
        column.name ∉ after.map Column.name →
        ∃ value, (Expr.column column).evaluate row = .ok value ∧
          output.get? column.name = some value := by
  have each : ∀ column ∈ columns.map OutputColumn.ofColumn,
      ∃ value, column.expression.evaluate row = .ok value := by
    intro column member
    obtain ⟨c, inside, rfl⟩ := List.mem_map.mp member
    exact evaluated c inside
  obtain ⟨entries, shows⟩ := exists_shows each
  have names : (columns.map OutputColumn.ofColumn).map OutputColumn.name = columns.map Column.name :=
    List.map_map
  have keeps := shows.keeps_iff_nodup
  rw [names] at keeps
  refine ⟨.collect entries, shows.projectFrom_eq .empty, keeps, ?_, ?_, ?_⟩
  · intro plain apart
    exact keeps.mpr (Column.nodup_names plain apart)
  · rw [ProjectedRow.names_collect, shows.map_fst, names]
  · rintro before column after rfl last
    rw [List.map_append, List.map_cons] at shows
    obtain ⟨front, value, back, rfl, found, later⟩ := shows.split
    refine ⟨value, found, ProjectedRow.get?_collect value ?_⟩
    rw [later, List.map_map]
    exact last

/-- The place `a.b` and `c` and the place `a` and `b.c`, which have one name. -/
def dottedColumns : List Column :=
  [⟨[97, 46, 98], [99], .boolean⟩, ⟨[97], [98, 46, 99], .boolean⟩]

/-- The row `r` as a record, with both columns, the first one true. -/
def dottedRow : Row :=
  Tuple.row ⟨Record.entry (Cell.bytes ⟨[114], [97], [98, 46, 99], Signed.zero 64, 4, [0]⟩) ++
    Record.entry (Cell.bytes ⟨[114], [97, 46, 98], [99], Signed.zero 64, 4, [1]⟩), 14, 1⟩

/-- Columns that are apart are lost. -/
theorem dotted_columns_merged :
    dottedColumns.Pairwise Column.Apart ∧
      (∀ column ∈ dottedColumns, ∃ value, (Expr.column column).evaluate dottedRow = .ok value) ∧
      (ofColumns dottedColumns).project dottedRow = .ok ⟨[("a.b.c", .boolean false)]⟩ ∧
      ¬ ∃ output, (ofColumns dottedColumns).project dottedRow = .ok output ∧
        (ofColumns dottedColumns).Keeps dottedRow output := by
  have apart : dottedColumns.Pairwise Column.Apart := by
    simp [dottedColumns, Column.Apart]
  have first : (Expr.column ⟨[97, 46, 98], [99], .boolean⟩).evaluate dottedRow =
      .ok (.boolean true) := by decide +kernel
  have second : (Expr.column ⟨[97], [98, 46, 99], .boolean⟩).evaluate dottedRow =
      .ok (.boolean false) := by decide +kernel
  have projected : (ofColumns dottedColumns).project dottedRow =
      .ok ⟨[("a.b.c", .boolean false)]⟩ := by decide +kernel
  refine ⟨apart, ?_, projected, ?_⟩
  · exact List.forall_mem_cons.mpr ⟨⟨_, first⟩, List.forall_mem_singleton.mpr ⟨_, second⟩⟩
  · rintro ⟨output, shown, keeps⟩
    rw [projected] at shown
    cases shown
    have size := keeps.size
    simp [ProjectedRow.size, ofColumns, columnCount, dottedColumns] at size

/-- The column `a` and `b.c`, which the row has, and the column `a` and `d`, which it has not. -/
def plainColumns : List Column := [⟨[97], [98, 46, 99], .boolean⟩, ⟨[97], [100], .boolean⟩]

theorem columns_kept_iff_plain :
    (∀ column ∈ plainColumns, ∃ value, (Expr.column column).evaluate dottedRow = .ok value) ∧
      ∃ output, (ofColumns plainColumns).project dottedRow = .ok output ∧
        (ofColumns plainColumns).Keeps dottedRow output := by
  have present : (Expr.column ⟨[97], [98, 46, 99], .boolean⟩).evaluate dottedRow =
      .ok (.boolean false) := by decide +kernel
  have absent : (Expr.column ⟨[97], [100], .boolean⟩).evaluate dottedRow = .ok .null := by
    decide +kernel
  have evaluated : ∀ column ∈ plainColumns,
      ∃ value, (Expr.column column).evaluate dottedRow = .ok value :=
    List.forall_mem_cons.mpr ⟨⟨_, present⟩, List.forall_mem_singleton.mpr ⟨_, absent⟩⟩
  have apart : plainColumns.Pairwise Column.Apart := by
    simp [plainColumns, Column.Apart]
  have family : ∃ text, Utf8.decode? [97] = some text ∧ '.' ∉ text.toList :=
    ⟨"a", by decide +kernel, by decide⟩
  have plain : ∀ column ∈ plainColumns, column.Plain := by
    refine List.forall_mem_cons.mpr ⟨⟨family, "b.c", ?_⟩, List.forall_mem_singleton.mpr
      ⟨family, "d", ?_⟩⟩
    · decide +kernel
    · decide +kernel
  obtain ⟨output, projected, -, keeps, -, -⟩ := columns_kept_iff evaluated
  exact ⟨evaluated, output, projected, keeps plain apart⟩

end Projection

end WideRow
