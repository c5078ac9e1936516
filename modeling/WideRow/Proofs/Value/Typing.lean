import WideRow.Proofs.Number.Binary64
import WideRow.Value.Codec
import WideRow.Value.Order

/-!
# Values of a type

`Value.HasType` is the typing of values.  Decoding gives a value of the declared type or finds the record
malformed, a cast gives one of the target type, and two values of comparable types can be compared unless
one of them is not a number.

A fallible computation is described by `Fallible.Meets`: what holds of its result and which faults it
may end in.
-/

namespace WideRow

/-! ### Results and faults -/

namespace Fallible

/-- The result is good, or the fault is one of those allowed. -/
def Meets {α : Type} (good : α → Prop) (allowed : QueryFault → Prop) : Fallible α → Prop
  | .ok a => good a
  | .error fault => allowed fault

variable {α β : Type} {good : α → Prop} {next : β → Prop} {allowed more : QueryFault → Prop}

theorem Meets.bind {result : Fallible α} {f : α → Fallible β} (first : Meets good allowed result)
    (then_ : ∀ a, good a → Meets next allowed (f a)) : Meets next allowed (result >>= f) := by
  cases result with
  | ok a => exact then_ a first
  | error fault => exact first

theorem Meets.mono {better : α → Prop} {result : Fallible α} (meets : Meets good allowed result)
    (results : ∀ a, good a → better a) (faults : ∀ fault, allowed fault → more fault) :
    Meets better more result := by
  cases result with
  | ok a => exact results a meets
  | error fault => exact faults fault meets

theorem Meets.of_ok {result : Fallible α} {a : α} (meets : Meets good allowed result)
    (answer : result = .ok a) : good a := by
  rw [answer] at meets
  exact meets

theorem Meets.of_error {result : Fallible α} {fault : QueryFault}
    (meets : Meets good allowed result) (answer : result = .error fault) : allowed fault := by
  rw [answer] at meets
  exact meets

theorem bind_eq_ok {result : Fallible α} {f : α → Fallible β} {b : β} :
    result >>= f = .ok b ↔ ∃ a, result = .ok a ∧ f a = .ok b := by
  constructor
  · intro answer
    cases result with
    | ok a => exact ⟨a, rfl, answer⟩
    | error fault => cases answer
  · intro ⟨a, first, second⟩
    rw [first]
    exact second

theorem bind_eq_error {result : Fallible α} {f : α → Fallible β} {fault : QueryFault} :
    result >>= f = .error fault ↔
      result = .error fault ∨ ∃ a, result = .ok a ∧ f a = .error fault := by
  constructor
  · intro answer
    cases result with
    | ok a => exact .inr ⟨a, rfl, answer⟩
    | error cause =>
      injection answer with same
      exact .inl (congrArg _ same)
  · intro answer
    rcases answer with first | ⟨a, first, second⟩
    · rw [first]
      rfl
    · rw [first]
      exact second

theorem orOverflow_eq_ok {held : Option α} {a : α} : orOverflow held = .ok a ↔ held = some a := by
  cases held with
  | some b =>
    show Except.ok b = Except.ok a ↔ _
    rw [Except.ok.injEq, Option.some.injEq]
  | none => exact iff_of_false nofun nofun

theorem orOverflow_eq_error {held : Option α} {fault : QueryFault} :
    orOverflow held = .error fault ↔ held = none ∧ fault = .numeric .overflow := by
  cases held with
  | some b => exact iff_of_false nofun nofun
  | none =>
    show Except.error (QueryFault.numeric .overflow) = Except.error fault ↔ _
    rw [Except.error.injEq, eq_self_iff_true, true_and]
    exact eq_comm

theorem ofNumeric_eq_ok {result : Except NumericFault α} {a : α} :
    ofNumeric result = .ok a ↔ result = .ok a := by
  cases result with
  | ok b =>
    show Except.ok b = Except.ok a ↔ _
    rw [Except.ok.injEq, Except.ok.injEq]
  | error cause => exact iff_of_false nofun nofun

theorem ofRecord_eq_ok {result : Except RecordFault α} {a : α} :
    ofRecord result = .ok a ↔ result = .ok a := by
  cases result with
  | ok b =>
    show Except.ok b = Except.ok a ↔ _
    rw [Except.ok.injEq, Except.ok.injEq]
  | error cause => exact iff_of_false nofun nofun

/-- Exact arithmetic ends in no other faults. -/
def IsNumeric (fault : QueryFault) : Prop := ∃ cause, fault = .numeric cause

/-- Reading stored bytes ends in no other faults. -/
def IsMalformed (fault : QueryFault) : Prop := ∃ cause, fault = .malformedRecord cause

/-- An exact result that does not fit ends in no other fault. -/
def IsOverflow (fault : QueryFault) : Prop := fault = .numeric .overflow

theorem IsOverflow.isNumeric {fault : QueryFault} (overflow : IsOverflow fault) : IsNumeric fault :=
  ⟨.overflow, overflow⟩

theorem overflows_orOverflow (held : Option α) :
    Meets (fun a => held = some a) IsOverflow (orOverflow held) := by
  cases held with
  | some a => exact rfl
  | none => exact rfl

theorem meets_orOverflow (held : Option α) :
    Meets (fun a => held = some a) IsNumeric (orOverflow held) :=
  (overflows_orOverflow held).mono (fun _ same => same) fun _ overflow => overflow.isNumeric

theorem meets_ofNumeric (result : Except NumericFault α) :
    Meets (fun a => result = .ok a) IsNumeric (ofNumeric result) := by
  cases result with
  | ok a => exact rfl
  | error cause => exact ⟨cause, rfl⟩

theorem meets_ofRecord (result : Except RecordFault α) :
    Meets (fun a => result = .ok a) IsMalformed (ofRecord result) := by
  cases result with
  | ok a => exact rfl
  | error cause => exact ⟨cause, rfl⟩

end Fallible

/-! ### Comparing numbers -/

theorem Decimal.compare?_ne_none {left right : Unscaled} {leftScale rightScale : Nat}
    (leftSmall : leftScale < 256) (rightSmall : rightScale < 256) :
    Decimal.compare? left leftScale right rightScale ≠ none := by
  have leftNumber : (toDouble left leftScale).isNaN = false :=
    isNaN_toDouble left (by omega)
  have rightNumber : (toDouble right rightScale).isNaN = false :=
    isNaN_toDouble right (by omega)
  simp only [Decimal.compare?]
  split
  · exact Option.some_ne_none _
  · rw [Binary64.compare?, leftNumber, rightNumber]
    exact Option.some_ne_none _

theorem Binary64.isNaN_of_compare? {x y : Binary64} (none_ : x.compare? y = none) :
    x.isNaN = true ∨ y.isNaN = true := by
  simp only [Binary64.compare?] at none_
  split at none_
  · rename_i nan
    exact Bool.or_eq_true_iff.mp nan
  · cases none_

namespace Value

open Fallible

/-! ### The typing of values -/

/-- A value is of a type.  Stored scales fill a byte. -/
inductive HasType : Value → DataType → Prop
  | integer (n : Signed 64) : HasType (integer n) .integer
  | bigInt (n : Signed 64) : HasType (integer n) .bigInt
  | decimal (unscaled : Unscaled) {scale : Nat} (small : scale < 256)
      (precision declared : Option Nat) :
      HasType (decimal unscaled scale) (.decimal precision declared)
  | double (x : Binary64) : HasType (float x) .double
  | varchar (s : String) : HasType (text s) .varchar
  | boolean (b : Bool) : HasType (boolean b) .boolean

theorem HasType.isNull {value : Value} {type : DataType} (typed : HasType value type) :
    value.isNull = false := by
  cases typed <;> rfl

theorem HasType.eq_boolean {value : Value} (typed : HasType value .boolean) :
    ∃ b, value = .boolean b := by
  cases typed with
  | boolean b => exact ⟨b, rfl⟩

/-- Whether a value is a double that is not a number. -/
def isNaN : Value → Bool
  | float x => x.isNaN
  | _ => false

theorem HasType.eq_double_of_isNaN {value : Value} {type : DataType} (typed : HasType value type)
    (nan : value.isNaN = true) : type = .double := by
  cases typed with
  | double x => rfl
  | integer n => cases nan
  | bigInt n => cases nan
  | decimal unscaled small precision declared => cases nan
  | varchar s => cases nan
  | boolean b => cases nan

theorem hasType_of_naturalType? {value : Value} {type : DataType}
    (small : ∀ unscaled scale, value = .decimal unscaled scale → scale < 256)
    (natural : value.naturalType? = some type) : HasType value type := by
  cases value with
  | null => cases natural
  | integer n =>
    simp only [naturalType?] at natural
    split at natural
    · injection natural with same
      exact same ▸ .integer n
    · injection natural with same
      exact same ▸ .bigInt n
  | float x =>
    injection natural with same
    exact same ▸ .double x
  | decimal unscaled scale =>
    injection natural with same
    exact same ▸ .decimal unscaled (small unscaled scale rfl) _ _
  | text s =>
    injection natural with same
    exact same ▸ .varchar s
  | boolean b =>
    injection natural with same
    exact same ▸ .boolean b

theorem null_of_naturalType? {value : Value} (untyped : value.naturalType? = none) :
    value = .null := by
  cases value with
  | null => rfl
  | integer n =>
    simp only [naturalType?] at untyped
    split at untyped <;> cases untyped
  | float x => cases untyped
  | decimal unscaled scale => cases untyped
  | text s => cases untyped
  | boolean b => cases untyped

/-! ### Stored values -/

theorem meets_checkLength (type : DataType) (expected : Nat) (bytes : Bytes) :
    Meets (fun _ => bytes.length = expected) IsMalformed (checkLength type expected bytes) := by
  simp only [checkLength]
  split
  · rename_i same
    exact same
  · exact ⟨_, rfl⟩

theorem meets_decodeBoolean (bytes : Bytes) :
    Meets (fun value => HasType value .boolean) IsMalformed (decodeBoolean bytes) := by
  simp only [decodeBoolean]
  split
  · exact .boolean false
  · exact .boolean true
  · exact ⟨_, rfl⟩
  · exact ⟨_, rfl⟩

theorem meets_decodeText (bytes : Bytes) :
    Meets (fun value => HasType value .varchar) IsMalformed (decodeText bytes) := by
  simp only [decodeText]
  split
  · exact .varchar _
  · exact ⟨_, rfl⟩

/-- Stored bytes hold a value of the column's type, or the record is malformed. -/
theorem meets_decode (bytes : Bytes) (type : DataType) :
    Meets (fun value => HasType value type) IsMalformed (decode bytes type) := by
  cases type with
  | integer => exact (meets_checkLength _ _ _).bind fun _ _ => .integer _
  | bigInt => exact (meets_checkLength _ _ _).bind fun _ _ => .bigInt _
  | decimal precision declared =>
    refine (meets_checkLength _ _ _).bind fun _ length => .decimal _ ?_ precision declared
    have small := Bytes.ofBigEndian_lt (bytes.take 1)
    rw [List.length_take, length] at small
    exact small
  | double => exact (meets_checkLength _ _ _).bind fun _ _ => .double _
  | varchar => exact meets_decodeText bytes
  | boolean => exact meets_decodeBoolean bytes

/-! ### Casts -/

theorem toInteger_eq_ok {bits : Nat} {n : Int} {result : Value}
    (answer : toInteger bits n = .ok result) :
    ∃ held : Signed 64, result = .integer held ∧ held.val = n ∧
      ∃ narrow : Signed bits, narrow.val = n := by
  simp only [toInteger] at answer
  split at answer
  · rename_i narrow held fits wide
    injection answer with same
    exact ⟨held, same.symm, Signed.val_of_ofInt? wide, narrow, Signed.val_of_ofInt? fits⟩
  · cases answer

theorem toDecimal_eq_ok {unscaled : Unscaled} {scale : Nat} {precision target : Option Nat}
    {result : Value} (answer : toDecimal unscaled scale precision target = .ok result) :
    ∃ held, result = .decimal held (min (target.getD scale) Decimal.maxDigits) ∧
      Decimal.rescale? unscaled scale (min (target.getD scale) Decimal.maxDigits) = some held ∧
      Decimal.checkDigits held precision = .ok () := by
  obtain ⟨held, rescaled, rest⟩ := bind_eq_ok.mp answer
  obtain ⟨_, checked, same⟩ := bind_eq_ok.mp rest
  injection same with same
  exact ⟨held, same.symm, orOverflow_eq_ok.mp rescaled, ofNumeric_eq_ok.mp checked⟩

/-- A value as a cast to the type leaves it: an integer in the range of its type, a decimal at the
declared scale and within the declared digits. -/
inductive Held : Value → DataType → Prop
  | integer (n : Signed 64) (low : -(Signed.half 32 : Int) ≤ n.val)
      (high : n.val < (Signed.half 32 : Int)) : Held (integer n) .integer
  | bigInt (n : Signed 64) : Held (integer n) .bigInt
  | decimal (unscaled : Unscaled) {scale : Nat} {precision declared : Option Nat}
      (small : scale ≤ Decimal.maxDigits)
      (place : ∀ target, declared = some target → scale = min target Decimal.maxDigits)
      (digits : Decimal.checkDigits unscaled precision = .ok ()) :
      Held (decimal unscaled scale) (.decimal precision declared)
  | double (x : Binary64) : Held (float x) .double
  | varchar (s : String) : Held (text s) .varchar
  | boolean (b : Bool) : Held (boolean b) .boolean

theorem Held.hasType {value : Value} {type : DataType} (held : Held value type) :
    HasType value type := by
  cases held with
  | integer n low high => exact .integer n
  | bigInt n => exact .bigInt n
  | decimal unscaled small place digits =>
    exact .decimal unscaled (Nat.lt_of_le_of_lt small (by decide)) _ _
  | double x => exact .double x
  | varchar s => exact .varchar s
  | boolean b => exact .boolean b

theorem held_of_toInteger {n : Int} {result : Value} (answer : toInteger 32 n = .ok result) :
    Held result .integer := by
  obtain ⟨held, same, wide, narrow, fits⟩ := toInteger_eq_ok answer
  have low := narrow.low
  have high := narrow.high
  rw [same]
  exact .integer held (by omega) (by omega)

theorem held_of_toDecimal {unscaled : Unscaled} {scale : Nat} {precision target : Option Nat}
    {result : Value} (answer : toDecimal unscaled scale precision target = .ok result) :
    Held result (.decimal precision target) := by
  obtain ⟨held, same, _, digits⟩ := toDecimal_eq_ok answer
  rw [same]
  refine .decimal held (Nat.min_le_right _ _) ?_ digits
  intro declared known
  rw [known]
  rfl

/-- A cast keeps a missing value and otherwise leaves a value of the target type. -/
theorem missing_or_held_of_cast {value result : Value} {type : DataType}
    (answer : value.cast type = .ok result) :
    (value = .null ∧ result = .null) ∨ Held result type := by
  simp only [cast] at answer
  split at answer
  · injection answer with same
    exact .inl ⟨rfl, same.symm⟩
  · exact .inr (held_of_toInteger answer)
  · injection answer with same
    exact .inr (same ▸ .bigInt _)
  · exact .inr (held_of_toDecimal answer)
  · injection answer with same
    exact .inr (same ▸ .double _)
  · obtain ⟨whole, _, answer⟩ := bind_eq_ok.mp answer
    exact .inr (held_of_toInteger answer)
  · obtain ⟨whole, _, answer⟩ := bind_eq_ok.mp answer
    obtain ⟨held, same, _⟩ := toInteger_eq_ok answer
    exact .inr (same ▸ .bigInt held)
  · exact .inr (held_of_toDecimal answer)
  · injection answer with same
    exact .inr (same ▸ .double _)
  · injection answer with same
    exact .inr (same ▸ .double _)
  · injection answer with same
    exact .inr (same ▸ .varchar _)
  · injection answer with same
    exact .inr (same ▸ .boolean _)
  · cases answer

theorem held_of_cast {value result : Value} {type : DataType}
    (answer : value.cast type = .ok result) : result = .null ∨ Held result type :=
  (missing_or_held_of_cast answer).imp_left And.right

/-! ### Comparisons -/

/-- Values of comparable types are in some order unless one of them is not a number. -/
theorem isNaN_of_compare? {left right : Value} {leftType rightType : DataType}
    (leftTyped : HasType left leftType) (rightTyped : HasType right rightType)
    (comparable : leftType.comparable rightType = true) (unordered : left.compare? right = none) :
    left.isNaN = true ∨ right.isNaN = true := by
  cases leftTyped with
  | integer n | bigInt n =>
    cases rightTyped with
    | integer m | bigInt m => cases unordered
    | decimal b small => exact absurd unordered (Decimal.compare?_ne_none (by decide) small)
    | double y =>
      have nan := Binary64.isNaN_of_compare? unordered
      rw [Binary64.isNaN_ofInt] at nan
      exact nan
    | varchar s => cases comparable
    | boolean b => cases comparable
  | decimal a leftSmall =>
    cases rightTyped with
    | integer m | bigInt m =>
      exact absurd unordered (Decimal.compare?_ne_none leftSmall (by decide))
    | decimal b small => exact absurd unordered (Decimal.compare?_ne_none leftSmall small)
    | double y =>
      have nan := Binary64.isNaN_of_compare? unordered
      rw [Decimal.isNaN_toDouble a (by omega)] at nan
      exact nan
    | varchar s => cases comparable
    | boolean b => cases comparable
  | double x =>
    cases rightTyped with
    | integer m | bigInt m =>
      have nan := Binary64.isNaN_of_compare? unordered
      rw [Binary64.isNaN_ofInt] at nan
      exact nan
    | decimal b small =>
      have nan := Binary64.isNaN_of_compare? unordered
      rw [Decimal.isNaN_toDouble b (by omega)] at nan
      exact nan
    | double y => exact Binary64.isNaN_of_compare? unordered
    | varchar s => cases comparable
    | boolean b => cases comparable
  | varchar s =>
    cases rightTyped with
    | varchar s' => cases unordered
    | integer m => cases comparable
    | bigInt m => cases comparable
    | decimal b small => cases comparable
    | double y => cases comparable
    | boolean b => cases comparable
  | boolean b =>
    cases rightTyped with
    | boolean b' => cases unordered
    | integer m => cases comparable
    | bigInt m => cases comparable
    | decimal b small => cases comparable
    | double y => cases comparable
    | varchar s => cases comparable

/-- A value is missing or of the type, if there is one. -/
def Inhabits (value : Value) (type : Option DataType) : Prop :=
  value = .null ∨ ∃ known, type = some known ∧ HasType value known

theorem Inhabits.hasType {value : Value} {type : Option DataType} (inhabits : Inhabits value type)
    (present : value.isNull = false) : ∃ known, type = some known ∧ HasType value known := by
  rcases inhabits with missing | typed
  · rw [missing] at present
    cases present
  · exact typed

theorem Inhabits.type_of_isNaN {value : Value} {type : Option DataType}
    (inhabits : Inhabits value type) (nan : value.isNaN = true) : type = some .double := by
  rcases inhabits with missing | ⟨known, same, typed⟩
  · rw [missing] at nan
    cases nan
  · rw [same, typed.eq_double_of_isNaN nan]

/-- A literal has the type that its value has by nature, or the type that it was cast to. -/
inductive LiteralOf : Value → Option DataType → Prop
  | natural {value : Value}
      (small : ∀ unscaled scale, value = .decimal unscaled scale → scale ≤ Decimal.maxDigits) :
      LiteralOf value value.naturalType?
  | missing (type : DataType) : LiteralOf .null (some type)
  | held {value : Value} {type : DataType} (held : Held value type) : LiteralOf value (some type)

theorem LiteralOf.inhabits {value : Value} {type : Option DataType}
    (literal : LiteralOf value type) : value.Inhabits type := by
  cases literal with
  | natural small =>
    cases natural : value.naturalType? with
    | none => exact .inl (null_of_naturalType? natural)
    | some type =>
      refine .inr ⟨type, rfl, hasType_of_naturalType? ?_ natural⟩
      intro unscaled scale same
      exact Nat.lt_of_le_of_lt (small unscaled scale same) (by decide)
  | missing type => exact .inl rfl
  | held held => exact .inr ⟨_, rfl, held.hasType⟩

/-- A comparison gives a boolean or a missing value, unless an operand is not a number. -/
theorem meets_compare (op : CompareOp) {left right : Value} {leftType rightType : Option DataType}
    (first : Inhabits left leftType) (second : Inhabits right rightType)
    (comparable : ∀ l r, leftType = some l → rightType = some r → l.comparable r = true) :
    Meets (fun value => Inhabits value (some .boolean))
      (fun fault => fault = .type (.incomparable left right) ∧
        (left.isNaN = true ∨ right.isNaN = true))
      (op.evaluate left right) := by
  unfold CompareOp.evaluate
  by_cases missing : (left.isNull || right.isNull) = true
  · rw [if_pos missing]
    exact .inl rfl
  rw [if_neg missing]
  rw [Bool.not_eq_true, Bool.or_eq_false_iff] at missing
  obtain ⟨l, leftKnown, leftTyped⟩ := first.hasType missing.1
  obtain ⟨r, rightKnown, rightTyped⟩ := second.hasType missing.2
  unfold order
  cases ordered : left.compare? right with
  | some o => exact .inr ⟨.boolean, rfl, .boolean _⟩
  | none =>
    exact ⟨rfl, isNaN_of_compare? leftTyped rightTyped
      (comparable l r leftKnown rightKnown) ordered⟩

end Value

end WideRow
