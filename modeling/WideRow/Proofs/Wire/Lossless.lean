import WideRow.Filter.Wire
import WideRow.KeyRange.Wire

/-!
# Filters and ranges on the wire

A reader `Reads` what a writer writes if it takes exactly the written bytes off the front of any input,
takes nothing else for them, and finds the end of the input in any proper beginning of them.  The three
parts together pass through a sequence of fields (`Wire.Reads.bind`), so a record is settled field by
field in the order in which it is read.

* `Wire.reads_bytes`, `Wire.reads_bool`, `Wire.reads_compareOp` : the kinds of fields.
* `ColumnFilter.reads`, `KeyRange.reads` : the two records.
* `Wire.filters_and_ranges_lossless` : sent and read back, the two are the same, whatever follows them;
  cut short they are refused, and no other bytes are read as them.
-/

namespace WideRow

/-! ### Little-endian numbers -/

namespace Bytes

theorem ofLittleEndian_lt (bytes : Bytes) : ofLittleEndian bytes < room bytes.length := by
  induction bytes with
  | nil => decide
  | cons b bs ih =>
    have digit : b.toNat < 256 := b.toNat_lt
    simp only [ofLittleEndian, List.length_cons, room]
    omega

/-- A byte string is what is written for the number that it writes. -/
theorem littleEndian_ofLittleEndian (bytes : Bytes) :
    littleEndian bytes.length (ofLittleEndian bytes) = bytes := by
  induction bytes with
  | nil => rfl
  | cons b bs ih =>
    have digit : b.toNat < 256 := b.toNat_lt
    have low : UInt8.ofNat (b.toNat + 256 * ofLittleEndian bs) = b := by
      refine UInt8.toNat_inj.mp ?_
      rw [UInt8.toNat_ofNat']
      omega
    have high : (b.toNat + 256 * ofLittleEndian bs) / 256 = ofLittleEndian bs := by omega
    rw [List.length_cons, littleEndian, ofLittleEndian, low, high, ih]

/-- The numbers of a width and the byte strings of that length correspond. -/
theorem littleEndian_eq_iff {width n : Nat} {bytes : Bytes} (length : bytes.length = width) :
    littleEndian width n = bytes ∧ n < room width ↔ n = ofLittleEndian bytes := by
  subst length
  constructor
  · intro ⟨written, small⟩
    rw [← written, ofLittleEndian_littleEndian]
    exact (Nat.mod_eq_of_lt small).symm
  · intro number
    rw [number]
    exact ⟨littleEndian_ofLittleEndian bytes, ofLittleEndian_lt bytes⟩

end Bytes

theorem CompareOp.index_of_ofIndex? {n : Nat} {op : CompareOp} (named : ofIndex? n = some op) :
    op.index = n := by
  have numbers : all.map index = List.range 6 := rfl
  have place : (all.map index)[n]? = some op.index := by
    rw [List.getElem?_map]
    exact congrArg (Option.map index) named
  rw [numbers, List.getElem?_eq_some_iff] at place
  obtain ⟨_, place⟩ := place
  rw [← place, List.getElem_range]

theorem CompareOp.index_eq_iff {n : Nat} {op : CompareOp} : op.index = n ↔ ofIndex? n = some op := by
  constructor
  · intro same
    rw [← same, ofIndex?_index]
  · exact index_of_ofIndex?

namespace Wire

variable {α β : Type}

/-! ### Readers of what is written -/

/-- The reader takes what the writer writes for a valid value, no more and no less, and takes nothing
else for one. -/
structure Reads (reader : Reader α) (write : α → Bytes) (Valid : α → Prop) : Prop where
  /-- What is written is read back, and what follows it is left. -/
  back : ∀ a, Valid a → ∀ rest, reader (write a ++ rest) = .ok (a, rest)
  /-- What is read was written. -/
  only : ∀ input a rest, reader input = .ok (a, rest) → Valid a ∧ input = write a ++ rest
  /-- Where what is written is cut short, the end of the input is met. -/
  short : ∀ a, Valid a → ∀ part, part <+: write a → part ≠ write a →
    reader part = .error .endOfInput

theorem bind_of_ok {first : Reader α} {next : α → Reader β} {input rest : Bytes} {a : α}
    (taken : first input = .ok (a, rest)) : (first >>= next) input = next a rest := by
  show (first input >>= fun taken => next taken.1 taken.2) = _
  rw [taken]
  rfl

theorem bind_of_error {first : Reader α} {next : α → Reader β} {input : Bytes} {cause : WireFault}
    (refused : first input = .error cause) : (first >>= next) input = .error cause := by
  show (first input >>= fun taken => next taken.1 taken.2) = _
  rw [refused]
  rfl

theorem bind_eq_ok {first : Reader α} {next : α → Reader β} {input rest : Bytes} {b : β}
    (answer : (first >>= next) input = .ok (b, rest)) :
    ∃ a between, first input = .ok (a, between) ∧ next a between = .ok (b, rest) := by
  cases taken : first input with
  | error cause =>
    rw [bind_of_error taken] at answer
    cases answer
  | ok pair =>
    rw [bind_of_ok taken] at answer
    exact ⟨pair.1, pair.2, rfl, answer⟩

/-- Bytes that are cut short are cut within their front or behind it. -/
theorem cut_append {front back part : Bytes} (beginning : part <+: front ++ back)
    (cut : part ≠ front ++ back) :
    (part <+: front ∧ part ≠ front) ∨
      ∃ others, part = front ++ others ∧ others <+: back ∧ others ≠ back := by
  rcases List.prefix_or_prefix_of_prefix beginning (List.prefix_append front back) with
    within | ⟨others, rfl⟩
  · by_cases all : part = front
    · refine .inr ⟨[], (all.trans (List.append_nil front).symm), List.nil_prefix, ?_⟩
      intro nothing
      exact cut (by rw [all, ← nothing, List.append_nil])
    · exact .inl ⟨within, all⟩
  · refine .inr ⟨others, rfl, (List.prefix_append_right_inj front).mp beginning, ?_⟩
    intro same
    exact cut (congrArg _ same)

namespace Reads

variable {reader : Reader α} {write other : α → Bytes} {Valid Good : α → Prop}

theorem congr (reads : Reads reader write Valid) (same : ∀ a, write a = other a)
    (valid : ∀ a, Valid a ↔ Good a) : Reads reader other Good := by
  obtain rfl : write = other := funext same
  obtain rfl : Valid = Good := funext fun a => propext (valid a)
  exact reads

/-- A reader that takes nothing has its value from what was read before. -/
theorem pure (a : α) : Reads (Pure.pure a) (fun _ => []) (fun b => b = a) where
  back := by
    intro b same rest
    rw [same]
    rfl
  only := by
    intro input b rest answer
    cases answer
    exact ⟨rfl, rfl⟩
  short := by
    intro b _ part beginning cut
    exact absurd (List.prefix_nil.mp beginning) cut

/-- A reader that refuses all input reads no value. -/
theorem throw (cause : WireFault) (write : α → Bytes) :
    Reads (MonadExcept.throw cause : Reader α) write (fun _ => False) where
  back := fun _ never _ => never.elim
  only := by
    intro input b rest answer
    cases answer
  short := fun _ never _ _ _ => never.elim

/-- A field in front of others.  What was read for the field is what the whole value has in it. -/
theorem bind {first : Reader α} {next : α → Reader β} {field : β → α} {front : α → Bytes}
    {others : β → Bytes} {Fits : α → Prop} {Whole : β → Prop} (head : Reads first front Fits)
    (fits : ∀ b, Whole b → Fits (field b))
    (tail : ∀ a, Fits a → Reads (next a) others (fun b => field b = a ∧ Whole b)) :
    Reads (first >>= next) (fun b => front (field b) ++ others b) Whole where
  back := by
    intro b whole rest
    have taken := head.back (field b) (fits b whole) (others b ++ rest)
    rw [List.append_assoc, bind_of_ok taken]
    exact (tail (field b) (fits b whole)).back b ⟨rfl, whole⟩ rest
  only := by
    intro input b rest answer
    obtain ⟨a, between, taken, left⟩ := bind_eq_ok answer
    obtain ⟨valid, input_⟩ := head.only input a between taken
    obtain ⟨⟨same, whole⟩, between_⟩ := (tail a valid).only between b rest left
    refine ⟨whole, ?_⟩
    rw [input_, between_, same, List.append_assoc]
  short := by
    intro b whole part beginning cut
    have valid := fits b whole
    rcases cut_append beginning cut with ⟨within, cut⟩ | ⟨left, rfl, within, cut⟩
    · exact bind_of_error (head.short (field b) valid part within cut)
    · rw [bind_of_ok (head.back (field b) valid left)]
      exact (tail (field b) valid).short b ⟨rfl, whole⟩ left within cut

end Reads

/-! ### Kinds of fields -/

/-- A byte string of a known length stands for itself. -/
theorem reads_take (count : Nat) : Reads (take count) id (fun bytes => bytes.length = count) where
  back := by
    intro bytes length rest
    have enough : ¬(bytes ++ rest).length < count := by
      rw [List.length_append]
      omega
    show (if (bytes ++ rest).length < count then _ else _) = _
    rw [if_neg enough]
    exact congrArg Except.ok (Prod.ext (List.take_left' length) (List.drop_left' length))
  only := by
    intro input bytes rest answer
    unfold take at answer
    split at answer
    · cases answer
    · rename_i enough
      cases answer
      refine ⟨?_, (List.take_append_drop count input).symm⟩
      rw [List.length_take]
      omega
  short := by
    intro bytes length part beginning cut
    have shorter : part.length < count := by
      rw [← length]
      exact Nat.lt_of_le_of_ne beginning.length_le fun same => cut (beginning.eq_of_length same)
    exact if_pos shorter

theorem reads_nat (width : Nat) :
    Reads (readNat width) (Bytes.littleEndian width) (fun n => n < Bytes.room width) := by
  have reads : Reads (readNat width) (fun n => Bytes.littleEndian width n ++ [])
      (fun n => n < Bytes.room width) := by
    refine (reads_take width).bind (fun n _ => Bytes.littleEndian_length width n) ?_
    intro bytes length
    exact (Reads.pure _).congr (fun _ => rfl) fun n => (Bytes.littleEndian_eq_iff length).symm
  exact reads.congr (fun n => List.append_nil _) fun n => Iff.rfl

/-- The length field of the byte string can count it, as it can any that is held in memory. -/
def Countable (bytes : Bytes) : Prop := bytes.length < Bytes.room 8

instance (bytes : Bytes) : Decidable (Countable bytes) := inferInstanceAs (Decidable (_ < _))

theorem reads_bytes : Reads readBytes ofBytes Countable := by
  refine (reads_nat 8).bind (fun bytes countable => countable) ?_
  intro length small
  refine (reads_take length).congr (fun bytes => rfl) fun bytes => ?_
  constructor
  · intro same
    exact ⟨same, lt_of_eq_of_lt same small⟩
  · exact And.left

theorem reads_bool : Reads readBool ofBool (fun _ => True) := by
  have reads : Reads readBool (fun b => Bytes.littleEndian 1 b.toNat ++ []) (fun _ => True) := by
    refine (reads_nat 1).bind (fun b _ => ?_) ?_
    · cases b <;> decide
    intro n _
    rcases n with _ | _ | other
    · exact (Reads.pure false).congr (fun _ => rfl) fun b => by cases b <;> decide
    · exact (Reads.pure true).congr (fun _ => rfl) fun b => by cases b <;> decide
    · -- no truth value is written as any other number
      refine (Reads.throw _ _).congr (fun _ => rfl) fun b => ?_
      cases b <;> simp
  exact reads.congr (fun b => by cases b <;> rfl) fun _ => Iff.rfl

theorem reads_compareOp : Reads readCompareOp (fun op => ofVariant op.index) (fun _ => True) := by
  have reads : Reads readCompareOp (fun op => ofVariant op.index ++ []) (fun _ => True) := by
    refine (reads_nat 4).bind (fun op _ => ?_) ?_
    · cases op <;> decide
    intro index _
    cases named : CompareOp.ofIndex? index with
    | some op =>
      refine (Reads.pure op).congr (fun _ => rfl) fun other => ?_
      rw [and_true, CompareOp.index_eq_iff, named, Option.some.injEq]
      exact eq_comm
    | none =>
      refine (Reads.throw _ _).congr (fun _ => rfl) fun other => ?_
      rw [and_true, CompareOp.index_eq_iff, named]
      exact iff_of_false id nofun
  exact reads.congr (fun op => List.append_nil _) fun _ => Iff.rfl

/-! ### Whole values -/

theorem parse_eq_ok {reader : Reader α} {write : α → Bytes} {Valid : α → Prop}
    (reads : Reads reader write Valid) {bytes : Bytes} {a : α} :
    parse reader bytes = .ok a ↔ Valid a ∧ write a <+: bytes := by
  constructor
  · intro answer
    unfold parse at answer
    split at answer
    · rename_i found rest taken
      cases answer
      obtain ⟨valid, input⟩ := reads.only bytes a rest taken
      exact ⟨valid, rest, input.symm⟩
    · cases answer
  · intro ⟨valid, rest, input⟩
    rw [parse, ← input, reads.back a valid rest]

theorem parse_of_short {reader : Reader α} {write : α → Bytes} {Valid : α → Prop}
    (reads : Reads reader write Valid) {part : Bytes} {a : α} (valid : Valid a)
    (beginning : part <+: write a) (cut : part ≠ write a) :
    parse reader part = .error (.serialization .endOfInput) := by
  rw [parse, reads.short a valid part beginning cut]

/-- The values of a kind survive the wire. -/
structure Lossless (toBytes : α → Bytes) (ofBytes : Bytes → Fallible α) (Sendable : α → Prop) :
    Prop where
  /-- What is sent is what arrives, whatever bytes follow it. -/
  readBack : ∀ a, Sendable a → ∀ rest, ofBytes (toBytes a ++ rest) = .ok a
  /-- What is cut short anywhere is refused for want of bytes. -/
  truncated : ∀ a, Sendable a → ∀ part, part <+: toBytes a → part ≠ toBytes a →
    ofBytes part = .error (.serialization .endOfInput)
  /-- What arrives was sent in the one form that it has. -/
  canonical : ∀ bytes a, ofBytes bytes = .ok a → Sendable a ∧ toBytes a <+: bytes

theorem Reads.lossless {reader : Reader α} {write : α → Bytes} {Valid : α → Prop}
    (reads : Reads reader write Valid) : Lossless write (parse reader) Valid where
  readBack := fun _ valid _ => (parse_eq_ok reads).mpr ⟨valid, List.prefix_append _ _⟩
  truncated := fun _ valid _ beginning cut => parse_of_short reads valid beginning cut
  canonical := fun _ _ answer => (parse_eq_ok reads).mp answer

end Wire

/-! ### The two records -/

/-- The byte strings of the filter can be sent behind their lengths. -/
structure ColumnFilter.Sendable (filter : ColumnFilter) : Prop where
  family : Wire.Countable filter.family
  qualifier : Wire.Countable filter.qualifier
  value : Wire.Countable filter.value

theorem ColumnFilter.reads : Wire.Reads reader toBytes Sendable := by
  have fields : Wire.Reads reader (fun filter => Wire.ofBytes filter.family ++
      (Wire.ofBytes filter.qualifier ++ (Wire.ofVariant filter.op.index ++
        (Wire.ofBytes filter.value ++ (Wire.ofBool filter.rejectMissing ++ []))))) Sendable := by
    refine Wire.reads_bytes.bind (fun _ sendable => sendable.family) fun family familyFits => ?_
    refine Wire.reads_bytes.bind (fun _ known => known.2.qualifier) fun qualifier qualifierFits => ?_
    refine Wire.reads_compareOp.bind (fun _ _ => trivial) fun op _ => ?_
    refine Wire.reads_bytes.bind (fun _ known => known.2.2.2.value) fun value valueFits => ?_
    refine Wire.reads_bool.bind (fun _ _ => trivial) fun rejectMissing _ => ?_
    -- the five fields that were read are those of one filter, and of no other
    refine (Wire.Reads.pure _).congr (fun _ => rfl) fun filter => ?_
    constructor
    · rintro rfl
      exact ⟨rfl, rfl, rfl, rfl, rfl, familyFits, qualifierFits, valueFits⟩
    · rintro ⟨rfl, rfl, rfl, rfl, rfl, _⟩
      rfl
  refine fields.congr (fun filter => ?_) fun _ => Iff.rfl
  simp only [toBytes, List.append_assoc, List.append_nil]

/-- The bounds of the range can be sent behind their lengths. -/
structure KeyRange.Sendable (range : KeyRange) : Prop where
  lower : Wire.Countable range.lower
  upper : Wire.Countable range.upper

theorem KeyRange.reads : Wire.Reads reader toBytes Sendable := by
  have fields : Wire.Reads reader (fun range => Wire.ofBytes range.lower ++
      (Wire.ofBool range.lowerInclusive ++ (Wire.ofBytes range.upper ++
        (Wire.ofBool range.upperInclusive ++ [])))) Sendable := by
    refine Wire.reads_bytes.bind (fun _ sendable => sendable.lower) fun lower lowerFits => ?_
    refine Wire.reads_bool.bind (fun _ _ => trivial) fun lowerInclusive _ => ?_
    refine Wire.reads_bytes.bind (fun _ known => known.2.2.upper) fun upper upperFits => ?_
    refine Wire.reads_bool.bind (fun _ _ => trivial) fun upperInclusive _ => ?_
    refine (Wire.Reads.pure _).congr (fun _ => rfl) fun range => ?_
    constructor
    · rintro rfl
      exact ⟨rfl, rfl, rfl, rfl, lowerFits, upperFits⟩
    · rintro ⟨rfl, rfl, rfl, rfl, _⟩
      rfl
  refine fields.congr (fun range => ?_) fun _ => Iff.rfl
  simp only [toBytes, List.append_assoc, List.append_nil]

/-- **Filters and ranges survive the wire.**  Whatever bytes follow it, a filter or a range arrives as it
was sent.  Cut short at any byte it is refused, for want of input.  And only what is sent arrives: bytes
that are read as a filter or a range begin with the one form that it is written in. -/
theorem Wire.filters_and_ranges_lossless :
    Lossless ColumnFilter.toBytes ColumnFilter.ofBytes ColumnFilter.Sendable ∧
      Lossless KeyRange.toBytes KeyRange.ofBytes KeyRange.Sendable :=
  ⟨ColumnFilter.reads.lossless, KeyRange.reads.lossless⟩

/-- A filter with an empty qualifier and a range that is open above, each with a byte behind it and with
its last byte missing. -/
theorem Wire.filters_and_ranges_lossless_lastByte :
    ∃ filter : ColumnFilter, ∃ range : KeyRange,
      filter = ⟨[99, 102], [], .greaterOrEqual, [128, 0, 0, 10], true⟩ ∧
      range = ⟨[1], true, [], false⟩ ∧ filter.Sendable ∧ range.Sendable ∧
      ColumnFilter.ofBytes (filter.toBytes ++ [7]) = .ok filter ∧
      KeyRange.ofBytes (range.toBytes ++ [7]) = .ok range ∧
      ColumnFilter.ofBytes filter.toBytes.dropLast = .error (.serialization .endOfInput) ∧
      KeyRange.ofBytes range.toBytes.dropLast = .error (.serialization .endOfInput) := by
  have filterSendable : ColumnFilter.Sendable ⟨[99, 102], [], .greaterOrEqual, [128, 0, 0, 10], true⟩ :=
    ⟨by decide, by decide, by decide⟩
  have rangeSendable : KeyRange.Sendable ⟨[1], true, [], false⟩ := ⟨by decide, by decide⟩
  obtain ⟨filters, ranges⟩ := filters_and_ranges_lossless
  refine ⟨_, _, rfl, rfl, filterSendable, rangeSendable, filters.readBack _ filterSendable [7],
    ranges.readBack _ rangeSendable [7], ?_, ?_⟩
  · exact filters.truncated _ filterSendable _ (List.dropLast_prefix _) (by decide)
  · exact ranges.truncated _ rangeSendable _ (List.dropLast_prefix _) (by decide)

end WideRow
