import Mathlib.Data.List.TakeWhile
import Mathlib.Data.Nat.Digits.Defs
import OpcUa.Proofs.Text.Digits
import OpcUa.Value.Integer

/-!
Decimal text of integers, as a grammar: blanks around at most one sign and a row of digits, where
the minus sign is known to the types with negative numbers. A text of the grammar is read as its
number by every type that holds it. The one other text that is read has a plus sign in front of the
minus sign, for the plus sign is dropped before the number is looked at.
-/

namespace OpcUa

namespace Text

/-- The text is this content with nothing but blanks around it. -/
def Encloses (text content : Octets) : Prop :=
  ∃ before after, (∀ octet ∈ before, isBlank octet = true) ∧
    (∀ octet ∈ after, isBlank octet = true) ∧ text = before ++ content ++ after

structure IsRow (digits : Octets) : Prop where
  nonempty : digits ≠ []
  decimals : AllDigits digits

/-- The sum of the digits, each times its power of ten. -/
def positional (digits : Octets) : Nat := Nat.ofDigits 10 (digits.reverse.map digitValue)

/-- A row of digits with at most one sign, and the number it denotes. -/
inductive Denotes (signed : Bool) : Octets → Int → Prop
  | bare {digits : Octets} (row : IsRow digits) : Denotes signed digits (positional digits)
  | plus {digits : Octets} (row : IsRow digits) :
      Denotes signed (0x2B :: digits) (positional digits)
  | minus {digits : Octets} (negative : signed = true) (row : IsRow digits) :
      Denotes signed (0x2D :: digits) (-(positional digits : Int))

/-- A plus sign and behind it a minus sign in front of a row of digits; the minus sign counts. -/
inductive DenotesBehindPlus (signed : Bool) : Octets → Int → Prop
  | intro {digits : Octets} (negative : signed = true) (row : IsRow digits) :
      DenotesBehindPlus signed (0x2B :: 0x2D :: digits) (-(positional digits : Int))

/-- The text spells the number with at most one sign. -/
def Spells (signed : Bool) (text : Octets) (number : Int) : Prop :=
  ∃ content, Encloses text content ∧ Denotes signed content number

/-- The text spells the number with both signs. -/
def SpellsBehindPlus (signed : Bool) (text : Octets) (number : Int) : Prop :=
  ∃ content, Encloses text content ∧ DenotesBehindPlus signed content number

variable {text content digits : Octets} {signed : Bool} {number : Int}

theorem digits_value_eq_positional (digits : Octets) : digitsValue digits = positional digits := by
  induction digits using List.reverseRecOn with
  | nil => rfl
  | append_singleton digits digit ih =>
      rw [digits_value_concat, ih, positional, positional, List.reverse_append,
        List.reverse_singleton, List.singleton_append, List.map_cons, Nat.ofDigits_cons]
      exact Nat.add_comm _ _

/-- Every text lies between blanks around what trimming leaves of it. -/
theorem encloses_trim (text : Octets) : Encloses text (trim text) := by
  refine ⟨text.takeWhile isBlank, ((text.dropWhile isBlank).reverse.takeWhile isBlank).reverse,
    fun octet => List.mem_takeWhile_imp, fun octet member => ?_, ?_⟩
  · exact List.mem_takeWhile_imp (List.mem_reverse.mp member)
  · unfold trim
    rw [List.append_assoc, ← List.reverse_append, List.takeWhile_append_dropWhile,
      List.reverse_reverse, List.takeWhile_append_dropWhile]

theorem drop_blanks {before rest : Octets} (blank : ∀ octet ∈ before, isBlank octet = true)
    (solid : ∀ octet ∈ rest.head?, isBlank octet = false) :
    (before ++ rest).dropWhile isBlank = rest := by
  rw [List.dropWhile_append_of_pos blank]
  cases rest with
  | nil => rfl
  | cons first rest => exact List.dropWhile_cons_of_neg (by simp [solid first rfl])

/-- Content without blanks is what trimming leaves of a text around it. -/
theorem trim_enclosed (solid : ∀ octet ∈ content, isBlank octet = false)
    (enclosed : Encloses text content) : trim text = content := by
  obtain ⟨before, after, leading, trailing, rfl⟩ := enclosed
  have trailing_reversed : ∀ octet ∈ after.reverse, isBlank octet = true :=
    fun octet member => trailing octet (List.mem_reverse.mp member)
  unfold trim
  rw [List.append_assoc, List.dropWhile_append_of_pos leading]
  cases content with
  | nil =>
      have none : ([] ++ after).dropWhile isBlank = [] := List.dropWhile_eq_nil_iff.mpr trailing
      rw [none]
      rfl
  | cons first rest =>
      have kept : ((first :: rest) ++ after).dropWhile isBlank = (first :: rest) ++ after :=
        List.dropWhile_cons_of_neg (by simp [solid first List.mem_cons_self])
      have last : ∀ octet ∈ (first :: rest).reverse.head?, isBlank octet = false :=
        fun octet found => solid octet (List.mem_reverse.mp (List.mem_of_mem_head? found))
      rw [kept, List.reverse_append, drop_blanks trailing_reversed last, List.reverse_reverse]

theorem IsRow.solid (row : IsRow digits) : ∀ octet ∈ digits, isBlank octet = false :=
  fun octet member => (digit_facts (row.decimals octet member)).1

/-- A row of digits begins with none of the signs. -/
theorem IsRow.begins (row : IsRow digits) :
    ∃ first rest, digits = first :: rest ∧ first ≠ 0x2B ∧ first ≠ 0x2D := by
  obtain ⟨first, rest, rfl⟩ := List.exists_cons_of_ne_nil row.nonempty
  obtain ⟨_, plus, minus, _⟩ := digit_facts (row.decimals first List.mem_cons_self)
  exact ⟨first, rest, rfl, plus, minus⟩

theorem Denotes.solid (denotes : Denotes signed content number) :
    ∀ octet ∈ content, isBlank octet = false := by
  cases denotes with
  | bare row => exact row.solid
  | plus row => exact List.forall_mem_cons.mpr ⟨by decide, row.solid⟩
  | minus _ row => exact List.forall_mem_cons.mpr ⟨by decide, row.solid⟩

theorem DenotesBehindPlus.solid (denotes : DenotesBehindPlus signed content number) :
    ∀ octet ∈ content, isBlank octet = false := by
  obtain ⟨_, row⟩ := denotes
  exact List.forall_mem_cons.mpr ⟨by decide, List.forall_mem_cons.mpr ⟨by decide, row.solid⟩⟩

theorem parse_digits_iff {value : Nat} :
    parseDigits? digits = some value ↔ IsRow digits ∧ value = positional digits := by
  unfold parseDigits?
  rw [← digits_value_eq_positional]
  constructor
  · intro parsed
    obtain ⟨⟨nonempty, decimals⟩, same⟩ := Option.ite_none_right_eq_some.mp parsed
    exact ⟨⟨nonempty, List.all_eq_true.mp decimals⟩, (Option.some.inj same).symm⟩
  · rintro ⟨row, rfl⟩
    rw [if_pos ⟨row.nonempty, List.all_eq_true.mpr row.decimals⟩]

theorem parse_signed_minus : parseSigned? signed (0x2D :: digits) = some number ↔
    signed = true ∧ IsRow digits ∧ number = -(positional digits : Int) := by
  have negated : parseSigned? signed (0x2D :: digits) =
      if signed then (parseDigits? digits).map fun value : Nat => -(value : Int) else none := by
    simp only [parseSigned?]
    cases parseDigits? digits <;> rfl
  simp only [negated, Option.ite_none_right_eq_some, Option.map_eq_some_iff, parse_digits_iff]
  constructor
  · rintro ⟨negative, value, ⟨row, rfl⟩, rfl⟩
    exact ⟨negative, row, rfl⟩
  · rintro ⟨negative, row, rfl⟩
    exact ⟨negative, _, ⟨row, rfl⟩, rfl⟩

theorem parse_signed_plain (plain : ∀ rest, content ≠ 0x2D :: rest) :
    parseSigned? signed content = some number ↔
      IsRow content ∧ number = (positional content : Int) := by
  unfold parseSigned?
  split
  · exact absurd rfl (plain _)
  · simp only [Option.map_eq_some_iff, parse_digits_iff]
    constructor
    · rintro ⟨value, ⟨row, rfl⟩, rfl⟩
      exact ⟨row, rfl⟩
    · rintro ⟨row, rfl⟩
      exact ⟨_, ⟨row, rfl⟩, rfl⟩

/-- What is left of a text without blanks is read as a number with one sign, or with both. -/
theorem parse_signed_iff : parseSigned? signed (dropPlus content) = some number ↔
    Denotes signed content number ∨ DenotesBehindPlus signed content number := by
  constructor
  · intro parsed
    unfold dropPlus at parsed
    split at parsed
    · rename_i rest
      by_cases minus : ∃ digits, rest = 0x2D :: digits
      · obtain ⟨digits, rfl⟩ := minus
        obtain ⟨negative, row, rfl⟩ := parse_signed_minus.mp parsed
        exact .inr (.intro negative row)
      · obtain ⟨row, rfl⟩ := (parse_signed_plain fun digits same => minus ⟨digits, same⟩).mp parsed
        exact .inl (.plus row)
    · by_cases minus : ∃ digits, content = 0x2D :: digits
      · obtain ⟨digits, rfl⟩ := minus
        obtain ⟨negative, row, rfl⟩ := parse_signed_minus.mp parsed
        exact .inl (.minus negative row)
      · obtain ⟨row, rfl⟩ := (parse_signed_plain fun digits same => minus ⟨digits, same⟩).mp parsed
        exact .inl (.bare row)
  · have plain {digits : Octets} (row : IsRow digits) :
        parseSigned? signed digits = some (positional digits : Int) := by
      obtain ⟨first, rest, rfl, _, minus⟩ := row.begins
      exact (parse_signed_plain fun _ same => minus (List.cons.inj same).1).mpr ⟨row, rfl⟩
    rintro (denotes | denotes)
    · cases denotes with
      | bare row =>
          obtain ⟨first, rest, rfl, plus, _⟩ := row.begins
          have kept : dropPlus (first :: rest) = first :: rest := by
            unfold dropPlus
            split
            · exact absurd (List.cons.inj ‹_›).1 plus
            · rfl
          rw [kept]
          exact plain row
      | plus row => exact plain row
      | minus negative row => exact parse_signed_minus.mpr ⟨negative, row, rfl⟩
    · obtain ⟨negative, row⟩ := denotes
      exact parse_signed_minus.mpr ⟨negative, row, rfl⟩

/-- A grammar without blanks, of what trimming leaves of a text. -/
theorem trim_in_grammar_iff {grammar : Octets → Prop}
    (solid : ∀ content, grammar content → ∀ octet ∈ content, isBlank octet = false) :
    grammar (trim text) ↔ ∃ content, Encloses text content ∧ grammar content := by
  constructor
  · exact fun found => ⟨trim text, encloses_trim text, found⟩
  · rintro ⟨content, enclosed, found⟩
    rwa [trim_enclosed (solid content found) enclosed]

/-- No text has one sign and two. -/
theorem not_spells_behind_plus {other : Int} (spelled : Spells signed text number) :
    ¬SpellsBehindPlus signed text other := by
  intro both
  have content := (trim_in_grammar_iff fun _ => Denotes.solid).mpr spelled
  have behind := (trim_in_grammar_iff fun _ => DenotesBehindPlus.solid).mpr both
  generalize trim text = row at content behind
  obtain ⟨_, _⟩ := behind
  cases content with
  | bare row => exact absurd (row.decimals 0x2B List.mem_cons_self) (by decide)
  | plus row => exact absurd (row.decimals 0x2D List.mem_cons_self) (by decide)

theorem parse_integer_iff {low high : Int} : parseInteger? low high text = some number ↔
    (Spells (low < 0) text number ∨ SpellsBehindPlus (low < 0) text number) ∧
      low ≤ number ∧ number ≤ high := by
  have grammar : parseSigned? (low < 0) (dropPlus (trim text)) = some number ↔
      Spells (low < 0) text number ∨ SpellsBehindPlus (low < 0) text number :=
    parse_signed_iff.trans (or_congr (trim_in_grammar_iff fun _ => Denotes.solid)
      (trim_in_grammar_iff fun _ => DenotesBehindPlus.solid))
  rw [← grammar]
  unfold parseInteger?
  cases parseSigned? (low < 0) (dropPlus (trim text)) with
  | none => exact ⟨fun none => (nomatch none), fun found => (nomatch found.1)⟩
  | some value =>
      simp only [Option.ite_none_right_eq_some, Option.some.injEq]
      constructor
      · rintro ⟨within, rfl⟩
        exact ⟨rfl, within⟩
      · rintro ⟨rfl, within⟩
        exact ⟨within, rfl⟩

/-- A number from zero on that a word holds, read into the word. -/
theorem parse_into_word_iff {Word : Type} {ofNat : Nat → Word} {toNat : Word → Nat} {high : Nat}
    (back : ∀ word, ofNat (toNat word) = word) (fits : ∀ value ≤ high, toNat (ofNat value) = value)
    (word : Word) : (parseInteger? 0 high text).map (fun value => ofNat value.toNat) = some word ↔
      parseInteger? 0 high text = some (toNat word : Int) := by
  rw [Option.map_eq_some_iff]
  constructor
  · rintro ⟨value, parsed, rfl⟩
    obtain ⟨_, low, small⟩ := parse_integer_iff.mp parsed
    rw [fits value.toNat (by omega), Int.toNat_of_nonneg low]
    exact parsed
  · exact fun parsed => ⟨_, parsed, back word⟩

theorem parse_uint16_iff {number : UInt16} :
    parseUInt16? text = some number ↔ parseInteger? 0 0xFFFF text = some (number.toNat : Int) :=
  parse_into_word_iff (fun _ => UInt16.ofNat_toNat)
    (fun _ small => UInt16.toNat_ofNat_of_lt' (Nat.lt_succ_of_le small)) number

theorem parse_uint32_iff {number : UInt32} : parseUInt32? text = some number ↔
    parseInteger? 0 0xFFFFFFFF text = some (number.toNat : Int) :=
  parse_into_word_iff (fun _ => UInt32.ofNat_toNat)
    (fun _ small => UInt32.toNat_ofNat_of_lt' (Nat.lt_succ_of_le small)) number

end Text

namespace IntegerType

open Text

/-- The type has negative numbers. -/
def signed (type : IntegerType) : Bool := type.least < 0

def Holds (type : IntegerType) (number : Int) : Prop :=
  type.least ≤ number ∧ number ≤ type.greatest

/-- A text is read as a number exactly if it spells the number, with a single sign at most or with
a plus sign in front of the minus sign, and the type holds the number. So the numbers read are just
the decimal integers in range exactly if the text spells none in range with both signs. The numbers
in node identifiers are those of the unsigned types. -/
theorem parse_iff_spelled_in_range (type : IntegerType) (text : Octets) :
    (∀ number, type.parse? text = some number ↔
      (Spells type.signed text number ∨ SpellsBehindPlus type.signed text number) ∧
        type.Holds number) ∧
    ((∀ number, type.parse? text = some number ↔
        Spells type.signed text number ∧ type.Holds number) ↔
      ∀ number, SpellsBehindPlus type.signed text number → ¬type.Holds number) ∧
    (∀ number : UInt16,
      parseUInt16? text = some number ↔ uint16.parse? text = some (number.toNat : Int)) ∧
    ∀ number : UInt32,
      parseUInt32? text = some number ↔ uint32.parse? text = some (number.toNat : Int) := by
  have reading (number : Int) : type.parse? text = some number ↔
      (Spells type.signed text number ∨ SpellsBehindPlus type.signed text number) ∧
        type.Holds number := parse_integer_iff
  refine ⟨reading, ⟨fun single number both held => ?_, fun outside number => ?_⟩,
    fun number => parse_uint16_iff, fun number => parse_uint32_iff⟩
  · have spelled := ((single number).mp ((reading number).mpr ⟨.inr both, held⟩)).1
    exact not_spells_behind_plus spelled both
  · rw [reading]
    constructor
    · rintro ⟨spelled | both, held⟩
      · exact ⟨spelled, held⟩
      · exact absurd held (outside number both)
    · exact fun ⟨spelled, held⟩ => ⟨.inl spelled, held⟩

/-- The text is +42 between blanks. -/
theorem reads_plus_sign_between_blanks :
    let text := Octets.ascii [' ', '+', '4', '2', ' ']
    (∀ number, ¬SpellsBehindPlus int32.signed text number) ∧ int32.parse? text = some 42 ∧
      Spells int32.signed text 42 ∧ int32.Holds 42 := by
  intro text
  have single (number : Int) : ¬SpellsBehindPlus int32.signed text number := fun spelled => by
    have content : DenotesBehindPlus int32.signed [0x2B, 0x34, 0x32] number :=
      (trim_in_grammar_iff fun _ => DenotesBehindPlus.solid).mpr spelled
    cases content
  have parsed : int32.parse? text = some 42 := by decide
  have claimed := (parse_iff_spelled_in_range int32 text).2.1.mpr fun number both =>
    absurd both (single number)
  exact ⟨single, parsed, (claimed 42).mp parsed⟩

/-- The text is +-5, which spells no number with one sign. -/
theorem reads_minus_sign_behind_plus_sign :
    let text := Octets.ascii ['+', '-', '5']
    int32.parse? text = some (-5) ∧ ¬∃ number, Spells int32.signed text number := by
  intro text
  refine ⟨by decide, ?_⟩
  rintro ⟨number, spelled⟩
  have content : Denotes int32.signed [0x2B, 0x2D, 0x35] number :=
    (trim_in_grammar_iff fun _ => Denotes.solid).mpr spelled
  cases content with
  | bare row => exact absurd (row.decimals 0x2B (by decide)) (by decide)
  | plus row => exact absurd (row.decimals 0x2D (by decide)) (by decide)

end IntegerType

end OpcUa
