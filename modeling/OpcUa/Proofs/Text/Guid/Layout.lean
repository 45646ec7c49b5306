import OpcUa.Proofs.Text.Guid.Spelling

/-!
The layout of the text of identifiers. To read it is to look at its octets by their places: the
braces where there are any, the four hyphens, and eleven numbers that leave out no other place. All
of these places lie within the text.
-/

namespace OpcUa

/-- What comes of looking at places of a text: one of them may lie outside, the text may be refused,
or there is a result. -/
inductive Scan (Result : Type) where
  | outside
  | refused
  | done (result : Result)

namespace Scan

instance : Monad Scan where
  pure := .done
  bind first next :=
    match first with
    | .outside => .outside
    | .refused => .refused
    | .done result => next result

/-- A text that is refused, or a result; no place was outside. -/
def ofOption {Result : Type} : Option Result → Scan Result
  | none => .refused
  | some result => .done result

def octetAt (text : Octets) (place : Nat) : Scan UInt8 :=
  match text[place]? with
  | none => .outside
  | some octet => .done octet

/-- That many hexadecimal digits from a place on, read onto a number already read. -/
def digitsAt (text : Octets) (value place : Nat) : Nat → Scan Nat
  | 0 => pure value
  | width + 1 => do
      let octet ← octetAt text place
      let digit ← ofOption (Text.hexValue? octet)
      digitsAt text (16 * value + digit) (place + 1) width

/-- Numbers, each by its first place and how many digits it has. -/
def numbersAt (text : Octets) : List (Nat × Nat) → Scan (List Nat)
  | [] => pure []
  | (place, width) :: layout => do
      let number ← digitsAt text 0 place width
      let numbers ← numbersAt text layout
      return number :: numbers

def hyphensAt (text : Octets) : List Nat → Scan Unit
  | [] => pure ()
  | place :: places => do
      let octet ← octetAt text place
      if octet = 0x2D then hyphensAt text places else .refused

theorem of_option_inside {Result : Type} (result : Option Result) :
    ofOption result ≠ .outside := by
  cases result <;> exact fun outside => nomatch outside

end Scan

namespace Guid

open Text

/-- Where the numbers of an identifier stand, the last eight of them as octets. -/
def layout : List (Nat × Nat) :=
  [(0, 8), (9, 4), (14, 4), (19, 2), (21, 2), (24, 2), (26, 2), (28, 2), (30, 2), (32, 2), (34, 2)]

/-- The number that octets make up behind those of another number. -/
def appendOctets (value : Nat) (octets : List Nat) : Nat :=
  octets.foldl (fun value octet => 256 * value + octet) value

def ofNumbers? : List Nat → Option Guid
  | data1 :: data2 :: data3 :: octets =>
      if octets.length = 8 then
        some ⟨UInt32.ofNat data1, UInt16.ofNat data2, UInt16.ofNat data3,
          UInt64.ofNat (appendOctets 0 octets)⟩
      else none
  | _ => none

/-- The text between braces. They are looked for in a text of thirty-eight octets only. -/
def unbracedAt (text : Octets) : Scan Octets :=
  if text.length = 38 then do
    let first ← Scan.octetAt text 0
    if first = 0x7B then
      let last ← Scan.octetAt text 37
      if last = 0x7D then return (text.drop 1).take 36 else return text
    else return text
  else return text

def plainAt (text : Octets) : Scan Guid :=
  if text.length = 36 then do
    Scan.hyphensAt text hyphenPlaces
    let numbers ← Scan.numbersAt text layout
    Scan.ofOption (ofNumbers? numbers)
  else .refused

/-- An identifier from the octets at fixed places of its text. -/
def scan (text : Octets) : Scan Guid := do
  let text ← unbracedAt text
  plainAt text

/-- The numbers in parts of a text. -/
def numbersIn? (text : Octets) (parts : List (Nat × Nat)) : Option (List Nat) :=
  parts.mapM fun part => numberAt? text part.1 part.2

/-- Octets of two digits each, one behind the other. -/
def octetParts (place : Nat) : Nat → List (Nat × Nat)
  | 0 => []
  | count + 1 => (place, 2) :: octetParts (place + 2) count

variable {text : Octets} {place width : Nat}

/-! Reading by places. -/

theorem octet_at (inside : place < text.length) : Scan.octetAt text place = .done text[place] := by
  rw [Scan.octetAt, List.getElem?_eq_getElem inside]

theorem digits_at (value : Nat) (inside : place + width ≤ text.length) :
    Scan.digitsAt text value place width =
      .ofOption (parseHexOnto? value ((text.drop place).take width)) := by
  induction width generalizing value place with
  | zero => rfl
  | succ width ih =>
      rw [Scan.digitsAt, octet_at (by omega), List.drop_eq_getElem_cons (by omega),
        List.take_succ_cons, parseHexOnto?]
      cases known : hexValue? text[place] with
      | none => simp only [bind, known, Scan.ofOption]
      | some digit => simp only [bind, known, Scan.ofOption, ih _ (by omega : place + 1 + width ≤ _)]

theorem hyphens_at {places : List Nat} (inside : ∀ place ∈ places, place < text.length) :
    Scan.hyphensAt text places =
      if ∀ place ∈ places, text[place]? = some 0x2D then .done () else .refused := by
  induction places with
  | nil => rfl
  | cons place places ih =>
      obtain ⟨first, others⟩ := List.forall_mem_cons.mp inside
      rw [Scan.hyphensAt, octet_at first, ih others]
      simp only [bind, List.forall_mem_cons, List.getElem?_eq_getElem first, Option.some.injEq]
      by_cases hyphen : text[place] = 0x2D <;> simp [hyphen]

theorem numbers_in_cons (part : Nat × Nat) (parts : List (Nat × Nat)) :
    numbersIn? text (part :: parts) = (numberAt? text part.1 part.2).bind fun number =>
      (numbersIn? text parts).map (number :: ·) := by
  rw [numbersIn?, List.mapM_cons]
  cases numberAt? text part.1 part.2 with
  | none => rfl
  | some number => cases found : numbersIn? text parts <;> rw [numbersIn?] at found <;> simp [found]

/-- Digits are read the same one by one and in pairs. -/
theorem parse_octets (value place count : Nat) (inside : place + 2 * count ≤ text.length) :
    parseHexOnto? value ((text.drop place).take (2 * count)) =
      (numbersIn? text (octetParts place count)).map (appendOctets value) := by
  induction count generalizing value place with
  | zero => rfl
  | succ count ih =>
      have pair : (text.drop place).take (2 * (count + 1)) =
          (text.drop place).take 2 ++ (text.drop (place + 2)).take (2 * count) := by
        rw [← List.drop_drop, ← List.take_add, Nat.mul_succ, Nat.add_comm]
      rw [pair, parse_hex_append, parse_hex_onto, piece_length (by omega), octetParts,
        numbers_in_cons, numberAt?]
      cases parseHex? ((text.drop place).take 2) with
      | none => rfl
      | some octet =>
          simp only [Option.map_some, Option.bind_some, ih _ (place + 2) (by omega), Option.map_map]
          rfl

theorem numbers_in_append (parts others : List (Nat × Nat)) :
    numbersIn? text (parts ++ others) = (numbersIn? text parts).bind fun numbers =>
      (numbersIn? text others).map (numbers ++ ·) := by
  induction parts with
  | nil => cases found : numbersIn? text others <;> simp [numbersIn?, ← found]
  | cons part parts ih =>
      rw [List.cons_append, numbers_in_cons, numbers_in_cons, ih]
      cases numberAt? text part.1 part.2 with
      | none => rfl
      | some number => cases numbersIn? text parts <;> cases numbersIn? text others <;> rfl

theorem numbers_in_length {parts : List (Nat × Nat)} {numbers : List Nat}
    (found : numbersIn? text parts = some numbers) : numbers.length = parts.length := by
  induction parts generalizing numbers with
  | nil =>
      cases found
      rfl
  | cons part parts ih =>
      rw [numbers_in_cons] at found
      obtain ⟨number, _, others⟩ := Option.bind_eq_some_iff.mp found
      obtain ⟨rest, behind, rfl⟩ := Option.map_eq_some_iff.mp others
      rw [List.length_cons, List.length_cons, ih behind]

theorem append_octets_eq (value : Nat) (octets : List Nat) :
    appendOctets value octets = Nat.pow 256 octets.length * value + appendOctets 0 octets := by
  unfold appendOctets
  induction octets generalizing value with
  | nil => exact (Nat.one_mul value).symm
  | cons octet octets ih =>
      have wider : Nat.pow 256 (octets.length + 1) = Nat.pow 256 octets.length * 256 := rfl
      rw [List.foldl_cons, List.foldl_cons, ih (256 * value + octet), ih (256 * 0 + octet),
        List.length_cons, wider, Nat.mul_zero, Nat.zero_add, Nat.mul_add, Nat.mul_assoc]
      omega

theorem of_numbers_joined (data1 data2 data3 : Nat) {high low : List Nat}
    (two : high.length = 2) (six : low.length = 6) :
    ofNumbers? (data1 :: data2 :: data3 :: (high ++ low)) =
      some ⟨UInt32.ofNat data1, UInt16.ofNat data2, UInt16.ofNat data3,
        UInt64.ofNat (appendOctets 0 high * Nat.pow 2 48 + appendOctets 0 low)⟩ := by
  have eight : (high ++ low).length = 8 := by rw [List.length_append, two, six]
  have joined : appendOctets 0 (high ++ low) = appendOctets (appendOctets 0 high) low :=
    List.foldl_append
  rw [ofNumbers?, if_pos eight, joined, append_octets_eq, six, Nat.mul_comm]

/-- The numbers of the layout are those between the hyphens, the last two of them in octets. -/
theorem numbers_in_layout (size : text.length = 36)
    (hyphens : ∀ place ∈ hyphenPlaces, text[place]? = some 0x2D) :
    (numbersIn? text layout).bind ofNumbers? = parseUnbraced? text := by
  have parts : layout = (0, 8) :: (9, 4) :: (14, 4) :: (octetParts 19 2 ++ octetParts 24 6) := rfl
  have upper : numberAt? text 19 4 =
      (numbersIn? text (octetParts 19 2)).map (appendOctets 0) := parse_octets 0 19 2 (by omega)
  have lower : numberAt? text 24 12 =
      (numbersIn? text (octetParts 24 6)).map (appendOctets 0) := parse_octets 0 24 6 (by omega)
  apply Option.ext
  intro guid
  rw [parse_unbraced_iff, parts, numbers_in_cons, numbers_in_cons, numbers_in_cons,
    numbers_in_append, upper, lower]
  simp only [size, true_and, Option.bind_eq_some_iff, Option.map_eq_some_iff]
  constructor
  · rintro ⟨_, ⟨data1, first, _, ⟨data2, second, _, ⟨data3, third, _, ⟨high, fourth, low, fifth,
      rfl⟩, rfl⟩, rfl⟩, rfl⟩, made⟩
    rw [of_numbers_joined _ _ _ (numbers_in_length fourth) (numbers_in_length fifth)] at made
    exact ⟨hyphens, data1, data2, data3, _, _, first, second, third, ⟨high, fourth, rfl⟩,
      ⟨low, fifth, rfl⟩, (Option.some.inj made).symm⟩
  · rintro ⟨_, data1, data2, data3, _, _, first, second, third, ⟨high, fourth, rfl⟩,
      ⟨low, fifth, rfl⟩, rfl⟩
    exact ⟨_, ⟨data1, first, _, ⟨data2, second, _, ⟨data3, third, _, ⟨high, fourth, low, fifth, rfl⟩,
      rfl⟩, rfl⟩, rfl⟩,
      of_numbers_joined _ _ _ (numbers_in_length fourth) (numbers_in_length fifth)⟩

theorem numbers_at {parts : List (Nat × Nat)}
    (inside : ∀ part ∈ parts, part.1 + part.2 ≤ text.length) :
    Scan.numbersAt text parts = .ofOption (numbersIn? text parts) := by
  induction parts with
  | nil => rfl
  | cons part parts ih =>
      obtain ⟨first, others⟩ := List.forall_mem_cons.mp inside
      rw [Scan.numbersAt, digits_at 0 first, ih others, numbers_in_cons, ← parseHex?, ← numberAt?]
      cases numberAt? text part.1 part.2 with
      | none => rfl
      | some number => cases numbersIn? text parts <;> rfl

theorem plain_at (text : Octets) : plainAt text = .ofOption (parseUnbraced? text) := by
  unfold plainAt
  by_cases size : text.length = 36
  · have within : ∀ place ∈ hyphenPlaces, place < text.length := by
      rw [size]
      decide
    have inside : ∀ part ∈ layout, part.1 + part.2 ≤ text.length := by
      rw [size]
      decide
    rw [if_pos size, hyphens_at within, numbers_at inside]
    by_cases hyphens : ∀ place ∈ hyphenPlaces, text[place]? = some 0x2D
    · rw [if_pos hyphens, ← numbers_in_layout size hyphens]
      cases numbersIn? text layout <;> rfl
    · have refused : parseUnbraced? text = none :=
        Option.eq_none_iff_forall_ne_some.mpr fun guid read =>
          hyphens (parse_unbraced_iff.mp read).2.1
      rw [if_neg hyphens, refused]
      rfl
  · have refused : parseUnbraced? text = none :=
      Option.eq_none_iff_forall_ne_some.mpr fun guid read => size (parse_unbraced_iff.mp read).1
    rw [if_neg size, refused]
    rfl

theorem unbraced_at (text : Octets) : unbracedAt text = .done (dropBraces text) := by
  unfold unbracedAt
  by_cases size : text.length = 38
  · obtain ⟨first, rest, rfl⟩ := List.exists_cons_of_length_eq_add_one size
    have behind : rest.length = 37 := Nat.succ.inj size
    have last : rest.getLast? = rest[36]? := by
      rw [List.getLast?_eq_getElem?, behind]
    rw [List.getElem?_eq_getElem (by omega)] at last
    rw [if_pos size, octet_at (by omega), octet_at (by omega)]
    simp only [bind, pure, List.getElem_cons_zero, List.getElem_cons_succ]
    by_cases opening : first = 0x7B
    · subst opening
      have braces : dropBraces (0x7B :: rest) =
          if rest.length = 37 ∧ rest.getLast? = some 0x7D then rest.take 36 else 0x7B :: rest := rfl
      rw [if_pos rfl, braces, last]
      by_cases closing : rest[36] = 0x7D
      · rw [if_pos closing, if_pos ⟨behind, congrArg some closing⟩, List.drop_one, List.tail_cons]
      · rw [if_neg closing, if_neg fun closed => closing (Option.some.inj closed.2)]
    · have bare : dropBraces (first :: rest) = first :: rest := by
        unfold dropBraces
        split
        · rename_i same
          exact absurd (List.cons.inj same).1 opening
        · rfl
      rw [if_neg opening, bare]
  · rw [if_neg size, drop_braces_short size]
    rfl

/-- To look at the octets by their places is to read the text. -/
theorem scan_eq (text : Octets) : scan text = .ofOption (parse? text) := by
  rw [scan, unbraced_at]
  exact plain_at (dropBraces text)

/-- The text of every identifier is read as that identifier. A text is read exactly if it is plain or
a plain text in braces, and what it is read as is printed as the plain text in lower case. Reading by
places comes out the same for every text, and no place is outside of it. -/
theorem text_read_exactly :
    (∀ guid, parse? guid.text = some guid) ∧
    (∀ text, (∃ guid, parse? text = some guid) ↔
      ∃ plain, IsPlain plain ∧ (text = plain ∨ text = braced plain)) ∧
    (∀ text guid, parse? text = some guid ↔
      ∃ plain, IsPlain plain ∧ (text = plain ∨ text = braced plain) ∧
        guid.text = plain.map lowerCase) ∧
    ∀ text, scan text ≠ .outside ∧ scan text = .ofOption (parse? text) := by
  refine ⟨parse_text, ?_, fun _ _ => parse_iff, ?_⟩
  · intro text
    constructor
    · rintro ⟨guid, read⟩
      obtain ⟨plain, isPlain, shape, _⟩ := parse_iff.mp read
      exact ⟨plain, isPlain, shape⟩
    · rintro ⟨plain, isPlain, shape⟩
      obtain ⟨guid, read⟩ := isPlain.read
      exact ⟨guid, parse_iff.mpr ⟨plain, isPlain, shape, text_of_read read⟩⟩
  · intro text
    rw [scan_eq]
    exact ⟨Scan.of_option_inside _, rfl⟩

example :
    (parse? (Octets.ascii "\x7b72962B91-FA75-4AE6-8D28-B404DC7DAF63\x7d".toList)).map Guid.text =
      some (Octets.ascii "72962b91-fa75-4ae6-8d28-b404dc7daf63".toList) := by
  decide +kernel

end Guid

end OpcUa
