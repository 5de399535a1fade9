/-
One line of a block-list file: from its text to the record that is merged.

`Load` reads each octet by `strtol` into an `unsigned` and shifts it to its
place without looking at its size.  A line that is not an address is ignored,
and so is one whose exclusive end is not above its beginning.
-/

import AuthServer.IPList
import AuthServer.Lib.CText

set_option autoImplicit false

namespace AuthServer

open CText RangeTable

namespace CIPList

/-- What the four calls of `strtol` gave. -/
structure Octets where
  c1 : UInt32
  c2 : UInt32
  c3 : UInt32
  c4 : UInt32

def Octets.packed (octets : Octets) : UInt32 :=
  (octets.c1 <<< 24) ||| (octets.c2 <<< 16) ||| octets.c3 <<< 8 ||| octets.c4

def readOctet (ptr : List UInt8) : UInt32 × List UInt8 :=
  let number := strtol ptr
  (UInt32.ofInt number.1, number.2)

def readOctetDot (ptr : List UInt8) : Option (UInt32 × List UInt8) :=
  let octet := readOctet ptr
  if deref octet.2 ≠ 46 then none else some (octet.1, octet.2.tail)

def readOctets (ptr : List UInt8) : Option (Octets × List UInt8) := do
  let (c1, ptr) ← readOctetDot ptr
  let (c2, ptr) ← readOctetDot ptr
  let (c3, ptr) ← readOctetDot ptr
  let (c4, ptr) := readOctet ptr
  some (⟨c1, c2, c3, c4⟩, ptr)

def blanks : List UInt8 := [32, 9]

def parseLine (buf : List UInt8) : Option IPRecord := do
  let (octets, ptr) ← readOctets buf
  let ptr := skipSpan blanks ptr
  if deref ptr = 45 then
    let ptr := skipSpan blanks ptr.tail
    let (last, _) ← readOctets ptr
    some ⟨octets.packed, last.packed + 1⟩
  else
    some ⟨octets.packed,
      if octets.c4 = 0 then
        if octets.c3 = 0 then octets.packed + 0x10000 else octets.packed + 0x100
      else octets.packed + 1⟩

def loadLine (table : List IPRecord) (buf : List UInt8) : Option (List IPRecord) :=
  match parseLine buf with
  | none => some table
  | some record => loadRecord table record

def acceptLine (buf : List UInt8) : Option IPRecord :=
  (parseLine buf).filter fun record => record.begin < record.stop

theorem acceptLine_parsed (buf : List UInt8) (record : IPRecord)
    (parsed : parseLine buf = some record) :
    acceptLine buf = if record.begin < record.stop then some record else none := by
  rw [acceptLine, parsed, Option.filter_some]
  simp only [decide_eq_true_eq]

theorem loadLine_eq (table : List IPRecord) (buf : List UInt8) :
    loadLine table buf =
      match acceptLine buf with
      | none => some table
      | some record => merge table record := by
  unfold loadLine
  cases parsed : parseLine buf with
  | none =>
      rw [acceptLine, parsed]
      rfl
  | some record =>
      rw [acceptLine_parsed buf record parsed]
      simp only [loadRecord]
      by_cases improper : record.stop ≤ record.begin
      · rw [if_pos improper, if_neg (not_lt_of_ge improper)]
      · rw [if_neg improper, if_pos (lt_of_not_ge improper)]

/-! ### The lines of the format -/

structure Dotted where
  a : Numeral
  b : Numeral
  c : Numeral
  d : Numeral

def Dotted.text (quad : Dotted) : List UInt8 :=
  quad.a.text ++ 46 :: (quad.b.text ++ 46 :: (quad.c.text ++ 46 :: quad.d.text))

def Dotted.InRange (quad : Dotted) : Prop :=
  quad.a.value ≤ 255 ∧ quad.b.value ≤ 255 ∧ quad.c.value ≤ 255 ∧ quad.d.value ≤ 255

def Dotted.address (quad : Dotted) : Nat :=
  quad.a.value * 2 ^ 24 + quad.b.value * 2 ^ 16 + quad.c.value * 2 ^ 8 + quad.d.value

def Dotted.block (quad : Dotted) : Nat :=
  if quad.d.value = 0 then if quad.c.value = 0 then 65536 else 256 else 1

structure Blanks where
  text : List UInt8
  blank : ∀ c ∈ text, c ∈ blanks

inductive ListLine where
  | single (quad : Dotted)
  | range (first : Dotted) (before after : Blanks) (last : Dotted)

namespace ListLine

def text : ListLine → List UInt8
  | single quad => quad.text
  | range first before after last =>
      first.text ++ (before.text ++ 45 :: (after.text ++ last.text))

def InRange : ListLine → Prop
  | single quad => quad.InRange
  | range first _ _ last => first.InRange ∧ last.InRange

def Ordered : ListLine → Prop
  | single _ => True
  | range first _ _ last => first.address ≤ last.address

def Denotes : ListLine → Nat → Prop
  | single quad, value => quad.address ≤ value ∧ value < quad.address + quad.block
  | range first _ _ last, value => first.address ≤ value ∧ value ≤ last.address

end ListLine

/-- What `Load` should make of a line. -/
structure Treated (line : ListLine) : Prop where
  accepted : line.InRange → line.Ordered →
    ∃ record, acceptLine line.text = some record ∧
      ∀ value : UInt32, record.Contains value ↔ line.Denotes value.toNat
  ignored : ¬ line.InRange → acceptLine line.text = none

/-! ### Where the octets come to lie -/

/-- The octets, none above the greatest `long`, each shifted to its place. -/
def Dotted.placed (quad : Dotted) : Nat :=
  (min quad.a.value 2147483647 <<< 24 ||| min quad.b.value 2147483647 <<< 16 |||
    min quad.c.value 2147483647 <<< 8 ||| min quad.d.value 2147483647) % 2 ^ 32

def ListLine.begins : ListLine → Nat
  | single quad => quad.placed
  | range first _ _ _ => first.placed

/-- The first address behind the line's, were there more than 32 bits. -/
def ListLine.beyond : ListLine → Nat
  | single quad => quad.placed + quad.block
  | range _ _ _ last => last.placed + 1

theorem Dotted.placed_eq (quad : Dotted) (within : quad.InRange) :
    quad.placed = quad.address := by
  obtain ⟨a, b, c, d⟩ := within
  have packed := word_toNat quad.a.value.toUInt8 quad.b.value.toUInt8 quad.c.value.toUInt8
    quad.d.value.toUInt8
  have bytes : ∀ value : Nat, value ≤ 255 → value.toUInt8.toNat = value := by
    intro value small
    rw [Nat.toUInt8_eq, UInt8.toNat_ofNat']
    exact Nat.mod_eq_of_lt (by omega)
  rw [word, bytes _ a, bytes _ b, bytes _ c, bytes _ d] at packed
  unfold Dotted.placed Dotted.address
  rw [← packed]
  simp only [UInt32.toNat_or, UInt32.toNat_shiftLeft, UInt8.toNat_toUInt32, bytes _ a,
    bytes _ b, bytes _ c, bytes _ d]
  rw [Nat.min_eq_left (by omega), Nat.min_eq_left (by omega), Nat.min_eq_left (by omega),
    Nat.min_eq_left (by omega)]
  have low : quad.d.value % 2 ^ 32 = quad.d.value := Nat.mod_eq_of_lt (by omega)
  simp only [Nat.or_mod_two_pow]
  rw [low]
  rfl

theorem ListLine.begins_lt (line : ListLine) : line.begins < 2 ^ 32 := by
  cases line with
  | single quad => exact Nat.mod_lt _ (by decide)
  | range first before after last => exact Nat.mod_lt _ (by decide)

theorem Dotted.block_le (quad : Dotted) : 0 < quad.block ∧ quad.block ≤ 65536 := by
  unfold Dotted.block
  split
  · split <;> decide
  · decide

theorem ListLine.denotes_iff (line : ListLine) (within : line.InRange) (value : Nat) :
    line.Denotes value ↔ line.begins ≤ value ∧ value < line.beyond := by
  cases line with
  | single quad =>
      simp only [Denotes, begins, beyond]
      rw [quad.placed_eq within]
  | range first before after last =>
      simp only [Denotes, begins, beyond]
      rw [first.placed_eq within.1, last.placed_eq within.2, Nat.lt_succ_iff]

theorem ListLine.ordered_iff (line : ListLine) (within : line.InRange) :
    line.Ordered ↔ line.begins < line.beyond := by
  cases line with
  | single quad =>
      have positive := quad.block_le.1
      simp only [Ordered, begins, beyond]
      constructor
      · intro _
        omega
      · intro _
        trivial
  | range first before after last =>
      simp only [Ordered, begins, beyond]
      rw [first.placed_eq within.1, last.placed_eq within.2, Nat.lt_succ_iff]

/-! ### Reading a line of the format -/

theorem longOf_natCast (value : Nat) : longOf value = (min value 2147483647 : Nat) := by
  unfold longOf
  omega

theorem ofInt_natCast (value : Nat) : UInt32.ofInt value = UInt32.ofNat value := by
  apply UInt32.toNat_inj.mp
  rw [UInt32.ofInt, UInt32.toNat_ofNat', UInt32.toNat_ofNat']
  omega

theorem readOctet_numeral (numeral : Numeral) (rest : List UInt8)
    (ends : ∀ c ∈ rest.head?, isdigit c = false) :
    readOctet (numeral.text ++ rest) =
      (UInt32.ofNat (min numeral.value 2147483647), rest) := by
  unfold readOctet
  rw [strtol_numeral numeral rest ends, longOf_natCast]
  simp only [ofInt_natCast]

theorem readOctetDot_numeral (numeral : Numeral) (rest : List UInt8) :
    readOctetDot (numeral.text ++ 46 :: rest) =
      some (UInt32.ofNat (min numeral.value 2147483647), rest) := by
  unfold readOctetDot
  rw [readOctet_numeral numeral _ (head_cons _ 46 rest rfl)]
  rfl

def Dotted.octets (quad : Dotted) : Octets where
  c1 := UInt32.ofNat (min quad.a.value 2147483647)
  c2 := UInt32.ofNat (min quad.b.value 2147483647)
  c3 := UInt32.ofNat (min quad.c.value 2147483647)
  c4 := UInt32.ofNat (min quad.d.value 2147483647)

theorem readOctets_dotted (quad : Dotted) (rest : List UInt8)
    (ends : ∀ c ∈ rest.head?, isdigit c = false) :
    readOctets (quad.text ++ rest) = some (quad.octets, rest) := by
  unfold readOctets Dotted.text
  simp only [List.append_assoc, List.cons_append]
  simp only [readOctetDot_numeral, Option.bind_eq_bind, Option.bind_some,
    readOctet_numeral quad.d rest ends]
  rfl

theorem octet_toNat (value : Nat) :
    (UInt32.ofNat (min value 2147483647)).toNat = min value 2147483647 := by
  rw [UInt32.toNat_ofNat']
  exact Nat.mod_eq_of_lt (by omega)

theorem octet_eq_zero_iff (value : Nat) :
    UInt32.ofNat (min value 2147483647) = 0 ↔ value = 0 := by
  rw [← UInt32.toNat_inj, octet_toNat]
  change min value 2147483647 = 0 ↔ value = 0
  omega

theorem Dotted.packed_toNat (quad : Dotted) : quad.octets.packed.toNat = quad.placed := by
  have low := octet_toNat quad.d.value
  have small : min quad.d.value 2147483647 % 2 ^ 32 = min quad.d.value 2147483647 :=
    Nat.mod_eq_of_lt (by omega)
  unfold Octets.packed Dotted.placed Dotted.octets
  simp only [UInt32.toNat_or, UInt32.toNat_shiftLeft, octet_toNat, Nat.or_mod_two_pow]
  rw [small]
  rfl

theorem Dotted.packed_add_toNat (quad : Dotted) (size : UInt32) :
    (quad.octets.packed + size).toNat = (quad.placed + size.toNat) % 2 ^ 32 := by
  rw [UInt32.toNat_add, quad.packed_toNat]

theorem skipSpan_blanks (skipped : Blanks) (c : UInt8) (rest : List UInt8)
    (ends : c ∉ blanks) : skipSpan blanks (skipped.text ++ c :: rest) = c :: rest :=
  skipSpan_span _ _ _ skipped.blank (head_cons _ c rest ends)

theorem blank_not_isdigit (c : UInt8) (blank : c ∈ blanks) : isdigit c = false := by
  rcases List.mem_cons.mp blank with rfl | other
  · decide
  · obtain rfl := List.mem_singleton.mp other
    decide

theorem Dotted.head_not_blank (quad : Dotted) :
    ∃ c more, quad.text = c :: more ∧ c ∉ blanks := by
  obtain ⟨c, more, split, digit⟩ := quad.a.head_isdigit
    (46 :: (quad.b.text ++ 46 :: (quad.c.text ++ 46 :: quad.d.text)))
  refine ⟨c, more, split, fun blank => ?_⟩
  rw [blank_not_isdigit c blank] at digit
  contradiction

theorem parseLine_text (line : ListLine) :
    ∃ record, parseLine line.text = some record ∧ record.begin.toNat = line.begins ∧
      record.stop.toNat = line.beyond % 2 ^ 32 := by
  cases line with
  | single quad =>
      have read := readOctets_dotted quad [] (by intro c none; cases none)
      rw [List.append_nil] at read
      refine ⟨_, by rw [ListLine.text, parseLine, read]; rfl, quad.packed_toNat, ?_⟩
      simp only [ListLine.beyond, Dotted.block, Dotted.octets, octet_eq_zero_iff]
      split
      · split
        · exact quad.packed_add_toNat 0x10000
        · exact quad.packed_add_toNat 0x100
      · exact quad.packed_add_toNat 1
  | range first before after last =>
      have read := readOctets_dotted last [] (by intro c none; cases none)
      rw [List.append_nil] at read
      have readFirst := readOctets_dotted first
        (before.text ++ 45 :: (after.text ++ last.text))
        (head_append _ _ _ (fun c member => blank_not_isdigit c (before.blank c member))
          (head_cons _ 45 _ rfl))
      obtain ⟨c, more, split, notBlank⟩ := last.head_not_blank
      have dash := skipSpan_blanks before 45 (after.text ++ last.text) (by decide)
      have behind : skipSpan blanks (after.text ++ last.text) = last.text := by
        rw [split]
        exact skipSpan_blanks after c more notBlank
      refine ⟨⟨first.octets.packed, last.octets.packed + 1⟩, ?_, first.packed_toNat, ?_⟩
      · unfold ListLine.text parseLine
        simp only [readFirst, dash, Option.bind_eq_bind, Option.bind_some]
        change (if (45 : UInt8) = 45 then
          (readOctets (skipSpan blanks (after.text ++ last.text))).bind _ else _) = _
        rw [if_pos rfl, behind, read]
        rfl
      · exact last.packed_add_toNat 1

/-- A line is accepted when its first address comes before the one beyond it and
that one has 32 bits. -/
theorem acceptLine_iff (line : ListLine) :
    (∃ record, acceptLine line.text = some record) ↔
      line.begins < line.beyond ∧ line.beyond < 2 ^ 32 := by
  obtain ⟨record, parsed, begins, stops⟩ := parseLine_text line
  have bound := line.begins_lt
  have filtered : (∃ accepted, acceptLine line.text = some accepted) ↔
      record.begin < record.stop := by
    rw [acceptLine_parsed line.text record parsed]
    by_cases proper : record.begin < record.stop
    · rw [if_pos proper]
      exact ⟨fun _ => proper, fun _ => ⟨record, rfl⟩⟩
    · rw [if_neg proper]
      constructor
      · rintro ⟨_, none⟩
        cases none
      · intro accepted
        exact absurd accepted proper
  rw [filtered, UInt32.lt_iff_toNat_lt, begins, stops]
  by_cases room : line.beyond < 2 ^ 32
  · rw [Nat.mod_eq_of_lt room]
    exact ⟨fun before => ⟨before, room⟩, And.left⟩
  · -- What wraps around ends at or below the first address again.
    have wraps : line.beyond % 2 ^ 32 ≤ line.begins := by
      cases line with
      | single quad =>
          have size := quad.block_le
          simp only [ListLine.beyond, ListLine.begins] at room bound ⊢
          omega
      | range first before after last =>
          have top := (ListLine.single last).begins_lt
          simp only [ListLine.beyond, ListLine.begins] at room top ⊢
          omega
    constructor
    · intro before
      exact absurd before (Nat.not_lt_of_ge wraps)
    · intro fits
      exact absurd fits.2 room

theorem acceptLine_text (line : ListLine) (record : IPRecord)
    (accepted : acceptLine line.text = some record) (value : UInt32) :
    record.Contains value ↔ line.begins ≤ value.toNat ∧ value.toNat < line.beyond := by
  obtain ⟨parsed, found, begins, stops⟩ := parseLine_text line
  have room := ((acceptLine_iff line).mp ⟨record, accepted⟩).2
  rw [acceptLine_parsed line.text parsed found] at accepted
  split at accepted
  case isFalse => cases accepted
  obtain rfl := Option.some.inj accepted
  rw [Nat.mod_eq_of_lt room] at stops
  unfold Range.Contains
  rw [UInt32.le_iff_toNat_le, UInt32.lt_iff_toNat_lt, begins, stops]

/-- With octets in range a line goes wrong when it reaches 255.255.255.255; with
an octet above 255 when the overlapping octets still make an ascending record. -/
theorem treated_iff (line : ListLine) :
    Treated line ↔
      (line.InRange ∧ (line.Ordered → line.beyond < 2 ^ 32)) ∨
        (¬ line.InRange ∧ ¬ (line.begins < line.beyond ∧ line.beyond < 2 ^ 32)) := by
  constructor
  · intro treated
    by_cases within : line.InRange
    · refine Or.inl ⟨within, fun ordered => ?_⟩
      obtain ⟨record, accepted, _⟩ := treated.accepted within ordered
      exact ((acceptLine_iff line).mp ⟨record, accepted⟩).2
    · refine Or.inr ⟨within, fun ascends => ?_⟩
      obtain ⟨record, accepted⟩ := (acceptLine_iff line).mpr ascends
      rw [treated.ignored within] at accepted
      contradiction
  · intro given
    rcases given with ⟨within, fits⟩ | ⟨outside, falls⟩
    · constructor
      · intro _ ordered
        have ascends := (line.ordered_iff within).mp ordered
        obtain ⟨record, accepted⟩ := (acceptLine_iff line).mpr ⟨ascends, fits ordered⟩
        refine ⟨record, accepted, fun value => ?_⟩
        rw [acceptLine_text line record accepted, line.denotes_iff within]
      · intro outside
        exact absurd within outside
    · constructor
      · intro within
        exact absurd within outside
      · intro _
        cases accepted : acceptLine line.text with
        | none => rfl
        | some record => exact absurd ((acceptLine_iff line).mp ⟨record, accepted⟩) falls

/-- The single address 255.255.255.255 is thrown away. -/
theorem top_address_rejected : ¬ ∀ line : ListLine, line.text.length ≤ 1023 → Treated line := by
  intro claimed
  let octet : Numeral := ⟨[50, 53, 53], List.cons_ne_nil _ _, List.forall_mem_cons.mpr
    ⟨rfl, List.forall_mem_cons.mpr ⟨rfl, List.forall_mem_singleton.mpr rfl⟩⟩⟩
  have treated := claimed (.single ⟨octet, octet, octet, octet⟩) (by decide)
  have within : (ListLine.single ⟨octet, octet, octet, octet⟩).InRange := by
    refine ⟨?_, ?_, ?_, ?_⟩ <;> decide
  obtain ⟨record, accepted, _⟩ := treated.accepted within trivial
  have ignored : acceptLine (ListLine.single ⟨octet, octet, octet, octet⟩).text = none := by
    decide
  rw [ignored] at accepted
  contradiction

end CIPList

end AuthServer
