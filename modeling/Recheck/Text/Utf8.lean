/-!
# UTF-8

Two readings of bytes as text.  `Utf8.decode?` takes valid UTF-8 only.  `Utf8.decodeLossy` takes everything: where the
bytes are not valid, each longest piece that could still have begun a character becomes one U+FFFD.  Both give back
every text from its own encoding (`decode?_encode`, `decodeLossy_encode`).
-/
namespace Recheck.Utf8

def encode (s : String) : ByteArray := s.toUTF8

def decode? (b : ByteArray) : Option String := String.fromUTF8? b

/-- The character put in place of a piece that is not valid. -/
def replacement : Char := '\ufffd'

/-- A character that has begun: how many bytes it still needs, the range of the next one, and the bits read so far. -/
structure Pending where
  needed : Nat
  low : UInt8
  high : UInt8
  bits : Nat

/-- What a byte of a longer character begins.  The range of the second byte excludes overlong forms, surrogates and
everything above U+10FFFF. -/
def lead? (b : UInt8) : Option Pending :=
  if 0xc2 ≤ b ∧ b ≤ 0xdf then some ⟨1, 0x80, 0xbf, b.toNat % 32⟩
  else if b = 0xe0 then some ⟨2, 0xa0, 0xbf, 0⟩
  else if b = 0xed then some ⟨2, 0x80, 0x9f, 13⟩
  else if 0xe1 ≤ b ∧ b ≤ 0xef then some ⟨2, 0x80, 0xbf, b.toNat % 16⟩
  else if b = 0xf0 then some ⟨3, 0x90, 0xbf, 0⟩
  else if 0xf1 ≤ b ∧ b ≤ 0xf3 then some ⟨3, 0x80, 0xbf, b.toNat % 8⟩
  else if b = 0xf4 then some ⟨3, 0x80, 0x8f, 4⟩
  else none

/-- The characters finished by a byte that begins anew, and what it leaves begun. -/
def start (b : UInt8) : List Char × Option Pending :=
  if b < 0x80 then ([Char.ofNat b.toNat], none)
  else match lead? b with
    | some p => ([], some p)
    | none   => ([replacement], none)

/-- The characters finished by one more byte, and what it leaves begun. -/
def feed : Option Pending → UInt8 → List Char × Option Pending
  | none, b   => start b
  | some p, b =>
    if p.low ≤ b ∧ b ≤ p.high then
      let bits := p.bits * 64 + b.toNat % 64
      if p.needed = 1 then ([Char.ofNat bits], none) else ([], some ⟨p.needed - 1, 0x80, 0xbf, bits⟩)
    else (replacement :: (start b).1, (start b).2)

def decodeFrom : Option Pending → List UInt8 → List Char
  | none, []        => []
  | some _, []      => [replacement]
  | state, b :: bs  => (feed state b).1 ++ decodeFrom (feed state b).2 bs

def decodeLossy (b : ByteArray) : String :=
  match decode? b with
  | some s => s
  | none   => String.ofList (decodeFrom none b.data.toList)

theorem decode?_encode (s : String) : decode? (encode s) = some s := by
  simp only [decode?, encode, String.fromUTF8?, String.toUTF8_eq_toByteArray, dif_pos s.isValidUTF8]
  rfl

theorem decode?_eq_some_iff {bytes : ByteArray} {text : String} :
    decode? bytes = some text ↔ bytes = encode text := by
  constructor
  · intro h
    unfold decode? String.fromUTF8? at h
    split at h
    · cases h
      rfl
    · cases h
  · rintro rfl
    exact decode?_encode text

theorem encode_inj {text text' : String} : encode text = encode text' ↔ text = text' := by
  rw [← decode?_eq_some_iff, decode?_encode, Option.some.injEq]

theorem decode?_eq_none_iff {bytes : ByteArray} :
    decode? bytes = none ↔ ∀ text, bytes ≠ encode text := by
  rw [Option.eq_none_iff_forall_ne_some]
  exact forall_congr' fun text => not_congr decode?_eq_some_iff

theorem decodeLossy_encode (s : String) : decodeLossy (encode s) = s := by
  simp [decodeLossy, decode?_encode]

end Recheck.Utf8
