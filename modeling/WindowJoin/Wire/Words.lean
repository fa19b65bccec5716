/-!
# Numbers as bytes

A number of fixed width as bytes, most significant first or last. Main statements: reading what was
written gives the number modulo the count of values (`of_big_endian_big_endian`,
`of_little_endian_little_endian`), and writing what was read gives the bytes
(`big_endian_of_big_endian`, `little_endian_of_little_endian`).
-/

namespace WindowJoin.Wire

/-- The number that bytes stand for, least significant byte first. -/
def ofLittleEndian : List UInt8 → Nat
  | [] => 0
  | byte :: rest => byte.toNat + 256 * ofLittleEndian rest

/-- The last `width` bytes of a number, least significant byte first. -/
def littleEndian : Nat → Nat → List UInt8
  | 0, _ => []
  | width + 1, value => UInt8.ofNat (value % 256) :: littleEndian width (value / 256)

/-- The number that bytes stand for, most significant byte first. -/
def ofBigEndian (bytes : List UInt8) : Nat :=
  ofLittleEndian bytes.reverse

/-- The last `width` bytes of a number, most significant byte first. -/
def bigEndian (width value : Nat) : List UInt8 :=
  (littleEndian width value).reverse

/-- The number of values that bytes of this count can have. -/
def valueCount : Nat → Nat
  | 0 => 1
  | width + 1 => 256 * valueCount width

/-- A number is written with the width asked for. -/
@[simp] theorem length_little_endian (width value : Nat) :
    (littleEndian width value).length = width := by
  induction width generalizing value with
  | zero => rfl
  | succ width ih => simp [littleEndian, ih]

/-- A number is written with the width asked for. -/
@[simp] theorem length_big_endian (width value : Nat) : (bigEndian width value).length = width := by
  simp [bigEndian]

/-- Reading what was written gives the number modulo the count of values. -/
theorem of_little_endian_little_endian (width value : Nat) :
    ofLittleEndian (littleEndian width value) = value % valueCount width := by
  induction width generalizing value with
  | zero => simp [littleEndian, ofLittleEndian, valueCount, Nat.mod_one]
  | succ width ih =>
    have hbyte : (UInt8.ofNat (value % 256)).toNat = value % 256 := by simp
    rw [littleEndian, ofLittleEndian, ih, hbyte, valueCount, Nat.mod_mul]

/-- Writing what was read gives the bytes. -/
theorem little_endian_of_little_endian (bytes : List UInt8) :
    littleEndian bytes.length (ofLittleEndian bytes) = bytes := by
  induction bytes with
  | nil => rfl
  | cons byte rest ih =>
    have hbyte : byte.toNat < 256 := byte.toNat_lt
    have hmod : (byte.toNat + 256 * ofLittleEndian rest) % 256 = byte.toNat := by omega
    have hdiv : (byte.toNat + 256 * ofLittleEndian rest) / 256 = ofLittleEndian rest := by omega
    rw [List.length_cons, ofLittleEndian, littleEndian, hmod, hdiv, ih, UInt8.ofNat_toNat]

/-- Bytes stand for one of the values that they can have. -/
theorem of_little_endian_lt (bytes : List UInt8) : ofLittleEndian bytes < valueCount bytes.length := by
  induction bytes with
  | nil => simp [ofLittleEndian, valueCount]
  | cons byte rest ih =>
    have hbyte : byte.toNat < 256 := byte.toNat_lt
    rw [List.length_cons, ofLittleEndian, valueCount]
    omega

/-- Reading what was written gives the number modulo the count of values. -/
theorem of_big_endian_big_endian (width value : Nat) :
    ofBigEndian (bigEndian width value) = value % valueCount width := by
  rw [ofBigEndian, bigEndian, List.reverse_reverse, of_little_endian_little_endian]

/-- Writing what was read gives the bytes. -/
theorem big_endian_of_big_endian (bytes : List UInt8) :
    bigEndian bytes.length (ofBigEndian bytes) = bytes := by
  have h := little_endian_of_little_endian bytes.reverse
  rw [List.length_reverse] at h
  rw [ofBigEndian, bigEndian, h, List.reverse_reverse]

/-- Bytes stand for one of the values that they can have. -/
theorem of_big_endian_lt (bytes : List UInt8) : ofBigEndian bytes < valueCount bytes.length := by
  simpa [ofBigEndian] using of_little_endian_lt bytes.reverse

end WindowJoin.Wire
