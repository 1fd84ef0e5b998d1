/-!
# Words and addresses

A word is two bytes and an address is a bank byte over a word. Everything larger than a byte is
put together and taken apart here, by multiplication, division and remainder, so that statements
about bytes reduce to arithmetic on natural numbers. Words are stored with the low byte first.
-/

set_option autoImplicit false

namespace W65C816

namespace Word

/-- The word with the given high and low byte. -/
def join (high low : UInt8) : UInt16 :=
  high.toUInt16 * 256 + low.toUInt16

def low (word : UInt16) : UInt8 :=
  word.toUInt8

def high (word : UInt16) : UInt8 :=
  (word / 256).toUInt8

/-- The word with its low byte replaced. -/
def withLow (word : UInt16) (byte : UInt8) : UInt16 :=
  join (high word) byte

/-- The word with its high byte cleared. -/
def dropHigh (word : UInt16) : UInt16 :=
  (low word).toUInt16

/-- The byte, read as a signed number and widened to a word. -/
def signExtend (byte : UInt8) : UInt16 :=
  if byte < 128 then byte.toUInt16 else join 0xFF byte

/-- Whether the bit with weight `2 ^ i` is set. -/
def bit (word : UInt16) (i : Nat) : Bool :=
  word.toNat.testBit i

/-- The high byte counts for 256 times the low one. -/
theorem toNat_join (high low : UInt8) : (join high low).toNat = high.toNat * 256 + low.toNat := by
  have := high.toNat_lt
  have := low.toNat_lt
  simp only [join, UInt16.toNat_add, UInt16.toNat_mul, UInt8.toNat_toUInt16]
  simp
  omega

/-- The low byte is the remainder by 256. -/
theorem toNat_low (word : UInt16) : (low word).toNat = word.toNat % 256 := by
  simp [low]

/-- The high byte is the quotient by 256. -/
theorem toNat_high (word : UInt16) : (high word).toNat = word.toNat / 256 := by
  have := word.toNat_lt
  simp [high]
  omega

/-- A word has the low byte that it was joined of. -/
@[simp] theorem low_join (high low : UInt8) : Word.low (join high low) = low := by
  apply UInt8.toNat.inj
  have := low.toNat_lt
  rw [toNat_low, toNat_join]
  omega

/-- A word has the high byte that it was joined of. -/
@[simp] theorem high_join (high low : UInt8) : Word.high (join high low) = high := by
  apply UInt8.toNat.inj
  have := low.toNat_lt
  rw [toNat_high, toNat_join]
  omega

/-- A word is joined of its own bytes. -/
@[simp] theorem join_high_low (word : UInt16) : join (high word) (low word) = word := by
  apply UInt16.toNat.inj
  rw [toNat_join, toNat_high, toNat_low]
  omega

end Word

namespace Address

/-- The number of addresses, `2 ^ 24`. -/
def space : Nat := 0x1000000

/-- The address of an offset within a bank. -/
def ofBank (bank : UInt8) (offset : UInt16) : UInt32 :=
  bank.toUInt32 * 65536 + offset.toUInt32

/-- The address without what lies above its 24 bits. -/
def wrap (address : UInt32) : UInt32 :=
  address % 0x1000000

/-- The offset of an address within its bank. -/
def offset (address : UInt32) : UInt16 :=
  address.toUInt16

/-- The bank of an address. -/
def bank (address : UInt32) : UInt8 :=
  (address / 65536).toUInt8

/-- The number whose three bytes are given, most significant first. -/
def ofBytes (high middle low : UInt8) : UInt32 :=
  ofBank high (Word.join middle low)

/-- The middle byte of a number of three bytes. -/
def middle (address : UInt32) : UInt8 :=
  Word.high (offset address)

/-- The low byte of a number of three bytes. -/
def low (address : UInt32) : UInt8 :=
  Word.low (offset address)

/-- A bank counts for 65536 times an offset. -/
theorem toNat_ofBank (bank : UInt8) (offset : UInt16) :
    (ofBank bank offset).toNat = bank.toNat * 65536 + offset.toNat := by
  have := bank.toNat_lt
  have := offset.toNat_lt
  simp only [ofBank, UInt32.toNat_add, UInt32.toNat_mul, UInt8.toNat_toUInt32,
    UInt16.toNat_toUInt32]
  simp
  omega

/-- Wrapping reduces an address by the size of the address space. -/
theorem toNat_wrap (address : UInt32) : (wrap address).toNat = address.toNat % space := by
  simp [wrap, space]

/-- A bank and an offset name an address of the address space. -/
theorem ofBank_lt (bank : UInt8) (offset : UInt16) : (ofBank bank offset).toNat < space := by
  have := bank.toNat_lt
  have := offset.toNat_lt
  rw [toNat_ofBank, space]
  omega

/-- An address has the bank that it was made of. -/
@[simp] theorem bank_ofBank (bank : UInt8) (offset : UInt16) :
    Address.bank (ofBank bank offset) = bank := by
  apply UInt8.toNat.inj
  have := bank.toNat_lt
  have := offset.toNat_lt
  simp [Address.bank, toNat_ofBank]
  omega

/-- An address has the offset that it was made of. -/
@[simp] theorem offset_ofBank (bank : UInt8) (offset : UInt16) :
    Address.offset (ofBank bank offset) = offset := by
  apply UInt16.toNat.inj
  simp [Address.offset, toNat_ofBank]

/-- An address has the low byte that it was made of. -/
@[simp] theorem low_ofBytes (high middle low : UInt8) :
    Address.low (ofBytes high middle low) = low := by
  rw [Address.low, ofBytes, offset_ofBank, Word.low_join]

/-- An address has the middle byte that it was made of. -/
@[simp] theorem middle_ofBytes (high middle low : UInt8) :
    Address.middle (ofBytes high middle low) = middle := by
  rw [Address.middle, ofBytes, offset_ofBank, Word.high_join]

/-- The highest of the three bytes of an address is its bank. -/
@[simp] theorem bank_ofBytes (high middle low : UInt8) :
    Address.bank (ofBytes high middle low) = high := by
  rw [ofBytes, bank_ofBank]

/-- An address of a bank and an offset does not wrap. -/
@[simp] theorem wrap_ofBank (bank : UInt8) (offset : UInt16) :
    wrap (ofBank bank offset) = ofBank bank offset := by
  apply UInt32.toNat.inj
  rw [toNat_wrap]
  exact Nat.mod_eq_of_lt (ofBank_lt bank offset)

/-- A number is put together again from its three bytes, up to what lies above them. -/
@[simp] theorem ofBytes_bytes (address : UInt32) :
    ofBytes (Address.bank address) (Address.middle address) (Address.low address) =
      wrap address := by
  apply UInt32.toNat.inj
  rw [ofBytes, Address.middle, Address.low, Word.join_high_low, toNat_ofBank, toNat_wrap, space]
  simp [Address.bank, Address.offset]
  omega

end Address

end W65C816
