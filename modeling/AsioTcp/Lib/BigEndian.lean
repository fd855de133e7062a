import AsioTcp.Lib.LittleEndian

/-!
# Fixed-width big-endian words

Network byte order: the bytes of the little-endian image, last one first.
-/

namespace BigEndian

def encode (w n : Nat) : List UInt8 := (LittleEndian.encode w n).reverse

def decode (bs : List UInt8) : Nat := LittleEndian.decode bs.reverse

@[simp] theorem length_encode (w n : Nat) : (encode w n).length = w := by
  rw [encode, List.length_reverse, LittleEndian.length_encode]

theorem decode_encode (w n : Nat) (h : n < 256 ^ w) : decode (encode w n) = n := by
  rw [decode, encode, List.reverse_reverse, LittleEndian.decode_encode w n h]

theorem decode_lt (bs : List UInt8) : decode bs < 256 ^ bs.length := by
  have h := LittleEndian.decode_lt bs.reverse
  rwa [List.length_reverse] at h

theorem encode_decode (bs : List UInt8) : encode bs.length (decode bs) = bs := by
  have h := LittleEndian.encode_decode bs.reverse
  rw [List.length_reverse] at h
  rw [encode, decode, h, List.reverse_reverse]

end BigEndian
