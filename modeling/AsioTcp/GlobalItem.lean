import AsioTcp.Lib.LittleEndian

/-!
# The frame header shared by client and server

`globlItem.h`: the header `HDR` in front of every body, its size
`HEADER_SIZE`, and its memory image, which is what goes over the wire (the
code sends and receives the struct itself). The layout is that of the Win32
build, the only platform the project files configure: `size_t` has four bytes,
and two alignment bytes stand between `subtype` and `packNum`.
-/

namespace AsioTcp

abbrev SizeT := UInt32
abbrev BYTE := UInt8

structure HDR where
  /-- length of the body -/
  len : SizeT
  type : BYTE
  subtype : BYTE
  /-- the alignment bytes, copied along with the struct -/
  pad0 : BYTE
  pad1 : BYTE
  packNum : SizeT
  deriving DecidableEq, Repr

/-- `HEADER_SIZE`, that is `sizeof(HDR)`. -/
def headerSize : Nat := 12

namespace HDR

def setLen (h : HDR) (n : SizeT) : HDR := { h with len := n }

/-- The bytes of the struct in memory. -/
def toBytes (h : HDR) : List BYTE :=
  LittleEndian.encode 4 h.len.toNat ++ [h.type, h.subtype, h.pad0, h.pad1] ++
    LittleEndian.encode 4 h.packNum.toNat

/-- The struct whose memory holds `bs`. -/
def ofBytes (bs : List BYTE) : HDR where
  len := UInt32.ofNat (LittleEndian.decode (bs.take 4))
  type := bs.getD 4 0
  subtype := bs.getD 5 0
  pad0 := bs.getD 6 0
  pad1 := bs.getD 7 0
  packNum := UInt32.ofNat (LittleEndian.decode ((bs.drop 8).take 4))

@[simp] theorem length_toBytes (h : HDR) : h.toBytes.length = headerSize := by
  simp [toBytes, headerSize]

private theorem ofNat_decode_encode (n : SizeT) :
    UInt32.ofNat (LittleEndian.decode (LittleEndian.encode 4 n.toNat)) = n := by
  rw [LittleEndian.decode_encode 4 n.toNat n.toNat_lt]
  exact UInt32.ofNat_toNat

/-- **Header round trip.** What one side sends as a header is what the other
side finds in `header_`. -/
@[simp] theorem ofBytes_toBytes (h : HDR) : ofBytes h.toBytes = h := by
  have hlen : h.toBytes.take 4 = LittleEndian.encode 4 h.len.toNat := by
    simp [toBytes]
  have hnum : (h.toBytes.drop 8).take 4 = LittleEndian.encode 4 h.packNum.toNat := by
    simp [toBytes, List.drop_append, List.drop_of_length_le, List.take_of_length_le]
  cases h
  simp only [ofBytes, hlen, hnum, ofNat_decode_encode]
  simp [toBytes]

end HDR

end AsioTcp
