import FlowScheduler.Base.Identity

/-! # Checksums and digests

CRC-32C guards every durable record. FNV-1a digests bind tickets, evidence,
schedules and policies; every integer is folded byte by byte in little-endian
order.
-/

namespace FlowScheduler

open ByteCodec

def crc32cBit (crc : UInt32) : UInt32 :=
  (crc >>> 1) ^^^ (if crc &&& 1 ≠ 0 then 0x82F63B78 else 0)

def crc32cTable : List UInt32 :=
  (List.range 256).map fun index => Nat.iterate crc32cBit 8 (UInt32.ofNat index)

def crc32cByte (crc : UInt32) (byte : UInt8) : UInt32 :=
  crc32cTable.getD ((crc ^^^ byte.toUInt32) &&& 0xFF).toNat 0 ^^^ (crc >>> 8)

def crc32cExtend (seed : UInt32) (data : Bytes) : UInt32 :=
  data.foldl crc32cByte (seed ^^^ 0xFFFFFFFF) ^^^ 0xFFFFFFFF

def crc32c (data : Bytes) : UInt32 := crc32cExtend 0 data

def kFnvOffset : UInt64 := 0xCBF29CE484222325
def kFnvPrime : UInt64 := 0x00000100000001B3

def fnvByte (state : UInt64) (byte : UInt8) : UInt64 := (state ^^^ byte.toUInt64) * kFnvPrime

structure Digest64 where
  state : UInt64 := kFnvOffset

namespace Digest64

def addBytes (d : Digest64) (data : Bytes) : Digest64 := ⟨data.foldl fnvByte d.state⟩
def addU8 (d : Digest64) (v : UInt8) : Digest64 := ⟨fnvByte d.state v⟩
def addU32 (d : Digest64) (v : UInt32) : Digest64 := d.addBytes (littleEndian 4 v.toNat)
def addU64 (d : Digest64) (v : UInt64) : Digest64 := d.addBytes (littleEndian 8 v.toNat)
def addBool (d : Digest64) (v : Bool) : Digest64 := d.addU8 (if v then 1 else 0)
def addSize (d : Digest64) (n : ℕ) : Digest64 := d.addU64 (UInt64.ofNat n)
def addString (d : Digest64) (text : Bytes) : Digest64 := (d.addSize text.length).addBytes text
def addU64s (d : Digest64) (vs : List UInt64) : Digest64 := vs.foldl addU64 d

end Digest64

end FlowScheduler
