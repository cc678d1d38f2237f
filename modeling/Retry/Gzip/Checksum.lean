import Retry.Text.Bytes

namespace Retry.Gzip

/-- One step of the division by the generator polynomial. -/
def crcBit (c : UInt32) : UInt32 := if c &&& 1 = 1 then (c >>> 1) ^^^ 0xEDB88320 else c >>> 1

def crcByte (c : UInt32) : UInt32 :=
  crcBit (crcBit (crcBit (crcBit (crcBit (crcBit (crcBit (crcBit c)))))))

def crcTable : Array UInt32 := (Array.range 256).map fun i => crcByte (UInt32.ofNat i)

def crcStep (c : UInt32) (b : UInt8) : UInt32 :=
  crcTable.getD ((c ^^^ b.toUInt32) &&& 0xFF).toNat 0 ^^^ (c >>> 8)

def crc32 (bytes : Bytes) : UInt32 := bytes.foldl crcStep 0xFFFFFFFF ^^^ 0xFFFFFFFF

end Retry.Gzip
