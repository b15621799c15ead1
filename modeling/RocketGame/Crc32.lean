import Mathlib.Data.List.Basic
import Mathlib.Logic.Function.Iterate

/-!
The table-driven CRC-32 of CRC32.cpp. The table is a pure function of the
index, so table i stands for the entry generate_table stores at i; the member
crc is the running value passed from call to call.
-/
namespace RocketGame.Crc32

def crc32Poly : UInt32 := 0xEDB88320

def crcSize : ℕ := 4

def generateStep (c : UInt32) : UInt32 :=
  if c &&& 1 ≠ 0 then crc32Poly ^^^ (c >>> 1) else c >>> 1

def table (i : UInt32) : UInt32 := generateStep^[8] i

def reset : UInt32 := 0xFFFFFFFF

def update (crc : UInt32) (data : List UInt8) : UInt32 :=
  data.foldl (fun crc b => table ((crc ^^^ b.toUInt32) &&& 0xFF) ^^^ (crc >>> 8)) crc

def value (crc : UInt32) : UInt32 := crc ^^^ 0xFFFFFFFF

def calculate (data : List UInt8) : UInt32 := value (update reset data)

end RocketGame.Crc32
