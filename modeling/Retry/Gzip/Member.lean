import Retry.Gzip.Checksum
import Retry.Gzip.Inflate

namespace Retry.Gzip

/-- A number of bytes, the lowest first. -/
def littleEndian : Bytes → Nat
  | [] => 0
  | b :: bs => b.toNat + 256 * littleEndian bs

def take (count : Nat) (b : Bytes) : Except Fault (Bytes × Bytes) :=
  if b.length < count then .error .truncated else .ok (b.take count, b.drop count)

def longestText : Nat := 65535

/-- The bytes up to a zero, with it, and those after it. -/
def takeText (b : Bytes) : Except Fault (Bytes × Bytes) :=
  let text := b.takeWhile (· ≠ 0)
  if longestText < text.length then .error .corrupt
  else match b.drop text.length with
    | [] => .error .truncated
    | zero :: rest => .ok (text ++ [zero], rest)

/-- A field that stands in the header if its flag is set. -/
def optional (present : Bool) (field : Bytes → Except Fault (Bytes × Bytes)) (b : Bytes) :
    Except Fault (Bytes × Bytes) :=
  if present then field b else .ok ([], b)

def takeExtra (b : Bytes) : Except Fault (Bytes × Bytes) := do
  let (size, b) ← take 2 b
  let (data, b) ← take (littleEndian size) b
  return (size ++ data, b)

def hasFlag (flags : UInt8) (mask : UInt8) : Bool := flags &&& mask ≠ 0

/-- The header at the start of `b` is read away; what is left is the data. -/
def skipHeader (b : Bytes) : Except Fault Bytes := do
  let (start, b) ← take 10 b
  match start with
  | 0x1f :: 0x8b :: 8 :: flags :: _ =>
    if hasFlag flags 0xe0 then .error .corrupt
    else
      let (extra, b) ← optional (hasFlag flags 4) takeExtra b
      let (name, b) ← optional (hasFlag flags 8) takeText b
      let (comment, b) ← optional (hasFlag flags 16) takeText b
      let (check, b) ← optional (hasFlag flags 2) (take 2) b
      let sum := (crc32 (start ++ extra ++ name ++ comment)).toNat % 1 <<< 16
      if hasFlag flags 2 && littleEndian check ≠ sum then .error .corrupt else .ok b
  | _ => .error .corrupt

/-- Whether the trailer at the start of `b` matches the data. -/
def checkTrailer (data b : Bytes) : Except Fault Unit := do
  let (check, b) ← take 4 b
  let (size, _) ← take 4 b
  if littleEndian check = (crc32 data).toNat && littleEndian size = data.length % 1 <<< 32 then
    .ok ()
  else .error .corrupt

/-- Data are inflated window by window, and a window with a fault in it gives nothing. -/
def window : Nat := 32768

/-- How much of the output comes out before inflating stops. -/
def delivered (r : Inflated) : Nat :=
  match r.ending with
  | .error .corrupt => r.output.size / window * window
  | _ => r.output.size

inductive Refusal where
  | tooLarge
  | faulty (fault : Fault)
  deriving DecidableEq, Repr

/-- The data of the member at the start of `b`, unless more than `limit` bytes come out first.
What follows the member is not looked at. -/
def unpack (limit : Nat) (b : Bytes) : Except Refusal Bytes :=
  match skipHeader b with
  | .error e => .error (.faulty e)
  | .ok b =>
    let r := inflate b
    if limit < delivered r then .error .tooLarge
    else match r.ending with
      | .error e => .error (.faulty e)
      | .ok s =>
        let data := r.output.toList
        match checkTrailer data s.align.bytes with
        | .error e => .error (.faulty e)
        | .ok () => .ok data

end Retry.Gzip
