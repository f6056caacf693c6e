/-!
# The 128-bit XXH3 hash

A fast hash of a row of bytes under a 64-bit seed. Inputs of different lengths take different
routes; all arithmetic is modulo `2 ^ 64`.

* `Wide` — a 128-bit number in two halves.
* `Xxh3.hash` — the hash of some bytes under a seed.
-/

namespace Awaitless.Hash

/-- A 128-bit number in two halves. -/
structure Wide where
  low : UInt64
  high : UInt64
deriving Repr, DecidableEq, Inhabited

namespace Wide

/-- The eight bytes of a word, least significant first. -/
def wordBytes (w : UInt64) : List UInt8 :=
  (List.range 8).map fun i => (w >>> (8 * i).toUInt64).toUInt8

/-- The sixteen bytes of the number, least significant first. -/
def bytes (w : Wide) : Array UInt8 :=
  (wordBytes w.low ++ wordBytes w.high).toArray

/-- The number as a natural number. -/
def toNat (w : Wide) : Nat := w.high.toNat * UInt64.size + w.low.toNat

/-- The full product of two words. -/
def mul (a b : UInt64) : Wide :=
  let p := a.toNat * b.toNat
  ⟨p.toUInt64, (p / UInt64.size).toUInt64⟩

/-- The two halves of the full product, combined by exclusive or. -/
def foldedMul (a b : UInt64) : UInt64 :=
  let p := mul a b
  p.low ^^^ p.high

end Wide

namespace Xxh3

/-! ## Constants -/

def prime32A : UInt64 := 0x9E3779B1
def prime32B : UInt64 := 0x85EBCA77
def prime32C : UInt64 := 0xC2B2AE3D
def primeA : UInt64 := 0x9E3779B185EBCA87
def primeB : UInt64 := 0xC2B2AE3D27D4EB4F
def primeC : UInt64 := 0x165667B19E3779F9
def primeD : UInt64 := 0x85EBCA77C2B2AE63
def primeE : UInt64 := 0x27D4EB2F165667C5
def mixA : UInt64 := 0x165667919E3779F9
def mixB : UInt64 := 0x9FB21C651E98DF25
def mask32 : UInt64 := 0xFFFFFFFF

/-- The fixed secret that is mixed into every input. -/
def secret : Array UInt8 := #[
  0xb8, 0xfe, 0x6c, 0x39, 0x23, 0xa4, 0x4b, 0xbe, 0x7c, 0x01, 0x81, 0x2c, 0xf7, 0x21, 0xad, 0x1c,
  0xde, 0xd4, 0x6d, 0xe9, 0x83, 0x90, 0x97, 0xdb, 0x72, 0x40, 0xa4, 0xa4, 0xb7, 0xb3, 0x67, 0x1f,
  0xcb, 0x79, 0xe6, 0x4e, 0xcc, 0xc0, 0xe5, 0x78, 0x82, 0x5a, 0xd0, 0x7d, 0xcc, 0xff, 0x72, 0x21,
  0xb8, 0x08, 0x46, 0x74, 0xf7, 0x43, 0x24, 0x8e, 0xe0, 0x35, 0x90, 0xe6, 0x81, 0x3a, 0x26, 0x4c,
  0x3c, 0x28, 0x52, 0xbb, 0x91, 0xc3, 0x00, 0xcb, 0x88, 0xd0, 0x65, 0x8b, 0x1b, 0x53, 0x2e, 0xa3,
  0x71, 0x64, 0x48, 0x97, 0xa2, 0x0d, 0xf9, 0x4e, 0x38, 0x19, 0xef, 0x46, 0xa9, 0xde, 0xac, 0xd8,
  0xa8, 0xfa, 0x76, 0x3f, 0xe3, 0x9c, 0x34, 0x3f, 0xf9, 0xdc, 0xbb, 0xc7, 0xc7, 0x0b, 0x4f, 0x1d,
  0x8a, 0x51, 0xe0, 0x4b, 0xcd, 0xb4, 0x59, 0x31, 0xc8, 0x9f, 0x7e, 0xc9, 0xd9, 0x78, 0x73, 0x64,
  0xea, 0xc5, 0xac, 0x83, 0x34, 0xd3, 0xeb, 0xc3, 0xc5, 0x81, 0xa0, 0xff, 0xfa, 0x13, 0x63, 0xeb,
  0x17, 0x0d, 0xdd, 0x51, 0xb7, 0xf0, 0xda, 0x49, 0xd3, 0x16, 0x55, 0x26, 0x29, 0xd4, 0x68, 0x9e,
  0x2b, 0x16, 0xbe, 0x58, 0x7d, 0x47, 0xa1, 0xfc, 0x8f, 0xf8, 0xb8, 0xd1, 0x7a, 0xd0, 0x31, 0xce,
  0x45, 0xcb, 0x3a, 0x8f, 0x95, 0x16, 0x04, 0x28, 0xaf, 0xd7, 0xfb, 0xca, 0xbb, 0x4b, 0x40, 0x7e]

/-! ## Reading words and mixing them -/

/-- The little-endian number in `count` bytes from `i`; bytes past the end count as zero. -/
def read (data : Array UInt8) (i count : Nat) : UInt64 :=
  (List.range count).foldr (fun k word => (word <<< 8) ||| (data.getD (i + k) 0).toUInt64) 0

def read32 (data : Array UInt8) (i : Nat) : UInt64 := read data i 4

def read64 (data : Array UInt8) (i : Nat) : UInt64 := read data i 8

/-- The lower `count` bytes of a word in the opposite order. -/
def swap (w : UInt64) (count : Nat) : UInt64 :=
  (List.range count).foldl (fun out k => (out <<< 8) ||| ((w >>> (8 * k).toUInt64) &&& 0xFF)) 0

def xorShift (w : UInt64) (n : UInt64) : UInt64 := w ^^^ (w >>> n)

/-- The last mixing of long inputs. -/
def avalanche (h : UInt64) : UInt64 :=
  xorShift (xorShift h 37 * mixA) 32

/-- The last mixing of the shortest inputs. -/
def avalancheShort (h : UInt64) : UInt64 :=
  xorShift (xorShift (xorShift h 33 * primeB) 29 * primeC) 32

/-- The product of the lower and the upper half of a word. -/
def mulHalves (w : UInt64) : UInt64 := (w &&& mask32) * (w >>> 32)

def mix16 (data : Array UInt8) (i s : Nat) (seed : UInt64) : UInt64 :=
  Wide.foldedMul (read64 data i ^^^ (read64 secret s + seed))
    (read64 data (i + 8) ^^^ (read64 secret (s + 8) - seed))

def mix32 (data : Array UInt8) (acc : Wide) (i j s : Nat) (seed : UInt64) : Wide :=
  ⟨(acc.low + mix16 data i s seed) ^^^ (read64 data j + read64 data (j + 8)),
   (acc.high + mix16 data j (s + 16) seed) ^^^ (read64 data i + read64 data (i + 8))⟩

/-- The end of every input of middle length. -/
def finishMiddle (acc : Wide) (size seed : UInt64) : Wide :=
  ⟨avalanche (acc.low + acc.high),
   0 - avalanche (acc.low * primeA + acc.high * primeD + (size - seed) * primeB)⟩

/-! ## The routes by length -/

def hashEmpty (seed : UInt64) : Wide :=
  ⟨avalancheShort (seed ^^^ (read64 secret 64 ^^^ read64 secret 72)),
   avalancheShort (seed ^^^ (read64 secret 80 ^^^ read64 secret 88))⟩

def hashUpTo3 (data : Array UInt8) (seed : UInt64) : Wide :=
  let n := data.size
  let byte (i : Nat) : UInt64 := read data i 1
  let low := (byte 0 <<< 16) ||| (byte (n / 2) <<< 24) ||| byte (n - 1) ||| (n.toUInt64 <<< 8)
  let swapped := swap low 4
  let high := ((swapped <<< 13) ||| (swapped >>> 19)) &&& mask32
  ⟨avalancheShort (low ^^^ ((read32 secret 0 ^^^ read32 secret 4) + seed)),
   avalancheShort (high ^^^ ((read32 secret 8 ^^^ read32 secret 12) - seed))⟩

def hashUpTo8 (data : Array UInt8) (seed : UInt64) : Wide :=
  let n := data.size
  let seed := seed ^^^ (swap seed 4 <<< 32)
  let word := read32 data 0 + (read32 data (n - 4) <<< 32)
  let keyed := word ^^^ ((read64 secret 16 ^^^ read64 secret 24) + seed)
  let m := Wide.mul keyed (primeA + (n.toUInt64 <<< 2))
  let high := m.high + (m.low <<< 1)
  let low := m.low ^^^ (high >>> 3)
  ⟨xorShift (xorShift low 35 * mixB) 28, avalanche high⟩

def hashUpTo16 (data : Array UInt8) (seed : UInt64) : Wide :=
  let n := data.size
  let flipLow := (read64 secret 32 ^^^ read64 secret 40) - seed
  let flipHigh := (read64 secret 48 ^^^ read64 secret 56) + seed
  let first := read64 data 0
  let last := read64 data (n - 8)
  let m := Wide.mul (first ^^^ last ^^^ flipLow) primeA
  let low := m.low + ((n - 1).toUInt64 <<< 54)
  let last := last ^^^ flipHigh
  let high := m.high + (last + (last &&& mask32) * (prime32B - 1))
  let low := low ^^^ swap high 8
  let h := Wide.mul low primeB
  ⟨avalanche h.low, avalanche (h.high + high * primeB)⟩

def hashUpTo128 (data : Array UInt8) (seed : UInt64) : Wide :=
  let n := data.size
  let acc : Wide := ⟨n.toUInt64 * primeA, 0⟩
  let acc := if 96 < n then mix32 data acc 48 (n - 64) 96 seed else acc
  let acc := if 64 < n then mix32 data acc 32 (n - 48) 64 seed else acc
  let acc := if 32 < n then mix32 data acc 16 (n - 32) 32 seed else acc
  finishMiddle (mix32 data acc 0 (n - 16) 0 seed) n.toUInt64 seed

def hashUpTo240 (data : Array UInt8) (seed : UInt64) : Wide :=
  let n := data.size
  let acc := (List.range 4).foldl
    (fun acc k => mix32 data acc (32 * k) (32 * k + 16) (32 * k) seed) ⟨n.toUInt64 * primeA, 0⟩
  let acc : Wide := ⟨avalanche acc.low, avalanche acc.high⟩
  let acc := (List.range (n / 32 - 4)).foldl
    (fun acc k => mix32 data acc (32 * k + 128) (32 * k + 144) (32 * k + 3) seed) acc
  finishMiddle (mix32 data acc (n - 16) (n - 32) 103 (0 - seed)) n.toUInt64 seed

/-! ## Long inputs -/

/-- The secret under a seed. -/
def seededSecret (seed : UInt64) : Array UInt8 :=
  ((List.range 12).flatMap fun k =>
    Wide.wordBytes (read64 secret (16 * k) + seed) ++
      Wide.wordBytes (read64 secret (16 * k + 8) - seed)).toArray

/-- Takes 64 bytes into the eight lanes. -/
def accumulate (data key : Array UInt8) (i s : Nat) (lanes : Array UInt64) : Array UInt64 :=
  (Array.range 8).map fun k =>
    lanes.getD k 0 + read64 data (i + 8 * (k ^^^ 1)) +
      mulHalves (read64 data (i + 8 * k) ^^^ read64 key (s + 8 * k))

/-- Takes `count` rows of 64 bytes into the lanes. -/
def accumulateRows (data key : Array UInt8) (i count : Nat) (lanes : Array UInt64) : Array UInt64 :=
  (List.range count).foldl (fun lanes k => accumulate data key (i + 64 * k) (8 * k) lanes) lanes

/-- Mixes the lanes at the end of a block. -/
def scramble (key : Array UInt8) (lanes : Array UInt64) : Array UInt64 :=
  (Array.range 8).map fun k =>
    (xorShift (lanes.getD k 0) 47 ^^^ read64 key (128 + 8 * k)) * prime32A

/-- Folds the lanes into one word. -/
def merge (key : Array UInt8) (s : Nat) (start : UInt64) (lanes : Array UInt64) : UInt64 :=
  avalanche ((List.range 4).foldl (fun out k =>
    out + Wide.foldedMul (lanes.getD (2 * k) 0 ^^^ read64 key (s + 16 * k))
      (lanes.getD (2 * k + 1) 0 ^^^ read64 key (s + 16 * k + 8))) start)

def hashLong (data : Array UInt8) (seed : UInt64) : Wide :=
  let n := data.size
  let key := seededSecret seed
  let blocks := (n - 1) / 1024
  let lanes := #[prime32C, primeA, primeB, primeC, primeD, prime32B, primeE, prime32A]
  let lanes := (List.range blocks).foldl
    (fun lanes k => scramble key (accumulateRows data key (1024 * k) 16 lanes)) lanes
  let rows := (n - 1 - 1024 * blocks) / 64
  let lanes := accumulateRows data key (1024 * blocks) rows lanes
  let lanes := accumulate data key (n - 64) 121 lanes
  ⟨merge key 11 (n.toUInt64 * primeA) lanes, merge key 117 (~~~ (n.toUInt64 * primeB)) lanes⟩

/-- The hash of some bytes under a seed. -/
def hash (data : Array UInt8) (seed : UInt64) : Wide :=
  let n := data.size
  if n = 0 then hashEmpty seed
  else if n ≤ 3 then hashUpTo3 data seed
  else if n ≤ 8 then hashUpTo8 data seed
  else if n ≤ 16 then hashUpTo16 data seed
  else if n ≤ 128 then hashUpTo128 data seed
  else if n ≤ 240 then hashUpTo240 data seed
  else hashLong data seed

end Xxh3

end Awaitless.Hash
