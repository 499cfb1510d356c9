/-!
# The 64-bit digest of a byte string

The XXH3 digest with seed zero and the default secret. Inputs of up to 16 bytes are mixed in one
step, those of up to 240 bytes in pieces of 16, and longer ones in stripes of 64 bytes over eight
accumulators that are scrambled after every block of 16 stripes. `hex` is the digest of a text in
UTF-8, as 16 hexadecimal digits.
-/

namespace HeaderSearch.Digest

/-- The default secret. -/
def secret : Array UInt8 := #[
  0xb8, 0xfe, 0x6c, 0x39, 0x23, 0xa4, 0x4b, 0xbe, 0x7c, 0x01, 0x81, 0x2c, 0xf7, 0x21, 0xad, 0x1c,
  0xde, 0xd4, 0x6d, 0xe9, 0x83, 0x90, 0x97, 0xdb, 0x72, 0x40, 0xa4, 0xa4, 0xb7, 0xb3, 0x67, 0x1f,
  0xcb, 0x79, 0xe6, 0x4e, 0xcc, 0xc0, 0xe5, 0x78, 0x82, 0x5a, 0xd0, 0x7d, 0xcc, 0xff, 0x72, 0x21,
  0xb8, 0x08, 0x46, 0x74, 0xf7, 0x43, 0x24, 0x8e, 0xe0, 0x35, 0x90, 0xe6, 0x81, 0x3a, 0x26, 0x4c,
  0x3c, 0x28, 0x52, 0xbb, 0x91, 0xc3, 0x00, 0xcb, 0x88, 0xd0, 0x65, 0x8b, 0x1b, 0x53, 0x2e, 0xa3,
  0x71, 0x64, 0x48, 0x97, 0xa2, 0x0d, 0xf9, 0x4e, 0x38, 0x19, 0xef, 0x46, 0xa9, 0xde, 0xac, 0xd8,
  0xa8, 0xfa, 0x76, 0x3f, 0xe3, 0x9c, 0x34, 0x3f, 0xf9, 0xdc, 0xbb, 0xc7, 0xc7, 0x0b, 0x4f, 0x1d,
  0x8a, 0x51, 0xe0, 0x4b, 0xcd, 0xb4, 0x59, 0x31, 0xc8, 0x9f, 0x7e, 0xc9, 0xd9, 0x78, 0x73, 0x64,
  0xea, 0xc5, 0xac, 0x83, 0x34, 0xd3, 0xeb, 0xc3, 0xc5, 0x81, 0xa0, 0xff, 0xfa, 0x13, 0x63, 0xeb,
  0x17, 0x0d, 0xdd, 0x51, 0xb7, 0xf0, 0xda, 0x49, 0xd3, 0x16, 0x55, 0x26, 0x29, 0xd4, 0x68, 0x9e,
  0x2b, 0x16, 0xbe, 0x58, 0x7d, 0x47, 0xa1, 0xfc, 0x8f, 0xf8, 0xb8, 0xd1, 0x7a, 0xd0, 0x31, 0xce,
  0x45, 0xcb, 0x3a, 0x8f, 0x95, 0x16, 0x04, 0x28, 0xaf, 0xd7, 0xfb, 0xca, 0xbb, 0x4b, 0x40, 0x7e]

/-- The first mixing prime of 32 bits. -/
def prime32A : UInt64 := 0x9E3779B1

/-- The second mixing prime of 32 bits. -/
def prime32B : UInt64 := 0x85EBCA77

/-- The third mixing prime of 32 bits. -/
def prime32C : UInt64 := 0xC2B2AE3D

/-- The first mixing prime of 64 bits. -/
def prime64A : UInt64 := 0x9E3779B185EBCA87

/-- The second mixing prime of 64 bits. -/
def prime64B : UInt64 := 0xC2B2AE3D27D4EB4F

/-- The third mixing prime of 64 bits. -/
def prime64C : UInt64 := 0x165667B19E3779F9

/-- The fourth mixing prime of 64 bits. -/
def prime64D : UInt64 := 0x85EBCA77C2B2AE63

/-- The fifth mixing prime of 64 bits. -/
def prime64E : UInt64 := 0x27D4EB2F165667C5

/-- The multiplier of the long final mix. -/
def mixPrimeA : UInt64 := 0x165667919E3779F9

/-- The multiplier of the rotating mix. -/
def mixPrimeB : UInt64 := 0x9FB21C651E98DF25

/-- The little-endian number in the `width` bytes from `start` on. Bytes past the end are zero. -/
def readWord (bytes : Array UInt8) (start : Nat) : Nat → UInt64
  | 0 => 0
  | width + 1 =>
    (bytes.getD start 0).toUInt64 ||| (readWord bytes (start + 1) width <<< 8)

/-- The eight bytes from `start` on as a number. -/
def read64 (bytes : Array UInt8) (start : Nat) : UInt64 := readWord bytes start 8

/-- The four bytes from `start` on as a number. -/
def read32 (bytes : Array UInt8) (start : Nat) : UInt64 := readWord bytes start 4

/-- Rotates the bits to the left. -/
def rotateLeft (word : UInt64) (places : UInt64) : UInt64 :=
  (word <<< places) ||| (word >>> (64 - places))

/-- The bytes of the number in reverse order. -/
def swapBytes (word : UInt64) : UInt64 :=
  (List.range 8).foldl
    (fun swapped place => (swapped <<< 8) ||| ((word >>> (8 * place.toUInt64)) &&& 0xFF)) 0

/-- The two halves of the 128-bit product, combined by exclusive or. -/
def foldProduct (first second : UInt64) : UInt64 :=
  let product := first.toNat * second.toNat
  UInt64.ofNat product ^^^ UInt64.ofNat (product >>> 64)

/-- Spreads every bit of the number over the whole of it, with two rounds of primes. -/
def avalancheShort (hash : UInt64) : UInt64 :=
  let hash := (hash ^^^ (hash >>> 33)) * prime64B
  let hash := (hash ^^^ (hash >>> 29)) * prime64C
  hash ^^^ (hash >>> 32)

/-- Spreads every bit of the number over the whole of it, with one round. -/
def avalanche (hash : UInt64) : UInt64 :=
  let hash := (hash ^^^ (hash >>> 37)) * mixPrimeA
  hash ^^^ (hash >>> 32)

/-- Spreads the number with rotations, and the input's length with it. -/
def rotateMix (hash length : UInt64) : UInt64 :=
  let hash := (hash ^^^ rotateLeft hash 49 ^^^ rotateLeft hash 24) * mixPrimeB
  let hash := (hash ^^^ ((hash >>> 35) + length)) * mixPrimeB
  hash ^^^ (hash >>> 28)

/-- The word of the secret at a place. -/
def secretAt (place : Nat) : UInt64 := read64 secret place

/-- The digest of at most 16 bytes. -/
def upTo16 (bytes : Array UInt8) : UInt64 :=
  let size := bytes.size
  let length := size.toUInt64
  if size = 0 then avalancheShort (secretAt 56 ^^^ secretAt 64)
  else if size ≤ 3 then
    let combined := (readWord bytes 0 1 <<< 16) ||| (readWord bytes (size / 2) 1 <<< 24) |||
      readWord bytes (size - 1) 1 ||| (length <<< 8)
    avalancheShort (combined ^^^ read32 secret 0 ^^^ read32 secret 4)
  else if size ≤ 8 then
    let combined := read32 bytes (size - 4) + (read32 bytes 0 <<< 32)
    rotateMix (combined ^^^ (secretAt 8 ^^^ secretAt 16)) length
  else
    let low := read64 bytes 0 ^^^ (secretAt 24 ^^^ secretAt 32)
    let high := read64 bytes (size - 8) ^^^ (secretAt 40 ^^^ secretAt 48)
    avalanche (length + swapBytes low + high + foldProduct low high)

/-- Mixes the 16 bytes at a place of the input with 16 bytes of the secret. -/
def mix16 (bytes : Array UInt8) (place secretPlace : Nat) : UInt64 :=
  foldProduct (read64 bytes place ^^^ secretAt secretPlace)
    (read64 bytes (place + 8) ^^^ secretAt (secretPlace + 8))

/-- The digest of 17 to 128 bytes: pairs of pieces from both ends towards the middle. -/
def upTo128 (bytes : Array UInt8) : UInt64 :=
  let size := bytes.size
  let pairs := (size - 1) / 32 + 1
  avalanche <| (List.range pairs).foldl
    (fun sum pair => sum + mix16 bytes (16 * pair) (32 * pair) +
      mix16 bytes (size - 16 * (pair + 1)) (32 * pair + 16))
    (size.toUInt64 * prime64A)

/-- The digest of 129 to 240 bytes. -/
def upTo240 (bytes : Array UInt8) : UInt64 :=
  let size := bytes.size
  let first := (List.range 8).foldl (fun sum piece => sum + mix16 bytes (16 * piece) (16 * piece))
    (size.toUInt64 * prime64A)
  let more := (List.range (size / 16 - 8)).foldl
    (fun sum piece => sum + mix16 bytes (16 * (piece + 8)) (16 * piece + 3)) (avalanche first)
  avalanche (more + mix16 bytes (size - 16) 119)

/-- The accumulators before the first stripe. -/
def accumulators : List UInt64 :=
  [prime32C, prime64A, prime64B, prime64C, prime64D, prime32B, prime64E, prime32A]

/-- Adds a stripe of 64 bytes: each accumulator gets the product of the halves of its own word,
    mixed with the secret, and the word of its neighbour. -/
def addStripe (bytes : Array UInt8) (place secretPlace : Nat) (sums : List UInt64) :
    List UInt64 :=
  let words := (List.range 8).map fun lane => read64 bytes (place + 8 * lane)
  sums.zipIdx.map fun (sum, lane) =>
    let neighbour := words.getD (if lane % 2 = 0 then lane + 1 else lane - 1) 0
    let keyed := words.getD lane 0 ^^^ secretAt (secretPlace + 8 * lane)
    sum + neighbour + (keyed &&& (0xFFFFFFFF : UInt64)) * (keyed >>> (32 : UInt64))

/-- Scrambles the accumulators after a full block. -/
def scramble (sums : List UInt64) : List UInt64 :=
  sums.zipIdx.map fun (sum, lane) =>
    (sum ^^^ (sum >>> 47) ^^^ secretAt (128 + 8 * lane)) * prime32A

/-- Adds so many consecutive stripes, from a place on. -/
def addStripes (bytes : Array UInt8) (place count : Nat) (sums : List UInt64) : List UInt64 :=
  (List.range count).foldl
    (fun sums stripe => addStripe bytes (place + 64 * stripe) (8 * stripe) sums) sums

/-- The digest of more than 240 bytes. -/
def beyond240 (bytes : Array UInt8) : UInt64 :=
  let size := bytes.size
  let blocks := (size - 1) / 1024
  let sums := (List.range blocks).foldl
    (fun sums block => scramble (addStripes bytes (1024 * block) 16 sums)) accumulators
  let sums := addStripes bytes (1024 * blocks) ((size - 1 - 1024 * blocks) / 64) sums
  let sums := addStripe bytes (size - 64) 121 sums
  avalanche <| (List.range 4).foldl
    (fun hash pair => hash + foldProduct
      (sums.getD (2 * pair) 0 ^^^ secretAt (11 + 16 * pair))
      (sums.getD (2 * pair + 1) 0 ^^^ secretAt (19 + 16 * pair)))
    (size.toUInt64 * prime64A)

/-- The digest of a byte string. -/
def ofBytes (bytes : Array UInt8) : UInt64 :=
  if bytes.size ≤ 16 then upTo16 bytes
  else if bytes.size ≤ 128 then upTo128 bytes
  else if bytes.size ≤ 240 then upTo240 bytes
  else beyond240 bytes

/-- The number in 16 hexadecimal digits. -/
def hexDigits (word : UInt64) : String :=
  let digits := Nat.toDigits 16 word.toNat
  String.ofList (List.replicate (16 - digits.length) '0' ++ digits)

/-- The digest of a text in UTF-8, in 16 hexadecimal digits. -/
def hex (text : String) : String :=
  hexDigits (ofBytes text.toUTF8.data)

end HeaderSearch.Digest
