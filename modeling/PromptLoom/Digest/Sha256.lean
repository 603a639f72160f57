/-!
# The SHA-256 digest

The digest of a byte string: padding to whole blocks, a message schedule of sixty-four words for
each block, and sixty-four rounds over a chaining state of eight words.
-/

namespace PromptLoom.Digest

set_option autoImplicit false

structure Chain where
  a : UInt32
  b : UInt32
  c : UInt32
  d : UInt32
  e : UInt32
  f : UInt32
  g : UInt32
  h : UInt32
  deriving Repr, DecidableEq

def Chain.start : Chain :=
  ⟨0x6a09e667, 0xbb67ae85, 0x3c6ef372, 0xa54ff53a, 0x510e527f, 0x9b05688c, 0x1f83d9ab, 0x5be0cd19⟩

def roundConstants : List UInt32 := [
  0x428a2f98, 0x71374491, 0xb5c0fbcf, 0xe9b5dba5, 0x3956c25b, 0x59f111f1, 0x923f82a4, 0xab1c5ed5,
  0xd807aa98, 0x12835b01, 0x243185be, 0x550c7dc3, 0x72be5d74, 0x80deb1fe, 0x9bdc06a7, 0xc19bf174,
  0xe49b69c1, 0xefbe4786, 0x0fc19dc6, 0x240ca1cc, 0x2de92c6f, 0x4a7484aa, 0x5cb0a9dc, 0x76f988da,
  0x983e5152, 0xa831c66d, 0xb00327c8, 0xbf597fc7, 0xc6e00bf3, 0xd5a79147, 0x06ca6351, 0x14292967,
  0x27b70a85, 0x2e1b2138, 0x4d2c6dfc, 0x53380d13, 0x650a7354, 0x766a0abb, 0x81c2c92e, 0x92722c85,
  0xa2bfe8a1, 0xa81a664b, 0xc24b8b70, 0xc76c51a3, 0xd192e819, 0xd6990624, 0xf40e3585, 0x106aa070,
  0x19a4c116, 0x1e376c08, 0x2748774c, 0x34b0bcb5, 0x391c0cb3, 0x4ed8aa4a, 0x5b9cca4f, 0x682e6ff3,
  0x748f82ee, 0x78a5636f, 0x84c87814, 0x8cc70208, 0x90befffa, 0xa4506ceb, 0xbef9a3f7, 0xc67178f2]

def rotateRight (word amount : UInt32) : UInt32 :=
  (word >>> amount) ||| (word <<< (32 - amount))

def bytes64 (n : Nat) : List UInt8 :=
  [56, 48, 40, 32, 24, 16, 8, 0].map fun shift => (n >>> shift).toUInt8

/-- A message with a one bit, zeros, and its length in bits, so that whole blocks result. -/
def padded (message : List UInt8) : List UInt8 :=
  let zeros := (119 - message.length % 64) % 64
  message ++ 0x80 :: (List.replicate zeros 0 ++ bytes64 (message.length * 8))

/-- Four bytes at a time as words, highest byte first. -/
def wordsOf : List UInt8 → List UInt32
  | w :: x :: y :: z :: rest =>
      ((w.toUInt32 <<< 24) ||| (x.toUInt32 <<< 16) ||| (y.toUInt32 <<< 8) ||| z.toUInt32)
        :: wordsOf rest
  | _ => []

def nextWord (latest : List UInt32) : UInt32 :=
  let near := latest.getD 1 0
  let far := latest.getD 14 0
  let small := rotateRight far 7 ^^^ rotateRight far 18 ^^^ (far >>> 3)
  let large := rotateRight near 17 ^^^ rotateRight near 19 ^^^ (near >>> 10)
  large + latest.getD 6 0 + small + latest.getD 15 0

/-- The schedule, latest word first, after some more words. -/
def extendSchedule : Nat → List UInt32 → List UInt32
  | 0, latest => latest
  | more + 1, latest => extendSchedule more (nextWord latest :: latest)

def schedule (block : List UInt32) : List UInt32 := (extendSchedule 48 block.reverse).reverse

def step (s : Chain) (constant word : UInt32) : Chain :=
  let choose := (s.e &&& s.f) ^^^ ((~~~ s.e) &&& s.g)
  let majority := (s.a &&& s.b) ^^^ (s.a &&& s.c) ^^^ (s.b &&& s.c)
  let low := rotateRight s.e 6 ^^^ rotateRight s.e 11 ^^^ rotateRight s.e 25
  let high := rotateRight s.a 2 ^^^ rotateRight s.a 13 ^^^ rotateRight s.a 22
  let first := s.h + low + choose + constant + word
  ⟨first + high + majority, s.a, s.b, s.c, s.d + first, s.e, s.f, s.g⟩

def absorb (s : Chain) (block : List UInt32) : Chain :=
  let t := (roundConstants.zip (schedule block)).foldl (fun t (k, w) => step t k w) s
  ⟨s.a + t.a, s.b + t.b, s.c + t.c, s.d + t.d, s.e + t.e, s.f + t.f, s.g + t.g, s.h + t.h⟩

def absorbAll (s : Chain) (words : List UInt32) : Chain :=
  match words with
  | [] => s
  | w :: rest => absorbAll (absorb s ((w :: rest).take 16)) (rest.drop 15)
termination_by words.length
decreasing_by simp only [List.length_drop, List.length_cons]; omega

def hexWord (word : UInt32) : List Char :=
  [28, 24, 20, 16, 12, 8, 4, 0].map fun shift =>
    Nat.digitChar ((word.toNat >>> shift) % 16)

def sha256Hex (message : List UInt8) : List Char :=
  let s := absorbAll .start (wordsOf (padded message))
  [s.a, s.b, s.c, s.d, s.e, s.f, s.g, s.h].flatMap hexWord

end PromptLoom.Digest
