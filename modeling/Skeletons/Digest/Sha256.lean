namespace Skeletons.Sha256

def roundConstants : List UInt32 := [
  0x428a2f98, 0x71374491, 0xb5c0fbcf, 0xe9b5dba5, 0x3956c25b, 0x59f111f1, 0x923f82a4, 0xab1c5ed5,
  0xd807aa98, 0x12835b01, 0x243185be, 0x550c7dc3, 0x72be5d74, 0x80deb1fe, 0x9bdc06a7, 0xc19bf174,
  0xe49b69c1, 0xefbe4786, 0x0fc19dc6, 0x240ca1cc, 0x2de92c6f, 0x4a7484aa, 0x5cb0a9dc, 0x76f988da,
  0x983e5152, 0xa831c66d, 0xb00327c8, 0xbf597fc7, 0xc6e00bf3, 0xd5a79147, 0x06ca6351, 0x14292967,
  0x27b70a85, 0x2e1b2138, 0x4d2c6dfc, 0x53380d13, 0x650a7354, 0x766a0abb, 0x81c2c92e, 0x92722c85,
  0xa2bfe8a1, 0xa81a664b, 0xc24b8b70, 0xc76c51a3, 0xd192e819, 0xd6990624, 0xf40e3585, 0x106aa070,
  0x19a4c116, 0x1e376c08, 0x2748774c, 0x34b0bcb5, 0x391c0cb3, 0x4ed8aa4a, 0x5b9cca4f, 0x682e6ff3,
  0x748f82ee, 0x78a5636f, 0x84c87814, 0x8cc70208, 0x90befffa, 0xa4506ceb, 0xbef9a3f7, 0xc67178f2]

structure Words where
  a : UInt32
  b : UInt32
  c : UInt32
  d : UInt32
  e : UInt32
  f : UInt32
  g : UInt32
  h : UInt32

def initial : Words where
  a := 0x6a09e667
  b := 0xbb67ae85
  c := 0x3c6ef372
  d := 0xa54ff53a
  e := 0x510e527f
  f := 0x9b05688c
  g := 0x1f83d9ab
  h := 0x5be0cd19

def rotateRight (word amount : UInt32) : UInt32 := word >>> amount ||| word <<< (32 - amount)

def bytes32 (word : UInt32) : List UInt8 :=
  [24, 16, 8, 0].map fun shift : UInt32 => (word >>> shift).toUInt8

def bytes64 (word : UInt64) : List UInt8 :=
  [56, 48, 40, 32, 24, 16, 8, 0].map fun shift : UInt64 => (word >>> shift).toUInt8

/-- The message, a single one bit, zeros up to eight bytes short of a whole block, and the length of
    the message in bits. -/
def pad (message : List UInt8) : List UInt8 :=
  let zeros := (119 - message.length % 64) % 64
  message ++ 0x80 :: List.replicate zeros 0 ++ bytes64 (UInt64.ofNat (8 * message.length))

def wordsOfBytes : List UInt8 → List UInt32
  | a :: b :: c :: d :: rest =>
    (a.toUInt32 <<< 24 ||| b.toUInt32 <<< 16 ||| c.toUInt32 <<< 8 ||| d.toUInt32)
      :: wordsOfBytes rest
  | _ => []

/-- The next word of a schedule whose last words are given, latest first. -/
def nextWord (latest : List UInt32) : UInt32 :=
  let early := latest.getD 14 0
  let late := latest.getD 1 0
  let spread := rotateRight early 7 ^^^ rotateRight early 18 ^^^ early >>> 3
  let mixed := rotateRight late 17 ^^^ rotateRight late 19 ^^^ late >>> 10
  latest.getD 15 0 + spread + latest.getD 6 0 + mixed

def schedule (block : List UInt32) : List UInt32 :=
  ((List.range 48).foldl (fun latest _ => nextWord latest :: latest) block.reverse).reverse

def round (w : Words) (input : UInt32 × UInt32) : Words :=
  let spread := rotateRight w.e 6 ^^^ rotateRight w.e 11 ^^^ rotateRight w.e 25
  let choice := (w.e &&& w.f) ^^^ (~~~w.e &&& w.g)
  let first := w.h + spread + choice + input.1 + input.2
  let turned := rotateRight w.a 2 ^^^ rotateRight w.a 13 ^^^ rotateRight w.a 22
  let majority := (w.a &&& w.b) ^^^ (w.a &&& w.c) ^^^ (w.b &&& w.c)
  ⟨first + (turned + majority), w.a, w.b, w.c, w.d + first, w.e, w.f, w.g⟩

def compress (w : Words) (block : List UInt32) : Words :=
  let r := (roundConstants.zip (schedule block)).foldl round w
  ⟨w.a + r.a, w.b + r.b, w.c + r.c, w.d + r.d, w.e + r.e, w.f + r.f, w.g + r.g, w.h + r.h⟩

/-- Folds `count` blocks of sixteen words into the working words. -/
def absorb : Nat → Words → List UInt32 → Words
  | 0, w, _ => w
  | count + 1, w, message => absorb count (compress w (message.take 16)) (message.drop 16)

def digest (message : List UInt8) : List UInt8 :=
  let words := wordsOfBytes (pad message)
  let w := absorb (words.length / 16) initial words
  [w.a, w.b, w.c, w.d, w.e, w.f, w.g, w.h].flatMap bytes32

end Skeletons.Sha256
