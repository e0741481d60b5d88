import CilLoader.Digest

/-!
# The SHA-1 digest

The digest that programs use for the tokens of public keys. The message is padded to whole blocks of
sixteen 32-bit words, stored most significant byte first, and every block is mixed into a chain of
five words in eighty rounds.
-/

namespace CilLoader.Sha1

structure State where
  a : UInt32
  b : UInt32
  c : UInt32
  d : UInt32
  e : UInt32
deriving DecidableEq, Repr

namespace State

def start : State :=
  ⟨0x67452301, 0xEFCDAB89, 0x98BADCFE, 0x10325476, 0xC3D2E1F0⟩

def add (left right : State) : State :=
  ⟨left.a + right.a, left.b + right.b, left.c + right.c, left.d + right.d, left.e + right.e⟩

end State

def rotateLeft (word : UInt32) (count : UInt32) : UInt32 :=
  (word <<< count) ||| (word >>> (32 - count))

/-- The bytes of a word, the most significant first. -/
def wordBytes (word : UInt32) : List UInt8 :=
  (Bytes.ofNumber 4 word.toNat).reverse

def wordAt (message : Bytes) (position : Nat) : UInt32 :=
  (List.range 4).foldl
    (fun word offset => (word <<< 8) ||| UInt32.ofNat (message.byteAt (position + offset))) 0

/-- The message, a one bit, zeros up to eight bytes short of a whole block, and the length of the
message in bits. -/
def pad (message : Bytes) : Bytes :=
  let zeros := (119 - message.size % 64) % 64
  message ++ [0x80].toArray ++ (List.replicate zeros 0).toArray ++
    (Bytes.ofNumber 8 (message.size * 8)).reverse.toArray

/-- Extends the words of a block, each new one being made from four earlier ones. -/
def schedule : (count : Nat) → Array UInt32 → Array UInt32
  | 0, words => words
  | count + 1, words =>
    let word (back : Nat) := words.getD (words.size - back) 0
    schedule count (words.push (rotateLeft (word 3 ^^^ word 8 ^^^ word 14 ^^^ word 16) 1))

def roundMix (round : Nat) (state : State) : UInt32 :=
  let { b, c, d, .. } := state
  if round < 20 then ((b &&& c) ||| (~~~b &&& d)) + 0x5A827999
  else if round < 40 then (b ^^^ c ^^^ d) + 0x6ED9EBA1
  else if round < 60 then ((b &&& c) ||| (b &&& d) ||| (c &&& d)) + 0x8F1BBCDC
  else (b ^^^ c ^^^ d) + 0xCA62C1D6

def round (words : Array UInt32) (state : State) (index : Nat) : State :=
  let mixed := rotateLeft state.a 5 + roundMix index state + state.e + words.getD index 0
  ⟨mixed, state.a, rotateLeft state.b 30, state.c, state.d⟩

/-- Mixes the block that starts at a position into the chain. -/
def block (message : Bytes) (state : State) (position : Nat) : State :=
  let words := (List.range 16).map fun index => wordAt message (position + 4 * index)
  let schedule := schedule 64 words.toArray
  state.add ((List.range 80).foldl (round schedule) state)

def chain (message : Bytes) : State :=
  let padded := pad message
  (List.range (padded.size / 64)).foldl
    (fun state index => block padded state (64 * index)) State.start

def digest (message : Bytes) : Vector UInt8 20 :=
  let { a, b, c, d, e } := chain message
  let bytes := wordBytes a ++ wordBytes b ++ wordBytes c ++ wordBytes d ++ wordBytes e
  ⟨bytes.toArray, by simp [bytes, wordBytes]⟩

scoped instance : KeyDigest :=
  ⟨digest⟩

end CilLoader.Sha1
