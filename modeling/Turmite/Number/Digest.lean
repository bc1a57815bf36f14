/-!
# Digests of 64 bytes

A message is closed with a bit, zeros and its length in bits, and cut into blocks of sixteen words
of 64 bits, highest byte first. Each block is grown to eighty words, which are mixed into eight
registers together with as many constants; what the registers held before is added again. The
constants are bits of the fractions of cube roots of primes, and the registers start with those of
square roots.
-/

namespace Turmite.Digest

/-- The primes below 410, eighty of them. -/
def primes : List Nat :=
  (List.range 410).filter fun p => 2 ≤ p && (List.range p).all fun d => d < 2 || p % d ≠ 0

/-- The greatest number below `2 ^ bits` above `root` whose power is at most `n`. -/
def rootFrom (power n : Nat) : (bits : Nat) → (root : Nat) → Nat
  | 0, root => root
  | bits + 1, root =>
    let next := root + Nat.pow 2 bits
    rootFrom power n bits (if Nat.pow next power ≤ n then next else root)

/-- The first 64 bits of the fraction of a root of a number below `2 ^ 12`. -/
def fractionBits (power n : Nat) : UInt64 :=
  UInt64.ofNat (rootFrom power (n * Nat.pow 2 (64 * power)) 76 0)

/-- The constants of the eighty rounds. -/
def roundConstants : Array UInt64 := (primes.map (fractionBits 3)).toArray

/-- The words that are mixed. -/
structure Registers where
  a : UInt64
  b : UInt64
  c : UInt64
  d : UInt64
  e : UInt64
  f : UInt64
  g : UInt64
  h : UInt64

namespace Registers

/-- The registers before the first block. -/
def initial : Registers :=
  let root := fractionBits 2
  ⟨root 2, root 3, root 5, root 7, root 11, root 13, root 17, root 19⟩

/-- The sums of registers. -/
def add (r s : Registers) : Registers :=
  ⟨r.a + s.a, r.b + s.b, r.c + s.c, r.d + s.d, r.e + s.e, r.f + s.f, r.g + s.g, r.h + s.h⟩

/-- The words in order. -/
def words (r : Registers) : List UInt64 := [r.a, r.b, r.c, r.d, r.e, r.f, r.g, r.h]

end Registers

/-- A word turned to the right. -/
def turn (w k : UInt64) : UInt64 := (w >>> k) ||| (w <<< (64 - k))

/-- One round with a word of the block and a constant. -/
def round (r : Registers) (word constant : UInt64) : Registers :=
  let choice := (r.e &&& r.f) ^^^ (~~~r.e &&& r.g)
  let majority := (r.a &&& r.b) ^^^ (r.a &&& r.c) ^^^ (r.b &&& r.c)
  let upper := turn r.e 14 ^^^ turn r.e 18 ^^^ turn r.e 41
  let lower := turn r.a 28 ^^^ turn r.a 34 ^^^ turn r.a 39
  let mixed := r.h + upper + choice + constant + word
  ⟨mixed + lower + majority, r.a, r.b, r.c, r.d + mixed, r.e, r.f, r.g⟩

/-- The words of a block with one more. -/
def growWord (words : Array UInt64) : Array UInt64 :=
  let word (back : Nat) : UInt64 := words.getD (words.size - back) 0
  let near := turn (word 2) 19 ^^^ turn (word 2) 61 ^^^ (word 2 >>> 6)
  let far := turn (word 15) 1 ^^^ turn (word 15) 8 ^^^ (word 15 >>> 7)
  words.push (near + word 7 + far + word 16)

/-- The registers after a block of sixteen words. -/
def absorb (r : Registers) (block : List UInt64) : Registers :=
  let words := (List.range 64).foldl (fun words _ => growWord words) block.toArray
  r.add ((List.range 80).foldl
    (fun s k => round s (words.getD k 0) (roundConstants.getD k 0)) r)

/-- The number that bytes stand for, highest byte first. -/
def number (bytes : List UInt8) : Nat := bytes.foldl (fun n b => n * 256 + b.toNat) 0

/-- The bytes of a number, `width` of them, highest byte first. -/
def bytesOf : (width : Nat) → (n : Nat) → List UInt8
  | 0, _ => []
  | width + 1, n => bytesOf width (n / 256) ++ [UInt8.ofNat (n % 256)]

/-- A message closed to whole blocks of 128 bytes. -/
def close (message : List UInt8) : List UInt8 :=
  let zeros := (239 - message.length % 128) % 128
  message ++ 0x80 :: List.replicate zeros 0 ++ bytesOf 16 (8 * message.length)

/-- The parts of a list, each of `width` items but for the last. -/
def parts {α : Type} (width : Nat) (items : List α) : List (List α) :=
  (List.range ((items.length + width - 1) / width)).map fun k =>
    (items.drop (k * width)).take width

/-- The digest of a message. -/
def ofBytes (message : List UInt8) : List UInt8 :=
  let words := (parts 8 (close message)).map fun part => UInt64.ofNat (number part)
  let r := (parts 16 words).foldl absorb .initial
  r.words.flatMap fun w => bytesOf 8 w.toNat

end Turmite.Digest
