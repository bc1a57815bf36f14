/-!
# Pseudorandom numbers

The Mersenne twister of 624 words of 32 bits. The seed is an integer of any size, taken as words,
least significant first, without its sign. A number below a bound is drawn as bits, again and again
until it is below.
-/

namespace Turmite

/-- The words of the twister and the place of the next one. -/
structure Generator where
  words : Array UInt32
  next : Nat

namespace Generator

/-- The number of words. -/
def wordCount : Nat := 624

/-- The distance of the word that is mixed in. -/
def middle : Nat := 397

/-- A word of the state. -/
def wordAt (words : Array UInt32) (k : Nat) : UInt32 := words.getD k 0

/-- A word mixed with its own upper bits. -/
def scramble (w : UInt32) : UInt32 := w ^^^ (w >>> 30)

/-- The words that grow from one. -/
def grow (seed : UInt32) : Array UInt32 :=
  (List.range (wordCount - 1)).foldl (fun words k =>
    words.push (1812433253 * scramble (wordAt words k) + UInt32.ofNat (k + 1))) #[seed]

/-- The words with the one at `i` replaced; the last word is copied to the front. -/
def place (words : Array UInt32) (i : Nat) (w : UInt32) : Array UInt32 :=
  let words := words.setIfInBounds i w
  if i + 1 = wordCount then words.setIfInBounds 0 w else words

/-- The place after `i`, which is never the first. -/
def after (i : Nat) : Nat := if i + 1 = wordCount then 1 else i + 1

/-- Mixes the words of a key in, in turn. -/
def mixKey (key : Array UInt32) : (rounds : Nat) → (i j : Nat) → Array UInt32 → Nat × Array UInt32
  | 0, i, _, words => (i, words)
  | rounds + 1, i, j, words =>
    let mixed := wordAt words i ^^^ (scramble (wordAt words (i - 1)) * 1664525)
    let w := mixed + key.getD j 0 + UInt32.ofNat j
    mixKey key rounds (after i) ((j + 1) % key.size) (place words i w)

/-- Mixes the places in. -/
def mixPlaces : (rounds : Nat) → (i : Nat) → Array UInt32 → Array UInt32
  | 0, _, words => words
  | rounds + 1, i, words =>
    let mixed := wordAt words i ^^^ (scramble (wordAt words (i - 1)) * 1566083941)
    mixPlaces rounds (after i) (place words i (mixed - UInt32.ofNat i))

/-- The words of a natural number, least significant first, at least one. -/
def keyWords (n : Nat) : List UInt32 :=
  if n < UInt32.size then [UInt32.ofNat n]
  else UInt32.ofNat (n % UInt32.size) :: keyWords (n / UInt32.size)
termination_by n
decreasing_by
  unfold UInt32.size at *
  omega

/-- The generator of a seed. -/
def ofSeed (seed : Int) : Generator :=
  let key := (keyWords seed.natAbs).toArray
  let (i, words) := mixKey key (max wordCount key.size) 1 0 (grow 19650218)
  let words := mixPlaces (wordCount - 1) i words
  ⟨words.setIfInBounds 0 0x80000000, wordCount⟩

/-- The words with the one at `k` renewed. -/
def renewAt (words : Array UInt32) (k : Nat) : Array UInt32 :=
  let joined := (wordAt words k &&& 0x80000000) |||
    (wordAt words ((k + 1) % wordCount) &&& 0x7FFFFFFF)
  let twisted := (joined >>> 1) ^^^ (if joined &&& 1 = 0 then 0 else 0x9908B0DF)
  words.setIfInBounds k (wordAt words ((k + middle) % wordCount) ^^^ twisted)

/-- All words renewed. -/
def renew (words : Array UInt32) : Array UInt32 := (List.range wordCount).foldl renewAt words

/-- The output of a word. -/
def temper (w : UInt32) : UInt32 :=
  let w := w ^^^ (w >>> 11)
  let w := w ^^^ ((w <<< 7) &&& 0x9D2C5680)
  let w := w ^^^ ((w <<< 15) &&& 0xEFC60000)
  w ^^^ (w >>> 18)

/-- The next 32 bits. -/
def draw (g : Generator) : UInt32 × Generator :=
  let g := if g.next < wordCount then g else ⟨renew g.words, 0⟩
  (temper (wordAt g.words g.next), { g with next := g.next + 1 })

/-- The next `k` bits; whole words give the lower ones, the upper bits of one more word the rest. -/
def bits (k : Nat) (g : Generator) : Nat × Generator :=
  let (w, g) := g.draw
  if k ≤ 32 then (w.toNat / Nat.pow 2 (32 - k), g)
  else
    let (upper, g) := bits (k - 32) g
    (w.toNat + UInt32.size * upper, g)
termination_by k
decreasing_by omega

/-- The number of states of the generator, after which it repeats itself. -/
def period : Nat := 624 * Nat.pow 2 19968

/-- A number below `n`, drawn at most `limit` times. -/
def belowWithin (n : Nat) : (limit : Nat) → Generator → Nat × Generator
  | 0, g => (0, g)
  | limit + 1, g =>
    let (r, g) := g.bits (n.log2 + 1)
    if r < n then (r, g) else belowWithin n limit g

/-- A number below a positive `n`. -/
def below (n : Nat) (g : Generator) : Nat × Generator := belowWithin n period g

end Generator
end Turmite
