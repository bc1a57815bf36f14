import Turmite.Error

/-!
# Archives

An archive starts with the mark of its first member, or of its end if it has none, and closes with
a record of its end: a mark, the size and the place of its directory, and a comment. The directory
stands right before that record, or before two more records, which give wider numbers. It has an
entry for each member: fixed fields, and then a name, extra fields and a comment, whose lengths the
fixed fields give. Numbers have their lowest byte first.
-/

namespace Turmite.Archive

/-- Whether bytes begin with others. -/
def startsWith (start bytes : List UInt8) : Bool := start.isPrefixOf bytes

/-- The mark of a member: the letters PK and two numbers. -/
def memberMark : List UInt8 := [0x50, 0x4B, 3, 4]

/-- The mark of an entry of the directory. -/
def entryMark : List UInt8 := [0x50, 0x4B, 1, 2]

/-- The mark of the end. -/
def endMark : List UInt8 := [0x50, 0x4B, 5, 6]

/-- The mark of the end with wide numbers. -/
def wideEndMark : List UInt8 := [0x50, 0x4B, 6, 6]

/-- The mark of the record that tells of wide numbers. -/
def locatorMark : List UInt8 := [0x50, 0x4B, 6, 7]

/-- The number of bytes of the record of the end, without a comment. -/
def recordSize : Nat := 22

/-- The number of bytes of the fixed fields of an entry. -/
def entrySize : Nat := 46

/-- The number of bytes of the record of the end with wide numbers. -/
def wideEndSize : Nat := 56

/-- The number of bytes of the record that tells of wide numbers. -/
def locatorSize : Nat := 20

/-- The bytes, before a last record of the end, from which on the record is looked for. -/
def maxComment : Nat := 65536

/-- Whether a file starts like an archive. -/
def isArchive (bytes : List UInt8) : Bool :=
  startsWith memberMark bytes || startsWith endMark bytes

/-- The number that bytes stand for, lowest byte first. -/
def number : List UInt8 → Nat
  | [] => 0
  | b :: r => b.toNat + 256 * number r

/-- Some bytes from a place on. -/
def slice (bytes : List UInt8) (place width : Nat) : List UInt8 := (bytes.drop place).take width

/-- The number in some bytes of a record. -/
def field (record : List UInt8) (place width : Nat) : Nat := number (slice record place width)

/-! ## The end -/

/-- The last place from which on a mark stands. -/
def lastMark? : (bytes : List UInt8) → (place : Nat) → Option Nat
  | [], _ => none
  | b :: r, place =>
    match lastMark? r (place + 1) with
    | some later => some later
    | none => if startsWith endMark (b :: r) then some place else none

/-- The place of the record of the end: at the end of the file, or before a comment. -/
def recordPlace? (bytes : List UInt8) : Option Nat :=
  let last := bytes.length - recordSize
  let record := bytes.drop last
  if record.length = recordSize && startsWith endMark record && field record 20 2 = 0 then some last
  else
    let skipped := bytes.length - (recordSize + maxComment)
    match lastMark? (bytes.drop skipped) skipped with
    | some place => if place + recordSize ≤ bytes.length then some place else none
    | none => none

/-- Where a directory ends, and its size as it is told. -/
structure Extent where
  stop : Nat
  size : Nat

/-- The extent of the directory before the record of the end at a place. An archive is in one
piece. -/
def extent? (bytes : List UInt8) (place : Nat) : Except Error Extent := do
  let narrow : Extent := ⟨place, field (slice bytes place recordSize) 12 4⟩
  let locator := slice bytes (place - locatorSize) locatorSize
  if place < locatorSize || !startsWith locatorMark locator then pure narrow
  else
    ensure (field locator 4 4 = 0 && field locator 16 4 ≤ 1) .badArchive
    ensure (locatorSize + wideEndSize ≤ place) .badArchive
    let start := place - locatorSize - wideEndSize
    let record := slice bytes start wideEndSize
    pure (if startsWith wideEndMark record then ⟨start, field record 40 8⟩ else narrow)

/-! ## The directory -/

/-- The characters of the bytes from 128 on in names that are not in UTF-8. -/
def upperCharacters : List Char :=
  ("ÇüéâäàåçêëèïîìÄÅÉæÆôöòûùÿÖÜ¢£¥₧ƒáíóúñÑªº¿⌐¬½¼¡«»░▒▓│┤╡╢╖╕╣║╗╝╜╛┐" ++
    "└┴┬├─┼╞╟╚╔╩╦╠═╬╧╨╤╥╙╘╒╓╫╪┘┌█▄▌▐▀αßΓπΣσµτΦΘΩδ∞φε∩≡±≥≤⌠⌡÷≈°∙·√ⁿ²■\u00a0").toList

/-- The character of a byte of a name that is not in UTF-8. -/
def characterOf (b : UInt8) : Char :=
  if b.toNat < 128 then Char.ofNat b.toNat else upperCharacters.getD (b.toNat - 128) ' '

/-- The name of a member. Whether it is in UTF-8 is a bit of the flags; NUL ends it. -/
def name? (flags : Nat) (bytes : List UInt8) : Except Error Text := do
  let chars ←
    if flags.testBit 11 then
      match Utf8.decode? bytes with
      | .ok chars => pure chars
      | .error fault => throw (.undecodable fault)
    else pure (bytes.map characterOf)
  pure ((chars.takeWhile (· ≠ '\x00')).map .scalar)

/-- The number that tells of a wider one in an extra field. -/
def escapeNumber : Nat := 0xFFFFFFFF

/-- The size, the packed size and the place of a member after an extra field, which holds a wider
number for each of them that tells of one. A wide size may tell of one again. -/
def widened? (size packed place : Nat) (data : List UInt8) : Except Error (Nat × Nat × Nat) := do
  let take (told : Bool) (n : Nat) (data : List UInt8) : Except Error (Nat × List UInt8) :=
    if told then
      if data.length < 8 then .error .badArchive else .ok (field data 0 8, data.drop 8)
    else .ok (n, data)
  let (size, data) ← take (size = escapeNumber || size = UInt64.size - 1) size data
  let (packed, data) ← take (packed = escapeNumber) packed data
  let (place, _) ← take (place = escapeNumber) place data
  pure (size, packed, place)

/-- Refuses extra fields that do not end with their bytes, or hold too few wide numbers. -/
def checkExtra (size packed place : Nat) : (extra : List UInt8) → Except Error Unit
  | a :: b :: c :: d :: r => do
    let length := number [c, d]
    ensure (length ≤ r.length) .badArchive
    if number [a, b] = 1 then
      let (size, packed, place) ← widened? size packed place (r.take length)
      checkExtra size packed place (r.drop length)
    else checkExtra size packed place (r.drop length)
  | _ => .ok ()
termination_by extra => extra.length
decreasing_by
  all_goals simp only [List.length_drop, List.length_cons]; omega

/-- The latest version that is understood, in tenths. -/
def latestVersion : Nat := 63

/-- The names of the members of a directory of a given size. -/
def entries? (size : Nat) (bytes : List UInt8) : Except Error (List Text) := do
  if size = 0 then pure []
  else
    let entry := bytes.take entrySize
    if entry.length = entrySize && startsWith entryMark entry then
      let nameLength := field entry 28 2
      let extraLength := field entry 30 2
      let rest := bytes.drop entrySize
      let name ← name? (field entry 8 2) (rest.take nameLength)
      ensure (field entry 6 1 ≤ latestVersion) .newerArchive
      checkExtra (field entry 24 4) (field entry 20 4) (field entry 42 4)
        (slice rest nameLength extraLength)
      let used := nameLength + extraLength + field entry 32 2
      let names ← entries? (size - (entrySize + used)) (rest.drop used)
      pure (name :: names)
    else .error .badArchive
termination_by size
decreasing_by
  simp only [entrySize]
  omega

/-- The names of the members of an archive. -/
def memberNames? (bytes : List UInt8) : Except Error (List Text) := do
  match recordPlace? bytes with
  | none => .error .badArchive
  | some place =>
    let e ← extent? bytes place
    ensure (e.size ≤ e.stop) .badArchive
    entries? e.size (slice bytes (e.stop - e.size) e.size)

end Turmite.Archive
