import Turmite.Text.CodePoint

/-!
# Texts as bytes

A text without surrogates is written in UTF-8. In the name of a file a surrogate from U+DC80 to
U+DCFF stands for a byte that is part of no UTF-8 sequence; no other surrogate can be written.
-/

namespace Turmite

namespace CodePoint

/-- A surrogate. -/
def isSurrogate (c : CodePoint) : Bool := c.char?.isNone

/-- A surrogate that stands for a byte. -/
def isStrayByte (c : CodePoint) : Bool := 0xDC80 ≤ c.toNat && c.toNat ≤ 0xDCFF

/-- What can be written in the name of a file. -/
def isNameable (c : CodePoint) : Bool := !c.isSurrogate || c.isStrayByte

/-- The bytes of a code point in the name of a file. -/
def byteCount : CodePoint → Nat
  | scalar c => c.utf8Size
  | surrogate _ => 1

end CodePoint

/-- Code points that cannot be written: the places of the first and of the last of the surrogates
that begin with a given one. -/
structure EncodingFault where
  first : Nat
  last : Nat
  codePoint : CodePoint

namespace Text

/-- The first code points of a text that are not of a class that can be written. -/
def encodingFault? (isWritable : CodePoint → Bool) (t : Text) : Option EncodingFault :=
  match t.dropWhile isWritable with
  | [] => none
  | c :: r =>
    let first := (t.takeWhile isWritable).length
    some ⟨first, first + (r.takeWhile CodePoint.isSurrogate).length, c⟩

/-- The number of bytes of a text in the name of a file. -/
def byteCount (t : Text) : Nat := t.foldl (fun n c => n + c.byteCount) 0

/-- Only a text with code points that cannot be written has a fault. -/
theorem encodingFault?_eq_none {isWritable : CodePoint → Bool} {t : Text}
    (h : ∀ c ∈ t, isWritable c = true) : t.encodingFault? isWritable = none := by
  have : t.dropWhile isWritable = [] := by
    induction t with
    | nil => rfl
    | cons c r ih =>
      rw [List.dropWhile_cons_of_pos (h c List.mem_cons_self)]
      exact ih fun d hd => h d (List.mem_cons_of_mem _ hd)
  simp [encodingFault?, this]

end Text
end Turmite
