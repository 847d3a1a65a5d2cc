/-!
# Positions in a text

A `Position` counts the bytes of UTF-8 before a place in a text, its line and its
column; `Position.advance` moves it past a character.  A `Span` is a range of bytes,
and `Span.slice?` the part of a text that it covers.
-/

namespace RuleLang

/-- A place in a text.  Lines and columns count from one, and columns count
characters. -/
structure Position where
  offset : Nat := 0
  line : Nat := 1
  column : Nat := 1
deriving DecidableEq, Repr

namespace Position

/-- The place behind the character `c`.  A line feed begins a line, and a carriage
return takes no column. -/
def advance (p : Position) (c : Char) : Position where
  offset := p.offset + c.utf8Size
  line := if c = '\n' then p.line + 1 else p.line
  column := if c = '\n' then 1 else if c = '\r' then p.column else p.column + 1

/-- The place behind the characters `cs`. -/
def advanceBy (p : Position) (cs : List Char) : Position :=
  cs.foldl advance p

@[simp]
theorem advanceBy_nil
    (p : Position) :
  p.advanceBy [] = p
  := rfl

end Position

/-- The number of bytes of a text in UTF-8. -/
def byteSize : List Char → Nat
  | [] => 0
  | c :: cs => c.utf8Size + byteSize cs

@[simp]
theorem byteSize_append
    (cs ds : List Char) :
  byteSize (cs ++ ds) = byteSize cs + byteSize ds
  := by
  induction cs with
  | nil => simp [byteSize]
  | cons c cs ih => simp [byteSize, ih, Nat.add_assoc]

/-- The place behind a text lies as many bytes further as the text has. -/
@[simp]
theorem Position.offset_advanceBy
    (p : Position) (cs : List Char) :
  (p.advanceBy cs).offset = p.offset + byteSize cs
  := by
  induction cs generalizing p with
  | nil => rfl
  | cons c cs ih =>
    change ((p.advance c).advanceBy cs).offset = _
    rw [ih, byteSize]
    exact Nat.add_assoc _ _ _

/-- The text from the byte `n` on, if a character begins or the text ends there. -/
def dropBytes? (n : Nat) : List Char → Option (List Char)
  | [] => if n = 0 then some [] else none
  | c :: cs =>
    if n = 0 then some (c :: cs)
    else if n < c.utf8Size then none
    else dropBytes? (n - c.utf8Size) cs

/-- The first `n` bytes of a text, if a character ends there. -/
def takeBytes? (n : Nat) : List Char → Option (List Char)
  | [] => if n = 0 then some [] else none
  | c :: cs =>
    if n = 0 then some []
    else if n < c.utf8Size then none
    else (takeBytes? (n - c.utf8Size) cs).map (c :: ·)

/-- From the bytes of a text on there is what follows the text. -/
@[simp]
theorem dropBytes?_byteSize_append
    (cs ds : List Char) :
  dropBytes? (byteSize cs) (cs ++ ds) = some ds
  := by
  induction cs with
  | nil => cases ds <;> rfl
  | cons c cs ih =>
    have hc := c.utf8Size_pos
    simp only [byteSize, List.cons_append, dropBytes?]
    rw [if_neg (by omega), if_neg (by omega), Nat.add_sub_cancel_left]
    exact ih

/-- As many bytes as a text has are that text. -/
@[simp]
theorem takeBytes?_byteSize_append
    (cs ds : List Char) :
  takeBytes? (byteSize cs) (cs ++ ds) = some cs
  := by
  induction cs with
  | nil => cases ds <;> rfl
  | cons c cs ih =>
    have hc := c.utf8Size_pos
    simp only [byteSize, List.cons_append, takeBytes?]
    rw [if_neg (by omega), if_neg (by omega), Nat.add_sub_cancel_left, ih]
    rfl

/-- A range of bytes. -/
structure Span where
  start : Nat
  stop : Nat
deriving DecidableEq, Repr

namespace Span

/-- The empty range at an offset. -/
def point (offset : Nat) : Span := ⟨offset, offset⟩

/-- How many offsets there are: an offset is a word of 64 bits. -/
def offsetCount : Nat := 18446744073709551616

/-- The number of bytes from the start of a range to its end, counted in words: from a
start behind the end one comes to the end after the greatest offset. -/
def size (s : Span) : Nat := (s.stop + offsetCount - s.start) % offsetCount

/-- Whether a range holds no byte. -/
def isEmpty (s : Span) : Bool := s.start = s.stop

/-- The part of a text that a range covers, if both ends lie between characters of the
text. -/
def slice? (s : Span) (source : List Char) : Option (List Char) :=
  if s.start ≤ s.stop then (dropBytes? s.start source).bind (takeBytes? (s.stop - s.start))
  else none

/-- The text of a range. -/
def text (s : Span) : String :=
  toString s.start ++ ".." ++ toString s.stop

end Span

/-- What went wrong at a place of a text. -/
structure Located (α : Type) where
  cause : α
  span : Span
  line : Nat
  column : Nat
deriving DecidableEq, Repr

/-- The message of what went wrong, with its place. -/
def Located.message {α : Type} (describe : α → String) (e : Located α) : String :=
  describe e.cause ++ " at line " ++ toString e.line ++ ", column " ++ toString e.column

end RuleLang
