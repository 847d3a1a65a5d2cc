/-!
# Words

Signed 64-bit integers as the exact integers they stand for.  `int64? n` is the
word of an integer that fits in one, and `clamp64 n` the word nearest to any
integer.  Checked arithmetic is arithmetic of the integers followed by `int64?`,
so that a sum or a product is exact or absent, and never wraps.
-/

namespace RuleLang

/-- The word `n`, if `n` is at least `-2 ^ 63` and below `2 ^ 63`. -/
def int64? (n : Int) : Option Int64 :=
  if -9223372036854775808 ≤ n ∧ n ≤ 9223372036854775807 then some (Int64.ofInt n) else none

/-- The word nearest to `n`. -/
def clamp64 (n : Int) : Int64 :=
  Int64.ofInt (max (-9223372036854775808) (min n 9223372036854775807))

/-- A word that `int64?` finds is the integer it was asked for. -/
theorem toInt_of_int64?_eq_some
    {n : Int} {w : Int64} (h : int64? n = some w) :
  w.toInt = n
  := by
  unfold int64? at h
  split at h
  · obtain rfl := Option.some.inj h
    rename_i hn
    exact Int64.toInt_ofInt_of_le hn.1 (Int.lt_add_one_of_le hn.2)
  · contradiction

/-- Every word is found by the integer it stands for. -/
@[simp]
theorem int64?_toInt
    (w : Int64) :
  int64? w.toInt = some w
  := by
  unfold int64?
  rw [if_pos ⟨Int64.le_toInt w, Int.le_of_lt_add_one (Int64.toInt_lt w)⟩, Int64.ofInt_toInt]

/-- An integer that has no word is outside the range of the words. -/
theorem int64?_eq_none_iff
    {n : Int} :
  int64? n = none ↔ n < -9223372036854775808 ∨ 9223372036854775807 < n
  := by
  unfold int64?
  split <;> simp <;> omega

namespace Word

/-- The exact sum of two words, if it is a word. -/
def add? (a b : Int64) : Option Int64 :=
  int64? (a.toInt + b.toInt)

/-- The exact difference of two words, if it is a word. -/
def sub? (a b : Int64) : Option Int64 :=
  int64? (a.toInt - b.toInt)

/-- The exact product of two words, if it is a word. -/
def mul? (a b : Int64) : Option Int64 :=
  int64? (a.toInt * b.toInt)

/-- The opposite of a word, if it is a word. -/
def neg? (a : Int64) : Option Int64 :=
  int64? (-a.toInt)

/-- The power of a word, if it is a word.  The powers from the 64th on are words only for
the bases -1, 0 and 1, where nothing but the parity of the exponent counts. -/
def pow? (a : Int64) (exponent : Nat) : Option Int64 :=
  int64? (a.toInt.pow (if exponent < 64 then exponent else 64 + exponent % 2))

/-- The word nearest to the sum of two words. -/
def addClamped (a b : Int64) : Int64 :=
  clamp64 (a.toInt + b.toInt)

/-- The word nearest to the product of two words. -/
def mulClamped (a b : Int64) : Int64 :=
  clamp64 (a.toInt * b.toInt)

/-- The text of a word is the decimal text of the integer it stands for. -/
def text (w : Int64) : String :=
  toString w.toInt

/-- The float nearest to the integer a word stands for, a tie going to the even
neighbour. -/
def toFloat (w : Int64) : Float :=
  Float.ofInt w.toInt

end Word

end RuleLang
