/-!
# White space

The characters of Unicode's `White_Space` property, and texts with the
white space at their ends removed.  `trim_eq_self` says when a text is its
own trimmed form.
-/

namespace PodAttach.Text

/-- The characters with the Unicode property `White_Space`. -/
def isBlank (c : Char) : Bool :=
  let n := c.toNat
  (9 ≤ n && n ≤ 13) || n == 0x20 || n == 0x85 || n == 0xA0 || n == 0x1680 ||
    (0x2000 ≤ n && n ≤ 0x200A) || n == 0x2028 || n == 0x2029 || n == 0x202F ||
    n == 0x205F || n == 0x3000

/-- The characters without the white space before the first and after the last other one. -/
def trimChars (cs : List Char) : List Char :=
  ((cs.dropWhile isBlank).reverse.dropWhile isBlank).reverse

/-- The text without white space at its ends. -/
def trim (s : String) : String :=
  String.ofList (trimChars s.toList)

/-- White space alone trims to nothing. -/
theorem trimChars_eq_nil {cs : List Char} (h : ∀ c ∈ cs, isBlank c = true) :
    trimChars cs = [] := by
  have : cs.dropWhile isBlank = [] := by
    induction cs with
    | nil => rfl
    | cons c r ih =>
      rw [List.dropWhile_cons_of_pos (h c (by simp))]
      exact ih fun d hd => h d (by simp [hd])
  simp [trimChars, this]

/-- A text that starts and ends with other characters is not changed. -/
theorem trimChars_eq_self {cs : List Char}
    (hd : ∀ c, cs.head? = some c → isBlank c = false)
    (tl : ∀ c, cs.getLast? = some c → isBlank c = false) : trimChars cs = cs := by
  have drop : ∀ l : List Char, (∀ c, l.head? = some c → isBlank c = false) →
      l.dropWhile isBlank = l := by
    intro l hl
    cases l with
    | nil => rfl
    | cons c r => exact List.dropWhile_cons_of_neg (by simp [hl c rfl])
  rw [trimChars, drop cs hd, drop cs.reverse (by simpa using tl), List.reverse_reverse]

/-- ASCII letters in lower case; every other character as it is. -/
def lower (s : String) : String :=
  String.ofList (s.toList.map Char.toLower)

/-- Equality up to the case of ASCII letters. -/
def sameLetters (s t : String) : Bool :=
  lower s == lower t

end PodAttach.Text
