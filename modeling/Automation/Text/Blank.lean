/-!
Blank characters and what surrounds a text.

`isBlank` is the Unicode property White_Space; it takes in every character that `Char.isWhitespace`
takes in (`isBlank_of_isWhitespace`).  `trim` drops blanks at both ends and nothing else.
-/

namespace Automation.Text

/-- The Unicode property White_Space. -/
def isBlank (c : Char) : Bool :=
  let n := c.toNat
  (9 ≤ n && n ≤ 13) || n == 0x20 || n == 0x85 || n == 0xA0 || n == 0x1680 ||
    (0x2000 ≤ n && n ≤ 0x200A) || n == 0x2028 || n == 0x2029 || n == 0x202F || n == 0x205F ||
    n == 0x3000

theorem isBlank_of_isWhitespace {c : Char} (h : c.isWhitespace = true) : isBlank c = true := by
  simp only [Char.isWhitespace, Bool.or_eq_true, decide_eq_true_eq] at h
  rcases h with ((rfl | rfl) | rfl) | rfl <;> decide

def trimStart (s : List Char) : List Char := s.dropWhile isBlank

def trimEnd (s : List Char) : List Char := (s.reverse.dropWhile isBlank).reverse

def trim (s : List Char) : List Char := trimEnd (trimStart s)

def allBlank (s : List Char) : Bool := s.all isBlank

def dropPrefix? : List Char → List Char → Option (List Char)
  | [], s => some s
  | p :: ps, c :: cs => if p = c then dropPrefix? ps cs else none
  | _ :: _, [] => none

theorem dropPrefix?_eq_some_iff {p s r : List Char} : dropPrefix? p s = some r ↔ s = p ++ r := by
  induction p generalizing s with
  | nil => simp [dropPrefix?]
  | cons a p ih =>
    cases s with
    | nil => simp [dropPrefix?]
    | cons c s =>
      by_cases h : a = c
      · simp [dropPrefix?, h, ih]
      · simp [dropPrefix?, h]
        exact fun h' => absurd h'.symm h

def dropSuffix? (suffix s : List Char) : Option (List Char) :=
  (dropPrefix? suffix.reverse s.reverse).map List.reverse

def contains (needle : List Char) : List Char → Bool
  | [] => needle.isEmpty
  | c :: s => needle.isPrefixOf (c :: s) || contains needle s

def split (sep : Char) : List Char → List (List Char)
  | [] => [[]]
  | c :: s =>
    if c = sep then [] :: split sep s
    else match split sep s with
      | [] => [[c]]
      | piece :: rest => (c :: piece) :: rest

theorem split_ne_nil (sep : Char) (s : List Char) : split sep s ≠ [] := by
  cases s with
  | nil => simp [split]
  | cons c s =>
    simp only [split]
    split
    · simp
    · split <;> simp

def splitOnce? (sep : Char) : List Char → Option (List Char × List Char)
  | [] => none
  | c :: s => if c = sep then some ([], s) else (splitOnce? sep s).map fun (a, b) => (c :: a, b)

end Automation.Text
