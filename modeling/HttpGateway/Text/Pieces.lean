/-!
# Blanks, pieces and letter case

The small text rules that the gateway's notations share: which characters count as blank, how a text
is cut at a separator, and how ASCII letters are folded. All of them work on the list of characters
of a text; the `String` forms at the end only unpack and repack.
-/

namespace HttpGateway.Text

/-- The characters with the Unicode property `White_Space`. -/
def isBlank (c : Char) : Bool :=
  let n := c.toNat
  (9 ≤ n && n ≤ 13) || n == 0x20 || n == 0x85 || n == 0xA0 || n == 0x1680 ||
    (0x2000 ≤ n && n ≤ 0x200A) || n == 0x2028 || n == 0x2029 || n == 0x202F || n == 0x205F ||
    n == 0x3000

/-- Drops the leading blanks. -/
def trimStart (s : List Char) : List Char := s.dropWhile isBlank

/-- Drops the trailing blanks. -/
def trimEnd (s : List Char) : List Char := (s.reverse.dropWhile isBlank).reverse

/-- Drops the blanks at both ends. -/
def trim (s : List Char) : List Char := trimEnd (trimStart s)

/-- The pieces between the separators, in order. There is always one more piece than separators. -/
def pieces (sep : Char) : List Char → List (List Char)
  | [] => [[]]
  | c :: rest =>
    if c = sep then [] :: pieces sep rest
    else match pieces sep rest with
      | [] => [[c]]
      | p :: ps => (c :: p) :: ps

theorem pieces_ne_nil (sep : Char) (s : List Char) : pieces sep s ≠ [] := by
  cases s with
  | nil => simp [pieces]
  | cons c rest =>
    simp only [pieces]
    split
    · simp
    · split <;> simp

/-- The text before and after the first separator, if there is one. -/
def cut (sep : Char) : List Char → Option (List Char × List Char)
  | [] => none
  | c :: rest =>
    if c = sep then some ([], rest)
    else (cut sep rest).map fun (before, after) => (c :: before, after)

theorem eq_of_cut {sep : Char} {s before after : List Char} (h : cut sep s = some (before, after)) :
    s = before ++ sep :: after := by
  induction s generalizing before with
  | nil => simp [cut] at h
  | cons c rest ih =>
    simp only [cut] at h
    split at h
    · next hc => simp_all
    · obtain ⟨⟨b, a⟩, hb, heq⟩ := Option.map_eq_some_iff.1 h
      obtain ⟨rfl, rfl⟩ := Prod.mk.injEq .. ▸ heq
      simp [ih hb]

/-- The pieces with a separator between each two. -/
def join (sep : List Char) : List (List Char) → List Char
  | [] => []
  | [p] => p
  | p :: ps => p ++ sep ++ join sep ps

/-- Writing the pieces with their separator gives the text back. -/
theorem join_pieces (sep : Char) (s : List Char) : join [sep] (pieces sep s) = s := by
  induction s with
  | nil => simp [pieces, join]
  | cons c rest ih =>
    have hne := pieces_ne_nil sep rest
    simp only [pieces]
    split
    · next hc =>
      subst hc
      cases hp : pieces c rest with
      | nil => exact absurd hp hne
      | cons p ps => rw [hp] at ih; simp [join, ih]
    · cases hp : pieces sep rest with
      | nil => exact absurd hp hne
      | cons p ps =>
        rw [hp] at ih
        cases ps <;> simp_all [join]

/-- ASCII letters in lower case; every other character as it is. -/
def lower (s : List Char) : List Char := s.map Char.toLower

/-- ASCII letters in upper case; every other character as it is. -/
def upper (s : List Char) : List Char := s.map Char.toUpper

/-- Equality up to the case of ASCII letters. -/
def sameIgnoringCase (s t : List Char) : Bool := lower s == lower t

/-- What follows `start`, if the text starts with it. -/
def afterPrefix? : List Char → List Char → Option (List Char)
  | [], s => some s
  | _ :: _, [] => none
  | p :: ps, c :: cs => if p = c then afterPrefix? ps cs else none

/-- Whether `part` occurs in the text. -/
def contains (part : List Char) : List Char → Bool
  | [] => part.isEmpty
  | c :: cs => part.isPrefixOf (c :: cs) || contains part cs

end HttpGateway.Text

namespace HttpGateway

open Text

/-- A text without the blanks at its ends. -/
def trimText (s : String) : String := String.ofList (trim s.toList)

/-- A text with its ASCII letters in lower case. -/
def lowerText (s : String) : String := String.ofList (lower s.toList)

/-- A text with its ASCII letters in upper case. -/
def upperText (s : String) : String := String.ofList (upper s.toList)

/-- The pieces of a text between the separators. -/
def piecesOf (sep : Char) (s : String) : List String := (pieces sep s.toList).map String.ofList

/-- The text before and after the first separator, if there is one. -/
def cutText (sep : Char) (s : String) : Option (String × String) :=
  (cut sep s.toList).map fun (before, after) => (String.ofList before, String.ofList after)

/-- The texts with `sep` between each two. -/
def joinTexts (sep : String) (parts : List String) : String :=
  String.ofList (join sep.toList (parts.map String.toList))

end HttpGateway
