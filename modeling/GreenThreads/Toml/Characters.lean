/-!
# Characters, blanks and line ends of TOML

Readers take the characters that are left and give what they read with the characters after it, or
nothing if the text does not fit.
-/

namespace GreenThreads.Toml

/-- A space or a tab. -/
def isBlank (c : Char) : Bool := c == ' ' || c == '\t'

/-- A character that may stand in a comment: anything but control characters; a tab is allowed. -/
def isVisible (c : Char) : Bool := c == '\t' || (' ' ≤ c && c != '\x7f')

/-- A character of a key without quotes. -/
def isBareKey (c : Char) : Bool := c.isAlphanum || c == '-' || c == '_'

/-- The characters after the blanks. -/
def skipBlanks (cs : List Char) : List Char := cs.dropWhile isBlank

/-- The characters after a line end, which is a line feed with or without a carriage return. -/
def newline? : List Char → Option (List Char)
  | '\n' :: rest => some rest
  | '\r' :: '\n' :: rest => some rest
  | _ => none

/-- The characters after a comment, if there is one. -/
def skipComment : List Char → List Char
  | '#' :: rest => rest.dropWhile isVisible
  | cs => cs

/-- Skips blanks and a comment up to the end of the line or of the text. -/
def endLine? (cs : List Char) : Option (List Char) :=
  match skipComment (skipBlanks cs) with
  | [] => some []
  | rest => newline? rest

theorem length_dropWhile_le (p : Char → Bool) (cs : List Char) :
    (cs.dropWhile p).length ≤ cs.length :=
  (List.dropWhile_suffix p).length_le

theorem length_skipBlanks_le (cs : List Char) : (skipBlanks cs).length ≤ cs.length :=
  length_dropWhile_le _ _

theorem length_newline? {cs rest : List Char} (h : newline? cs = some rest) :
    rest.length < cs.length := by
  unfold newline? at h
  split at h
  · cases h; simp
  · cases h; simp only [List.length_cons]; omega
  · cases h

theorem length_skipComment_le (cs : List Char) : (skipComment cs).length ≤ cs.length := by
  unfold skipComment
  split
  · rename_i rest
    have := length_dropWhile_le isVisible rest
    simp only [List.length_cons]
    omega
  · exact Nat.le_refl _

/-- Skips blanks, comments and line ends. -/
def skipLines (cs : List Char) : List Char :=
  match _h : newline? (skipComment (skipBlanks cs)) with
  | some rest => skipLines rest
  | none => skipComment (skipBlanks cs)
termination_by cs.length
decreasing_by
  have := length_newline? _h
  have := length_skipComment_le (skipBlanks cs)
  have := length_skipBlanks_le cs
  omega

/-- Skips blanks and line ends. -/
def skipSpace (cs : List Char) : List Char :=
  match _h : newline? (skipBlanks cs) with
  | some rest => skipSpace rest
  | none => skipBlanks cs
termination_by cs.length
decreasing_by
  have := length_newline? _h
  have := length_skipBlanks_le cs
  omega

end GreenThreads.Toml
