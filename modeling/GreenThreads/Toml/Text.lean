import GreenThreads.Toml.Characters

/-!
# TOML strings

Strings stand between double quotes, with escapes, or between single quotes, without any. Three
quotes on either side allow line ends inside, and up to two quotes before the closing ones.
-/

namespace GreenThreads.Toml

/-- The two kinds of strings. -/
inductive Quoting where
  /-- Between double quotes; a backslash begins an escape. -/
  | basic
  /-- Between single quotes; nothing is escaped. -/
  | literal
deriving DecidableEq, Repr

namespace Quoting

/-- The quote itself. -/
def mark : Quoting → Char
  | basic => '"'
  | literal => '\''

/-- A character that stands for itself inside. -/
def isPlain (q : Quoting) (c : Char) : Bool :=
  isVisible c && c != q.mark && !(q == basic && c == '\\')

end Quoting

/-- The value of a digit to base 16. -/
def hexValue? (c : Char) : Option Nat :=
  if '0' ≤ c && c ≤ '9' then some (c.toNat - '0'.toNat)
  else if 'a' ≤ c && c ≤ 'f' then some (c.toNat - 'a'.toNat + 10)
  else if 'A' ≤ c && c ≤ 'F' then some (c.toNat - 'A'.toNat + 10)
  else none

/-- The number with these digits to base 16. -/
def hexNumber? (cs : List Char) : Option Nat :=
  cs.foldlM (fun n c => (hexValue? c).map (n * 16 + ·)) 0

/-- The character that `count` digits name. -/
def codePoint? (count : Nat) (cs : List Char) : Option (Char × List Char) :=
  if count ≤ cs.length then
    match hexNumber? (cs.take count) with
    | some n => if n.isValidChar then some (Char.ofNat n, cs.drop count) else none
    | none => none
  else none

/-- Reads an escape after its backslash. -/
def escape? : List Char → Option (Char × List Char)
  | 'b' :: rest => some ('\x08', rest)
  | 't' :: rest => some ('\t', rest)
  | 'n' :: rest => some ('\n', rest)
  | 'f' :: rest => some ('\x0c', rest)
  | 'r' :: rest => some ('\r', rest)
  | '"' :: rest => some ('"', rest)
  | '\\' :: rest => some ('\\', rest)
  | 'u' :: rest => codePoint? 4 rest
  | 'U' :: rest => codePoint? 8 rest
  | _ => none

theorem length_codePoint? {n : Nat} {cs rest : List Char} {c : Char}
    (h : codePoint? n cs = some (c, rest)) : rest.length ≤ cs.length := by
  unfold codePoint? at h
  split at h
  · split at h
    · split at h
      · simp only [Option.some.injEq, Prod.mk.injEq] at h
        simp [← h.2]
      · simp at h
    · simp at h
  · simp at h

theorem length_escape? {cs rest : List Char} {c : Char} (h : escape? cs = some (c, rest)) :
    rest.length < cs.length := by
  unfold escape? at h
  split at h
  case h_8 => have := length_codePoint? h; simp only [List.length_cons]; omega
  case h_9 => have := length_codePoint? h; simp only [List.length_cons]; omega
  all_goals simp_all

/-- Reads a string after its quote, up to the quote that closes it. -/
def lineBody (q : Quoting) (cs : List Char) : Option (List Char × List Char) :=
  match cs with
  | [] => none
  | c :: rest =>
    if c = q.mark then some ([], rest)
    else if q.isPlain c then (lineBody q rest).map fun (s, after) => (c :: s, after)
    else if q = .basic ∧ c = '\\' then
      match _h : escape? rest with
      | some (e, rest') => (lineBody q rest').map fun (s, after) => (e :: s, after)
      | none => none
    else none
termination_by cs.length
decreasing_by
  · simp
  · have := length_escape? _h; simp only [List.length_cons]; omega

/-- A backslash at the end of a line takes the line end with it, and all blanks and line ends up to
the next character. Here the backslash has been read. -/
def continuation? (cs : List Char) : Option (List Char) := (newline? (skipBlanks cs)).map skipSpace

theorem length_skipSpace_le (cs : List Char) : (skipSpace cs).length ≤ cs.length := by
  fun_induction skipSpace cs with
  | case1 cs rest h ih =>
    have := length_newline? h
    have := length_skipBlanks_le cs
    omega
  | case2 cs _ => exact length_skipBlanks_le cs

theorem length_continuation? {cs rest : List Char} (h : continuation? cs = some rest) :
    rest.length < cs.length := by
  obtain ⟨r, hr, rfl⟩ := Option.map_eq_some_iff.1 h
  have := length_newline? hr
  have := length_skipBlanks_le cs
  have := length_skipSpace_le r
  omega

/-- Reads a string after its three quotes, up to the three quotes that close it. -/
def linesBody (q : Quoting) (cs : List Char) : Option (List Char × List Char) :=
  match cs with
  | [] => none
  | c :: rest =>
    if c = q.mark then
      let more := rest.takeWhile (· == q.mark)
      let after := rest.dropWhile (· == q.mark)
      if more.length < 2 then
        (linesBody q after).map fun (s, after) => (c :: more ++ s, after)
      else if more.length < 5 then some (more.drop 2, after)
      else none
    else if q.isPlain c then (linesBody q rest).map fun (s, after) => (c :: s, after)
    else if q = .basic ∧ c = '\\' then
      match _hc : continuation? rest with
      | some rest' => linesBody q rest'
      | none =>
        match _he : escape? rest with
        | some (e, rest') => (linesBody q rest').map fun (s, after) => (e :: s, after)
        | none => none
    else
      match _hn : newline? (c :: rest) with
      | some rest' => (linesBody q rest').map fun (s, after) => ('\n' :: s, after)
      | none => none
termination_by cs.length
decreasing_by
  · have := length_dropWhile_le (· == q.mark) rest; simp only [List.length_cons]; omega
  · simp
  · have := length_continuation? _hc; simp only [List.length_cons]; omega
  · have := length_escape? _he; simp only [List.length_cons]; omega
  · exact length_newline? _hn

/-- A line end right after the opening quotes is left out. -/
def skipFirstNewline (cs : List Char) : List Char := (newline? cs).getD cs

/-- Reads a string, which may have line ends in it only if `multiline` is set. -/
def readString (multiline : Bool) (q : Quoting) (cs : List Char) : Option (String × List Char) :=
  let m := q.mark
  match cs with
  | a :: b :: c :: rest =>
    if multiline && a == m && b == m && c == m then
      (linesBody q (skipFirstNewline rest)).map fun (s, after) => (String.ofList s, after)
    else if a == m then (lineBody q (b :: c :: rest)).map fun (s, after) => (String.ofList s, after)
    else none
  | a :: rest =>
    if a == m then (lineBody q rest).map fun (s, after) => (String.ofList s, after) else none
  | [] => none

end GreenThreads.Toml
