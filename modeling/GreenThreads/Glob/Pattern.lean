/-!
# Glob patterns

A pattern is a sequence of tokens. `?` stands for one character, `*` for any characters, `**` for
any whole path components, and `[…]` or `[!…]` for one character of a class or outside of it.
-/

namespace GreenThreads.Glob

/-- A part of a character class. -/
inductive ClassPart where
  | single (c : Char)
  /-- All characters between the two, by code point. -/
  | range (lo hi : Char)
deriving DecidableEq, Repr

namespace ClassPart

/-- Whether the part has the character. -/
def has (c : Char) : ClassPart → Bool
  | single d => c == d
  | range lo hi => lo ≤ c && c ≤ hi

/-- Reads the inside of a class: `x-y` is a range wherever three characters are left. -/
def ofChars : List Char → List ClassPart
  | [] => []
  | lo :: '-' :: hi :: rest => range lo hi :: ofChars rest
  | c :: rest => single c :: ofChars rest

end ClassPart

/-- A part of a pattern. -/
inductive Token where
  | char (c : Char)
  /-- Any one character. -/
  | anyChar
  /-- Any sequence of characters. -/
  | anySequence
  /-- Any sequence of whole path components. -/
  | anyComponents
  /-- One character of a class. -/
  | within (parts : List ClassPart)
  /-- One character outside of a class. -/
  | outside (parts : List ClassPart)
deriving DecidableEq, Repr

/-- The ways in which a text is no pattern. -/
inductive Cause where
  /-- More than two stars stand side by side. -/
  | wildcards
  /-- `**` is not a path component of its own. -/
  | recursiveWildcards
  /-- A class is not closed. -/
  | unclosedClass
deriving DecidableEq, Repr

/-- Why and where a text is no pattern; positions count characters. -/
structure Error where
  position : Nat
  cause : Cause
deriving DecidableEq, Repr

/-- The text for a cause. -/
def Cause.message : Cause → String
  | wildcards => "wildcards are either regular `*` or recursive `**`"
  | recursiveWildcards => "recursive wildcards must form a single path component"
  | unclosedClass => "invalid range pattern"

/-- The text of an error. -/
def Error.message (e : Error) : String :=
  "Pattern syntax error near position " ++ toString e.position ++ ": " ++ e.cause.message

/-- Cuts at the first `]`: what stands before it, and what follows it. -/
def splitClass : List Char → Option (List Char × List Char)
  | [] => none
  | ']' :: rest => some ([], rest)
  | c :: rest => (splitClass rest).map fun (inside, after) => (c :: inside, after)

theorem splitClass_length {cs inside after : List Char} (h : splitClass cs = some (inside, after)) :
    after.length < cs.length := by
  fun_induction splitClass cs generalizing inside with
  | case1 => simp at h
  | case2 rest => simp at h; simp [← h.2]
  | case3 c rest _ ih =>
    obtain ⟨⟨i, a⟩, hi, he⟩ := Option.map_eq_some_iff.1 h
    obtain ⟨-, rfl⟩ := Prod.mk.inj he
    have := ih hi
    simp only [List.length_cons]
    omega

/-- Reads a class after its `[`. The first character of a class never closes it. -/
def readClass (cs : List Char) : Option (Token × List Char) :=
  match cs with
  | '!' :: c :: rest =>
    (splitClass rest).map fun (inside, after) => (.outside (ClassPart.ofChars (c :: inside)), after)
  | '!' :: [] => none
  | c :: rest =>
    (splitClass rest).map fun (inside, after) => (.within (ClassPart.ofChars (c :: inside)), after)
  | [] => none

theorem readClass_length {cs after : List Char} {t : Token} (h : readClass cs = some (t, after)) :
    after.length < cs.length := by
  unfold readClass at h
  split at h
  · obtain ⟨⟨i, a⟩, hi, he⟩ := Option.map_eq_some_iff.1 h
    have := splitClass_length hi
    simp only [Prod.mk.injEq] at he
    simp only [he.2] at this
    simp only [List.length_cons]
    omega
  · simp at h
  · obtain ⟨⟨i, a⟩, hi, he⟩ := Option.map_eq_some_iff.1 h
    have := splitClass_length hi
    simp only [Prod.mk.injEq] at he
    simp only [he.2] at this
    simp only [List.length_cons]
    omega
  · simp at h

/-- Adds a `**`, which changes nothing right after another one; the very first two are kept. -/
def pushComponents (tokens : List Token) : List Token :=
  if 1 < tokens.length ∧ tokens.getLast? = some .anyComponents then tokens
  else tokens ++ [.anyComponents]

/-- Reads the rest of a pattern. `position` counts the characters read, `boundary` says that a path
component begins here, and `tokens` are the tokens read. -/
def parseFrom (cs : List Char) (position : Nat) (boundary : Bool) (tokens : List Token) :
    Except Error (List Token) :=
  match cs with
  | [] => .ok tokens
  | '?' :: rest => parseFrom rest (position + 1) false (tokens ++ [.anyChar])
  | '*' :: '*' :: '*' :: _ => .error ⟨position + 2, .wildcards⟩
  | '*' :: '*' :: rest =>
    if boundary then
      match rest with
      | [] => .ok (pushComponents tokens)
      | '/' :: rest => parseFrom rest (position + 3) true (pushComponents tokens)
      | _ :: _ => .error ⟨position + 2, .recursiveWildcards⟩
    else .error ⟨position - 1, .recursiveWildcards⟩
  | '*' :: rest => parseFrom rest (position + 1) false (tokens ++ [.anySequence])
  | '[' :: rest =>
    match _h : readClass rest with
    | some (t, after) =>
      parseFrom after (position + 1 + (rest.length - after.length)) false (tokens ++ [t])
    | none => .error ⟨position, .unclosedClass⟩
  | c :: rest => parseFrom rest (position + 1) (c == '/') (tokens ++ [.char c])
termination_by cs.length
decreasing_by
  all_goals simp_wf
  · omega
  · have := readClass_length ‹_›
    omega

/-- Reads a pattern. -/
def parse (s : String) : Except Error (List Token) := parseFrom s.toList 0 true []

end GreenThreads.Glob
