import GreenThreads.Toml.Document
import GreenThreads.Proofs.Toml.Strings

/-!
# Written lines are read back

A written value is read back whatever follows in the next line, and so is the line of a key and its
value. Reading some lines takes one draft of a document to another; a document is read by putting
its lines together.
-/

namespace GreenThreads.Toml

/-! ## Characters of a class -/

section Classes

variable {p : Char → Bool} {c d : Char}

theorem ne_of_class (h : p c = true) (hd : p d = false) : c ≠ d := by
  rintro rfl
  rw [h] at hd
  cases hd

theorem cons_ne_of_class (h : p c = true) (hd : p d = false) {cs ds : List Char} :
    c :: cs ≠ d :: ds := fun heq => ne_of_class h hd (List.cons.inj heq).1

end Classes

/-! ## Numbers -/

section Numbers

variable {c : Char} {ds rest : List Char} {n : Nat}

/-- All characters are decimal digits. -/
def AllDigits (ds : List Char) : Prop := ∀ c ∈ ds, c.isDigit = true

theorem AllDigits.tail (h : AllDigits (c :: ds)) : AllDigits ds :=
  fun d hd => h d (List.mem_cons_of_mem c hd)

theorem allDigits_writeNat (n : Nat) : AllDigits (writeNat n) :=
  fun _ => Nat.isDigit_of_mem_toDigits (by decide) (by decide)

theorem exists_writeNat (n : Nat) :
    ∃ c ds, writeNat n = c :: ds ∧ c.isDigit = true ∧ AllDigits ds := by
  obtain ⟨c, ds, heq⟩ : ∃ c ds, writeNat n = c :: ds :=
    List.exists_cons_of_ne_nil Nat.toDigits_ne_nil
  have h := allDigits_writeNat n
  rw [heq] at h
  exact ⟨c, ds, heq, h c List.mem_cons_self, h.tail⟩

/-- Only zero begins with a zero. -/
theorem head_writeNat (h : n ≠ 0) (heq : writeNat n = c :: ds) : c ≠ '0' := by
  induction n using Nat.strong_induction_on generalizing ds with
  | _ n ih =>
      rw [writeNat, Nat.toDigits_eq_if (by decide)] at heq
      split at heq
      · cases heq
        rwa [ne_eq, Nat.digitChar_eq_zero]
      · next hlarge =>
          have hne : Nat.toDigits 10 (n / 10) ≠ [] := Nat.toDigits_ne_nil
          obtain ⟨e, es, hes⟩ := List.exists_cons_of_ne_nil hne
          rw [hes, List.cons_append] at heq
          cases heq
          exact ih (n / 10) (by omega) (by omega) hes

theorem hexValue?_of_isDigit (h : c.isDigit = true) : hexValue? c = some (c.toNat - 48) := by
  simp only [Char.isDigit, Bool.and_eq_true, decide_eq_true_eq] at h
  rw [hexValue?, if_pos]
  · rfl
  · simp only [Bool.and_eq_true, decide_eq_true_eq]
    exact h

theorem foldl_digits (h : AllDigits ds) (start : Nat) :
    ds.foldl (fun n c => n * 10 + (hexValue? c).getD 0) start = Nat.ofDigitChars 10 ds start := by
  induction ds generalizing start with
  | nil => rfl
  | cons c ds ih =>
      rw [List.foldl_cons, Nat.ofDigitChars_cons, ih h.tail,
        hexValue?_of_isDigit (h c List.mem_cons_self), Nat.mul_comm]
      rfl

theorem number_writeNat (n : Nat) : number 10 (writeNat n) = n := by
  rw [number, foldl_digits (allDigits_writeNat n), writeNat, Nat.ofDigitChars_ten_toDigits]

theorem digitRun_digits (h : AllDigits ds) (rest : List Char) :
    digitRun Char.isDigit (ds ++ '\n' :: rest) = (ds, '\n' :: rest) := by
  induction ds with
  | nil => simp [digitRun]
  | cons c ds ih =>
      have hc := h c List.mem_cons_self
      have hline : c ≠ '_' := ne_of_class hc (by decide)
      rw [List.cons_append, digitRun.eq_3 _ _ _ fun _ _ heq => absurd heq hline, if_pos hc,
        ih h.tail]

theorem digits?_digits (h : AllDigits (c :: ds)) (rest : List Char) :
    digits? Char.isDigit (c :: ds ++ '\n' :: rest) = some (c :: ds, '\n' :: rest) := by
  rw [List.cons_append, digits?, if_pos (h c List.mem_cons_self), digitRun_digits h.tail]

theorem wholeDigits?_writeNat (n : Nat) (rest : List Char) :
    wholeDigits? (writeNat n ++ '\n' :: rest) = some (writeNat n, '\n' :: rest) := by
  by_cases hn : n = 0
  · subst hn
    rfl
  · obtain ⟨c, ds, heq, hc, hds⟩ := exists_writeNat n
    rw [heq]
    unfold wholeDigits?
    split
    · next h => exact absurd (List.cons.inj h).1 (head_writeNat hn heq)
    · exact digits?_digits (List.forall_mem_cons.mpr ⟨hc, hds⟩) rest

/-- A number of some digits is followed by more digits, or by the end of the line. -/
theorem exists_of_boundedDigits {count lo hi m : Nat} {cs : List Char} (h : AllDigits ds)
    (hread : boundedDigits count lo hi (ds ++ '\n' :: rest) = some (m, cs)) :
    ∃ es, AllDigits es ∧ cs = es ++ '\n' :: rest := by
  unfold boundedDigits at hread
  dsimp only at hread
  split at hread
  · next hall =>
      obtain ⟨hlen, hdigits, -⟩ := hall
      cases hread
      have hcount : count ≤ ds.length := by
        by_contra hlt
        have hmem : '\n' ∈ (ds ++ '\n' :: rest).take count := by
          rw [List.take_append]
          obtain ⟨k, hk⟩ := Nat.exists_eq_add_of_lt (Nat.not_le.mp hlt)
          rw [show count - ds.length = k + 1 by omega, List.take_succ_cons]
          exact List.mem_append_right _ List.mem_cons_self
        exact absurd (List.all_eq_true.mp hdigits _ hmem) (by decide)
      rw [List.drop_append_of_le_length hcount]
      exact ⟨ds.drop count, fun c hc => h c (List.mem_of_mem_drop hc), rfl⟩
  · cases hread

theorem exactly_digits {d : Char} (h : AllDigits ds) (hd : d.isDigit = false) (hn : d ≠ '\n')
    (rest : List Char) : exactly d (ds ++ '\n' :: rest) = none := by
  cases ds with
  | nil => rw [List.nil_append, exactly, if_neg hn.symm]
  | cons c ds =>
      rw [List.cons_append, exactly, if_neg (ne_of_class (h c List.mem_cons_self) hd)]

/-- Nothing but digits stands where a date or a time of day goes on with a mark. -/
theorem boundedDigits_exactly {α : Type} {d : Char} (h : AllDigits ds) (hd : d.isDigit = false)
    (hn : d ≠ '\n') (count lo hi : Nat) (f : Nat × List Char → List Char → Option α) :
    ((boundedDigits count lo hi (ds ++ '\n' :: rest)).bind fun r => (exactly d r.2).bind (f r)) =
      none := by
  cases hread : boundedDigits count lo hi (ds ++ '\n' :: rest) with
  | none => rfl
  | some r =>
      obtain ⟨es, hes, heq⟩ := exists_of_boundedDigits h hread
      rw [Option.bind_some, heq, exactly_digits hes hd hn]
      rfl

theorem readDate_digits (h : AllDigits ds) (rest : List Char) :
    readDate (ds ++ '\n' :: rest) = none :=
  boundedDigits_exactly h (by decide) (by decide) 4 0 9999 _

theorem readTime_digits (h : AllDigits ds) (rest : List Char) :
    readTime (ds ++ '\n' :: rest) = none :=
  boundedDigits_exactly h (by decide) (by decide) 2 0 23 _

theorem readSign_digit (h : c.isDigit = true) (cs : List Char) :
    readSign (c :: cs) = (false, c :: cs) := by
  unfold readSign
  split
  · next heq => exact absurd heq (cons_ne_of_class h (by decide))
  · next heq => exact absurd heq (cons_ne_of_class h (by decide))
  · rfl

theorem readFloat_writeNat (n : Nat) (rest : List Char) :
    readFloat (writeNat n ++ '\n' :: rest) = none := by
  have hwhole := wholeDigits?_writeNat n rest
  obtain ⟨c, ds, heq, hc, -⟩ := exists_writeNat n
  rw [heq, List.cons_append] at hwhole ⊢
  have hdecimal : decimalFloat (c :: (ds ++ '\n' :: rest)) = none := by
    unfold decimalFloat
    rw [readSign_digit hc]
    dsimp only
    rw [hwhole]
    rfl
  have hspecial : specialFloat (c :: (ds ++ '\n' :: rest)) = none := by
    unfold specialFloat
    rw [readSign_digit hc]
    dsimp only
    split
    · next h => exact absurd h (cons_ne_of_class hc (by decide))
    · next h => exact absurd h (cons_ne_of_class hc (by decide))
    · rfl
  rw [readFloat, hdecimal, hspecial]
  rfl

theorem decimalInteger_writeNat (hn : n ≤ 9223372036854775807) (rest : List Char) :
    decimalInteger (writeNat n ++ '\n' :: rest) = some ((n : Int), '\n' :: rest) := by
  have hwhole := wholeDigits?_writeNat n rest
  have hnumber := number_writeNat n
  obtain ⟨c, ds, heq, hc, -⟩ := exists_writeNat n
  rw [heq, List.cons_append] at hwhole ⊢
  rw [heq] at hnumber
  have hfits : fitsInteger n = true := by
    simp only [fitsInteger, Bool.and_eq_true, decide_eq_true_eq]
    omega
  unfold decimalInteger
  rw [readSign_digit hc]
  dsimp only
  rw [hwhole]
  dsimp only
  rw [hnumber]
  exact if_pos hfits

theorem readInteger_writeNat (hn : n ≤ 9223372036854775807) (rest : List Char) :
    readInteger (writeNat n ++ '\n' :: rest) = some ((n : Int), '\n' :: rest) := by
  obtain ⟨c, ds, heq, -, hds⟩ := exists_writeNat n
  -- The second character is a digit or the end of the line, so it names no base.
  have hsecond : ∀ d es, ds ++ '\n' :: rest = d :: es → d.isDigit = true ∨ d = '\n' := by
    intro d es h
    cases ds with
    | nil => exact .inr (List.cons.inj h).1.symm
    | cons e ds => exact .inl ((List.cons.inj h).1 ▸ hds e List.mem_cons_self)
  have hbase : ∀ {d es}, ds ++ '\n' :: rest = d :: es → d.isDigit = false → d ≠ '\n' → False := by
    intro d es h hd hn
    rcases hsecond d es h with h' | h'
    · rw [h'] at hd
      cases hd
    · exact hn h'
  rw [← decimalInteger_writeNat hn rest, heq, List.cons_append]
  unfold readInteger
  split
  · next h => exact (hbase (List.cons.inj h).2 (by decide) (by decide)).elim
  · next h => exact (hbase (List.cons.inj h).2 (by decide) (by decide)).elim
  · next h => exact (hbase (List.cons.inj h).2 (by decide) (by decide)).elim
  · rfl

theorem readScalar_writeNat (hn : n ≤ 9223372036854775807) (rest : List Char) :
    readScalar (writeNat n ++ '\n' :: rest) = some (.integer n, '\n' :: rest) := by
  have hmoment : readMoment (writeNat n ++ '\n' :: rest) = none := by
    rw [readMoment, readDate_digits (allDigits_writeNat n), readTime_digits (allDigits_writeNat n)]
    rfl
  rw [readScalar, hmoment]
  dsimp only
  rw [readFloat_writeNat]
  dsimp only
  rw [readInteger_writeNat hn]
  rfl

end Numbers

/-! ## Values -/

/-- `w` is read as the value `v`, however the text goes on in the next line. -/
structure Shows (w : List Char) (v : Value) : Prop where
  read : ∀ rest, readValue maxDepth (w ++ '\n' :: rest) = some (v, '\n' :: rest)
  blank : ∀ rest, skipBlanks (w ++ '\n' :: rest) = w ++ '\n' :: rest

theorem skipBlanks_of_not_isBlank {c : Char} (h : isBlank c = false) (cs : List Char) :
    skipBlanks (c :: cs) = c :: cs :=
  List.dropWhile_cons_of_neg (by rw [h]; decide)

theorem shows_writeBool (b : Bool) : Shows (writeBool b) (.boolean b) := by
  cases b with
  | true => exact ⟨fun _ => rfl, fun _ => rfl⟩
  | false => exact ⟨fun _ => rfl, fun _ => rfl⟩

theorem readValue_digit {c : Char} (h : c.isDigit = true) (depth : Nat) (cs : List Char) :
    readValue depth (c :: cs) = readScalar (c :: cs) := by
  unfold readValue
  split
  · next heq => exact absurd heq (cons_ne_of_class h (by decide))
  · next heq => exact absurd heq (cons_ne_of_class h (by decide))
  · next heq => exact absurd heq (cons_ne_of_class h (by decide))
  · next heq => exact absurd heq (cons_ne_of_class h (by decide))
  · next heq => exact absurd heq (cons_ne_of_class h (by decide))
  · next heq => exact absurd heq (cons_ne_of_class h (by decide))
  · rfl

theorem shows_writeNat {n : Nat} (hn : n ≤ 9223372036854775807) :
    Shows (writeNat n) (.integer n) := by
  obtain ⟨c, ds, heq, hc, -⟩ := exists_writeNat n
  have hblank : isBlank c = false := by
    simp only [isBlank, Bool.or_eq_false_iff, beq_eq_false_iff_ne]
    exact ⟨ne_of_class hc (by decide), ne_of_class hc (by decide)⟩
  refine ⟨fun rest => ?_, fun rest => ?_⟩
  · rw [← readScalar_writeNat hn rest, heq]
    exact readValue_digit hc _ _
  · rw [heq]
    exact skipBlanks_of_not_isBlank hblank _

theorem skipLines_bracket (cs : List Char) : skipLines (']' :: cs) = ']' :: cs := by
  rw [skipLines]
  rfl

theorem shows_empty : Shows ['[', ']'] (.array []) := by
  refine ⟨fun rest => ?_, fun _ => rfl⟩
  show (readItems _ ((']' :: '\n' :: rest).length + 1) (']' :: '\n' :: rest)).map _ = _
  rw [readItems, skipLines_bracket]
  rfl

theorem readValue_mark (q : Quoting) (depth : Nat) (cs : List Char) :
    readValue depth (q.mark :: cs) =
      (readString true q (q.mark :: cs)).map fun (s, rest) => (.string s, rest) := by
  cases q <;> (unfold readValue; rfl)

theorem exists_writeStringAs (s : Style) (cs : List Char) :
    ∃ ds, writeStringAs s cs = s.quoting.mark :: ds := by
  obtain ⟨q, multiline⟩ := s
  cases multiline <;> exact ⟨_, rfl⟩

theorem shows_writeString (text : String) : Shows (writeString text) (.string text) := by
  obtain ⟨ds, heq⟩ := exists_writeStringAs (.forText text.toList) text.toList
  generalize hs : Style.forText text.toList = s at heq
  have hholds := Style.forText_holds text.toList
  rw [hs] at hholds
  refine ⟨fun rest => ?_, fun rest => ?_⟩
  · have hread := readString_writeStringAs hholds
      (leading_cons_of_ne (mark_ne_newline s.quoting) rest)
    rw [String.ofList_toList] at hread
    rw [writeString, hs]
    rw [heq, List.cons_append] at hread ⊢
    rw [readValue_mark, hread]
    rfl
  · rw [writeString, hs, heq]
    exact skipBlanks_of_not_isBlank (by cases s.quoting <;> rfl) _

/-! ## Keys -/

/-- The key needs no quotes. -/
def Bare (key : String) : Prop := key.toList ≠ [] ∧ ∀ c ∈ key.toList, isBareKey c = true

instance (key : String) : Decidable (Bare key) :=
  decidable_of_iff (key.toList.isEmpty = false ∧ key.toList.all isBareKey = true)
    (and_congr List.isEmpty_eq_false_iff List.all_eq_true)

section Keys

variable {c : Char} {key : String} {cs rest : List Char}

theorem isBlank_of_isBareKey (h : isBareKey c = true) : isBlank c = false := by
  simp only [isBlank, Bool.or_eq_false_iff, beq_eq_false_iff_ne]
  exact ⟨ne_of_class h (by decide), ne_of_class h (by decide)⟩

theorem Bare.cons (h : Bare key) : ∃ c cs, key.toList = c :: cs ∧ isBareKey c = true := by
  obtain ⟨c, cs, heq⟩ := List.exists_cons_of_ne_nil h.1
  exact ⟨c, cs, heq, h.2 c (heq ▸ List.mem_cons_self)⟩

theorem Bare.skipBlanks (h : Bare key) (rest : List Char) :
    skipBlanks (key.toList ++ rest) = key.toList ++ rest := by
  obtain ⟨c, cs, heq, hc⟩ := h.cons
  rw [heq]
  exact skipBlanks_of_not_isBlank (isBlank_of_isBareKey hc) _

theorem readKeyPart_bare (h : Bare key) (hc : isBareKey c = false) (rest : List Char) :
    readKeyPart (key.toList ++ c :: rest) = some (key, c :: rest) := by
  have htake : (key.toList ++ c :: rest).takeWhile isBareKey = key.toList := by
    rw [List.takeWhile_append_of_pos h.2, List.takeWhile_cons_of_neg (by rw [hc]; decide),
      List.append_nil]
  have hdrop : (key.toList ++ c :: rest).dropWhile isBareKey = c :: rest := by
    rw [List.dropWhile_append_of_pos h.2, List.dropWhile_cons_of_neg (by rw [hc]; decide)]
  obtain ⟨d, cs, heq, hd⟩ := h.cons
  unfold readKeyPart
  split
  · next h' =>
      rw [heq] at h'
      exact absurd h' (cons_ne_of_class hd (by decide))
  · next h' =>
      rw [heq] at h'
      exact absurd h' (cons_ne_of_class hd (by decide))
  · rw [htake, hdrop, heq]
    dsimp only
    rw [← heq, String.ofList_toList]

/-- The last part of a key. -/
theorem readKeyParts_last (h : Bare key) (hc : isBareKey c = false) {cs' : List Char} {d : Char}
    (hd : skipBlanks (c :: rest) = d :: cs') (hdot : d ≠ '.') (n : Nat) :
    readKeyParts (n + 1) (key.toList ++ c :: rest) = some ([key], d :: cs') := by
  rw [readKeyParts, h.skipBlanks, readKeyPart_bare h hc]
  dsimp only
  rw [hd]
  split
  · next h' => exact absurd (List.cons.inj h').1 hdot
  · rfl

theorem readKeyParts_dot (h : Bare key) {parts : List String} {n : Nat}
    (hn : readKeyParts n cs = some (parts, rest)) :
    readKeyParts (n + 1) (key.toList ++ '.' :: cs) = some (key :: parts, rest) := by
  rw [readKeyParts, h.skipBlanks, readKeyPart_bare h (by decide)]
  dsimp only
  rw [skipBlanks_of_not_isBlank (by decide)]
  simp only [hn]

theorem readKey_parts {parts : List String} {name : String} (hlen : parts.length < maxDepth)
    (h : readKeyParts cs.length cs = some (parts ++ [name], rest)) :
    readKey cs = some ((parts, name), rest) := by
  rw [readKey, h]
  dsimp only
  rw [if_pos (by simp; omega), List.getLast?_concat, List.dropLast_concat]

theorem readKey_bare (h : Bare key) (hc : isBareKey c = false) {cs' : List Char} {d : Char}
    (hd : skipBlanks (c :: rest) = d :: cs') (hdot : d ≠ '.') :
    readKey (key.toList ++ c :: rest) = some (([], key), d :: cs') := by
  refine readKey_parts (by decide) ?_
  rw [List.length_append, List.length_cons, ← Nat.add_assoc]
  exact readKeyParts_last h hc hd hdot _

theorem readKey_dotted {name : String} (h : Bare key) (hname : Bare name) (rest : List Char) :
    readKey (key.toList ++ '.' :: (name.toList ++ ']' :: rest)) =
      some (([key], name), ']' :: rest) := by
  refine readKey_parts (show 1 < maxDepth by decide) ?_
  rw [List.length_append, List.length_cons, List.length_append, List.length_cons,
    ← Nat.add_assoc, ← Nat.add_assoc]
  exact readKeyParts_dot h (readKeyParts_last hname (by decide)
    (skipBlanks_of_not_isBlank (by decide) rest) (by decide) _)

end Keys

/-! ## Lines -/

section Lines

variable {key name : String} {w cs rest : List Char} {v : Value} {d d' d'' : Draft}

theorem readPair_writePair (hk : Bare key) (hv : Shows w v) (rest : List Char) :
    readPair (writePair key w ++ rest) = some (([], key, v), rest) := by
  have hwritten : writePair key w ++ rest =
      key.toList ++ ' ' :: ('=' :: (' ' :: (w ++ '\n' :: rest))) := by
    simp [writePair]
  have hvalue : readValue maxDepth (skipBlanks (' ' :: (w ++ '\n' :: rest))) =
      some (v, '\n' :: rest) := by
    rw [← hv.read rest]
    exact congrArg _ (hv.blank rest)
  rw [hwritten, readPair, readKey_bare hk (by decide) rfl (by decide)]
  simp only [hvalue]
  rfl

theorem readHeader_single (h : Bare name) (rest : List Char) :
    readHeader (name.toList ++ ']' :: '\n' :: rest) = some (⟨[], name, false⟩, rest) := by
  obtain ⟨c, cs, heq, hc⟩ := h.cons
  have hkey := readKey_bare h (by decide : isBareKey ']' = false)
    (skipBlanks_of_not_isBlank (by decide) ('\n' :: rest)) (by decide)
  unfold readHeader
  split
  · next h' =>
      rw [heq] at h'
      exact absurd h' (cons_ne_of_class hc (by decide))
  · rw [hkey]
    rfl

theorem readHeader_collects (hk : Bare key) (hn : Bare name) (rest : List Char) :
    readHeader ('[' :: (key.toList ++ '.' :: (name.toList ++ ']' :: ']' :: '\n' :: rest))) =
      some (⟨[key], name, true⟩, rest) := by
  rw [readHeader, readKey_dotted hk hn]
  rfl

theorem readLines_newline (n : Nat) (d : Draft) (rest : List Char) :
    readLines (n + 1) d ('\n' :: rest) = readLines n d rest := rfl

theorem readLines_header {h : Header} (hread : readHeader cs = some (h, rest)) (n : Nat)
    (d : Draft) :
    readLines (n + 1) d ('[' :: cs) = (d.openTable h).bind fun d => readLines n d rest := by
  rw [readLines, skipBlanks_of_not_isBlank (by decide)]
  simp only [hread]

theorem readLines_pair (hk : Bare key) (hv : Shows w v) (n : Nat) (d : Draft) (rest : List Char) :
    readLines (n + 1) d (writePair key w ++ rest) =
      (d.addPair [] key v).bind fun d => readLines n d rest := by
  have hread := readPair_writePair hk hv rest
  obtain ⟨c, cs, heq, hc⟩ := hk.cons
  have hwritten : ∃ ds, writePair key w ++ rest = c :: ds := by
    rw [writePair, heq]
    exact ⟨_, rfl⟩
  obtain ⟨ds, hds⟩ := hwritten
  have hcomment : skipComment (c :: ds) = c :: ds := by
    unfold skipComment
    split
    · next h => exact absurd h (cons_ne_of_class hc (by decide))
    · rfl
  have hline : newline? (c :: ds) = none := by
    unfold newline?
    split
    · next h => exact absurd h (cons_ne_of_class hc (by decide))
    · next h => exact absurd h (cons_ne_of_class hc (by decide))
    · rfl
  rw [hds] at hread ⊢
  rw [readLines, skipBlanks_of_not_isBlank (isBlank_of_isBareKey hc)]
  split
  · next h => cases h
  · next h => exact absurd h (cons_ne_of_class hc (by decide))
  · rw [hcomment, hline]
    dsimp only
    rw [hread]
    rfl

/-! ## Drafts -/

namespace Entries

variable {es : Entries} {key : String} {v : Value}

theorem get?_eq_none (h : key ∉ es.map (·.1)) : es.get? key = none := by
  refine List.lookup_eq_none_iff.mpr fun p hp => bne_iff_ne.mpr ?_
  rintro rfl
  exact h (List.mem_map_of_mem hp)

theorem get?_concat (h : key ∉ es.map (·.1)) (v : Value) :
    Entries.get? (es ++ [(key, v)]) key = some v := by
  have hnone := get?_eq_none h
  rw [get?] at hnone ⊢
  rw [List.lookup_append, hnone]
  simp

theorem replace_eq_self (h : key ∉ es.map (·.1)) (v : Value) : es.replace key v = es := by
  refine (List.map_congr_left fun p hp => ?_).trans (List.map_id es)
  have hne : p.1 ≠ key := by
    rintro rfl
    exact h (List.mem_map_of_mem hp)
  exact if_neg hne

theorem replace_concat (h : key ∉ es.map (·.1)) (v w : Value) :
    Entries.replace (es ++ [(key, v)]) key w = es ++ [(key, w)] := by
  have hlast : Entries.replace [(key, v)] key w = [(key, w)] := by simp [replace]
  exact List.map_append.trans (congrArg₂ (· ++ ·) (replace_eq_self h w) hlast)

end Entries

/-- A line as it is written, with the value that it stands for. -/
structure Line where
  key : String
  text : List Char
  value : Value

namespace Line

def write (l : Line) : List Char := writePair l.key l.text

def entry (l : Line) : String × Value := (l.key, l.value)

/-- The line can be read back. -/
structure Good (l : Line) : Prop where
  bare : Bare l.key
  shows : Shows l.text l.value

def nat (key : String) (n : Nat) : Line := ⟨key, writeNat n, .integer n⟩

def bool (key : String) (b : Bool) : Line := ⟨key, writeBool b, .boolean b⟩

def string (key text : String) : Line := ⟨key, writeString text, .string text⟩

theorem good_nat {n : Nat} (hk : Bare key) (hn : n ≤ 9223372036854775807) : (nat key n).Good :=
  ⟨hk, shows_writeNat hn⟩

theorem good_bool (hk : Bare key) (b : Bool) : (bool key b).Good := ⟨hk, shows_writeBool b⟩

theorem good_string (hk : Bare key) (text : String) : (string key text).Good :=
  ⟨hk, shows_writeString text⟩

end Line

/-- Reading `w` takes a draft to another one, whatever follows. -/
def Draft.Takes (d : Draft) (w : List Char) (d' : Draft) : Prop :=
  ∃ k ≤ w.length, ∀ n rest, readLines (n + k) d (w ++ rest) = readLines n d' rest

namespace Draft

theorem Takes.refl (d : Draft) : d.Takes [] d := ⟨0, Nat.le_refl 0, fun _ _ => rfl⟩

theorem Takes.append {w' : List Char} (h : d.Takes w d') (h' : d'.Takes w' d'') :
    d.Takes (w ++ w') d'' := by
  obtain ⟨k, hk, hread⟩ := h
  obtain ⟨m, hm, hread'⟩ := h'
  refine ⟨m + k, by rw [List.length_append]; omega, fun n rest => ?_⟩
  rw [← Nat.add_assoc, List.append_assoc, hread, hread']

/-- A pair with a new key. -/
theorem takes_pair (hk : Bare key) (hv : Shows w v) (hnew : d.current.get? key = none) :
    d.Takes (writePair key w) { d with current := d.current ++ [(key, v)] } := by
  refine ⟨1, ?_, fun n rest => ?_⟩
  · simp [writePair]
    omega
  · rw [readLines_pair hk hv, addPair, insertPair, hnew]
    rfl

/-- Pairs with different new keys. -/
theorem takes_lines {lines : List Line} (hlines : ∀ l ∈ lines, l.Good)
    (hnew : (d.current.map (·.1) ++ lines.map (·.key)).Nodup) :
    d.Takes (lines.flatMap Line.write) { d with current := d.current ++ lines.map Line.entry } := by
  induction lines generalizing d with
  | nil => simpa using Takes.refl d
  | cons l lines ih =>
      have hgood := hlines l List.mem_cons_self
      have hkey : l.key ∉ d.current.map (·.1) := fun hmem =>
        (List.nodup_append.mp hnew).2.2 _ hmem _ List.mem_cons_self rfl
      have hfirst := takes_pair hgood.bare hgood.shows (Entries.get?_eq_none hkey)
      have hrest := ih (d := { d with current := d.current ++ [l.entry] })
        (fun k hk => hlines k (List.mem_cons_of_mem l hk)) (by simpa [Line.entry] using hnew)
      simpa [Line.write] using hfirst.append hrest

theorem takes_single (hn : Bare name) (hopen : d.openTable ⟨[], name, false⟩ = some d') :
    d.Takes ('\n' :: '[' :: (name.toList ++ [']', '\n'])) d' := by
  refine ⟨2, by simp, fun n rest => ?_⟩
  have hread := readHeader_single hn rest
  rw [show n + 2 = n + 1 + 1 from rfl]
  simp only [List.cons_append, List.append_assoc, List.nil_append]
  rw [readLines_newline, readLines_header hread, hopen]
  rfl

theorem takes_collects (hk : Bare key) (hn : Bare name)
    (hopen : d.openTable ⟨[key], name, true⟩ = some d') :
    d.Takes ('\n' :: '[' :: '[' :: (key.toList ++ '.' :: (name.toList ++ [']', ']', '\n'])))
      d' := by
  refine ⟨2, by simp, fun n rest => ?_⟩
  have hread := readHeader_collects hk hn rest
  rw [show n + 2 = n + 1 + 1 from rfl]
  simp only [List.cons_append, List.append_assoc, List.nil_append]
  rw [readLines_newline, readLines_header hread, hopen]
  rfl

/-- A document whose lines take the empty draft to another one is that draft, put together. -/
theorem Takes.readDocument (h : Draft.Takes {} w d) (hmark : w.head? ≠ some '\uFEFF') :
    readDocument (String.ofList w) = d.close := by
  obtain ⟨k, hk, hread⟩ := h
  rw [Toml.readDocument, String.toList_ofList, if_neg hmark]
  obtain ⟨m, hm⟩ := Nat.exists_eq_add_of_le hk
  have hall := hread (m + 1) []
  rw [List.append_nil, show m + 1 + k = w.length + 1 by omega] at hall
  rw [hall]
  rfl

end Draft

end Lines

end GreenThreads.Toml
