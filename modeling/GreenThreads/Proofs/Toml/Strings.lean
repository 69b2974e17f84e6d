import GreenThreads.Toml.Printer
import Mathlib.Data.List.TakeWhile

/-!
# Written strings are read back

Whatever form a string is written in, reading it gives the string, and nothing after it is touched.
Only two things can go wrong: a character that does not stand for itself, and a run of quotes that
looks like the end. Escapes take care of the first, and no form lets three quotes of its own stand
side by side.
-/

namespace GreenThreads.Toml

/-! ## Runs of quotes -/

section Runs

variable {mark c : Char} {cs rest : List Char} {n : Nat}

/-- The length of the run of a character that a text begins with. -/
def leading (mark : Char) (cs : List Char) : Nat := (cs.takeWhile (· == mark)).length

/-- No run of the character is longer than `n`. -/
def RunsWithin (n : Nat) (mark : Char) (cs : List Char) : Prop := ∀ s, s <:+ cs → leading mark s ≤ n

@[simp] theorem leading_cons_self (mark : Char) (cs : List Char) :
    leading mark (mark :: cs) = leading mark cs + 1 := by
  simp [leading]

theorem leading_cons_of_ne (h : c ≠ mark) (cs : List Char) : leading mark (c :: cs) = 0 := by
  simp [leading, h]

theorem takeWhile_eq_replicate (mark : Char) (cs : List Char) :
    cs.takeWhile (· == mark) = List.replicate (leading mark cs) mark := by
  refine List.eq_replicate_iff.mpr ⟨rfl, fun c hc => ?_⟩
  simpa using List.mem_takeWhile_imp hc

theorem leading_append (mark : Char) (cs rest : List Char) :
    leading mark (cs ++ rest) =
      if leading mark cs = cs.length then cs.length + leading mark rest else leading mark cs := by
  unfold leading
  rw [List.takeWhile_append]
  split <;> simp

theorem RunsWithin.leading (h : RunsWithin n mark cs) : leading mark cs ≤ n :=
  h cs List.suffix_rfl

theorem RunsWithin.tail (h : RunsWithin n mark (c :: cs)) : RunsWithin n mark cs :=
  fun s hs => h s (hs.trans (List.suffix_cons c cs))

theorem RunsWithin.mono {m : Nat} (h : RunsWithin n mark cs) (hnm : n ≤ m) : RunsWithin m mark cs :=
  fun s hs => Nat.le_trans (h s hs) hnm

theorem RunsWithin.notMem (h : RunsWithin 0 mark cs) : mark ∉ cs := by
  intro hmem
  obtain ⟨before, after, rfl⟩ := List.append_of_mem hmem
  have hrun := h (mark :: after) (List.suffix_append ..)
  rw [leading_cons_self] at hrun
  omega

theorem runsWithin_of_notMem (h : mark ∉ cs) : RunsWithin 0 mark cs := by
  intro s hs
  cases s with
  | nil => exact Nat.le_refl 0
  | cons c s =>
      have hc : c ≠ mark := fun heq => h (heq ▸ hs.subset List.mem_cons_self)
      exact Nat.le_of_eq (leading_cons_of_ne hc s)

/-- The longest run is found, also if it is that at the front, which may have begun earlier. -/
theorem longestRun_bounds (mark : Char) (cs : List Char) (run best : Nat) :
    best ≤ longestRun mark cs run best ∧ run + leading mark cs ≤ longestRun mark cs run best ∧
      RunsWithin (longestRun mark cs run best) mark cs := by
  induction cs generalizing run best with
  | nil =>
      refine ⟨Nat.le_max_right .., Nat.le_max_left .., fun s hs => ?_⟩
      rw [List.suffix_nil.mp hs]
      exact Nat.zero_le _
  | cons c cs ih =>
      rw [longestRun]
      split
      · next hc =>
          obtain rfl := beq_iff_eq.mp hc
          obtain ⟨hbest, hrun, hwithin⟩ := ih (run + 1) best
          rw [leading_cons_self]
          refine ⟨hbest, by omega, fun s hs => ?_⟩
          rcases List.suffix_cons_iff.mp hs with rfl | hs
          · rw [leading_cons_self]
            omega
          · exact hwithin s hs
      · next hc =>
          have hne : c ≠ mark := fun heq => hc (beq_iff_eq.mpr heq)
          obtain ⟨hbest, hrun, hwithin⟩ := ih 0 (max run best)
          rw [leading_cons_of_ne hne]
          refine ⟨by omega, by omega, fun s hs => ?_⟩
          rcases List.suffix_cons_iff.mp hs with rfl | hs
          · rw [leading_cons_of_ne hne]
            exact Nat.zero_le _
          · exact hwithin s hs

theorem runsWithin_of_longestRun (h : longestRun mark cs 0 0 ≤ n) : RunsWithin n mark cs :=
  (longestRun_bounds mark cs 0 0).2.2.mono h

/-- A run of at most one quote before the closing ones does not look like the end. -/
theorem leading_append_closing (h : leading mark cs ≤ 1) (hr : leading mark rest = 0) :
    leading mark (cs ++ (List.replicate 3 mark ++ rest)) ≠ 2 ∧
      leading mark (cs ++ (List.replicate 3 mark ++ rest)) < 5 := by
  have hclosing : leading mark (List.replicate 3 mark ++ rest) = 3 := by
    simp [List.replicate, hr]
  rw [leading_append, hclosing]
  split <;> omega

end Runs

/-! ## Reading characters that stand for themselves -/

section Readers

variable {q : Quoting} {c e : Char} {cs rest : List Char}

theorem ne_mark_of_isPlain (h : q.isPlain c = true) : c ≠ q.mark := by
  rintro rfl
  simp [Quoting.isPlain] at h

theorem mark_ne_newline (q : Quoting) : '\n' ≠ q.mark := by cases q <;> decide

theorem not_isPlain_newline (q : Quoting) : q.isPlain '\n' = false := by cases q <;> rfl

theorem lineBody_mark (q : Quoting) (cs : List Char) :
    lineBody q (q.mark :: cs) = some ([], cs) := by
  rw [lineBody, if_pos rfl]

theorem lineBody_plain (h : q.isPlain c = true) (cs : List Char) :
    lineBody q (c :: cs) = (lineBody q cs).map fun (s, after) => (c :: s, after) := by
  rw [lineBody, if_neg (ne_mark_of_isPlain h), if_pos h]

theorem lineBody_escape (h : escape? cs = some (e, rest)) :
    lineBody .basic ('\\' :: cs) =
      (lineBody .basic rest).map fun (s, after) => (e :: s, after) := by
  rw [lineBody, if_neg (by decide), if_neg (by decide), if_pos (by decide)]
  split
  · next h' =>
      rw [h] at h'
      cases h'
      rfl
  · next h' => rw [h] at h'; cases h'

theorem linesBody_plain (h : q.isPlain c = true) (cs : List Char) :
    linesBody q (c :: cs) = (linesBody q cs).map fun (s, after) => (c :: s, after) := by
  rw [linesBody, if_neg (ne_mark_of_isPlain h), if_pos h]

theorem linesBody_newline (q : Quoting) (cs : List Char) :
    linesBody q ('\n' :: cs) = (linesBody q cs).map fun (s, after) => ('\n' :: s, after) := by
  rw [linesBody, if_neg (mark_ne_newline q), if_neg (by rw [not_isPlain_newline]; decide),
    if_neg (fun h => absurd h.2 (by decide))]
  split
  · next h => cases h; rfl
  · next h => cases h

theorem linesBody_escape (h : escape? cs = some (e, rest)) (hc : continuation? cs = none) :
    linesBody .basic ('\\' :: cs) =
      (linesBody .basic rest).map fun (s, after) => (e :: s, after) := by
  rw [linesBody, if_neg (by decide), if_neg (by decide), if_pos (by decide)]
  split
  · next h' => rw [hc] at h'; cases h'
  · split
    · next h' =>
        rw [h] at h'
        cases h'
        rfl
    · next h' => rw [h] at h'; cases h'

/-- A quote inside is read like any other character if it is not the first of the closing three. -/
theorem linesBody_mark (hne : leading q.mark cs ≠ 2) (hlt : leading q.mark cs < 5) :
    linesBody q (q.mark :: cs) = (linesBody q cs).map fun (s, after) => (q.mark :: s, after) := by
  rw [linesBody, if_pos rfl]
  dsimp only
  rw [takeWhile_eq_replicate, List.length_replicate]
  cases cs with
  | nil => rfl
  | cons c cs =>
      by_cases hc : c = q.mark
      · subst hc
        rw [linesBody, if_pos rfl]
        dsimp only
        rw [takeWhile_eq_replicate, List.length_replicate, leading_cons_self,
          List.dropWhile_cons_of_pos (by simp)]
        rw [leading_cons_self] at hne hlt
        -- The run is one quote, or three or four and then the end.
        have hrun : leading q.mark cs = 0 ∨ leading q.mark cs = 2 ∨ leading q.mark cs = 3 := by
          omega
        rcases hrun with hrun | hrun | hrun
        · rw [hrun, if_pos (by decide), if_pos (by decide), Option.map_map]
          rfl
        · rw [hrun]; rfl
        · rw [hrun]; rfl
      · rw [leading_cons_of_ne hc, List.dropWhile_cons_of_neg (by simpa using hc)]
        rfl

theorem linesBody_closing (hr : leading q.mark rest = 0) :
    linesBody q (List.replicate 3 q.mark ++ rest) = some ([], rest) := by
  have hrun : leading q.mark (q.mark :: q.mark :: rest) = 2 := by simp [hr]
  have hdrop : rest.dropWhile (· == q.mark) = rest := by
    have happend := List.takeWhile_append_dropWhile (p := (· == q.mark)) (l := rest)
    rwa [List.eq_nil_of_length_eq_zero hr] at happend
  show linesBody q (q.mark :: q.mark :: q.mark :: rest) = _
  rw [linesBody, if_pos rfl]
  dsimp only
  rw [takeWhile_eq_replicate, List.length_replicate, hrun,
    List.dropWhile_cons_of_pos (by simp), List.dropWhile_cons_of_pos (by simp), hdrop]
  rfl

end Readers

/-! ## Characters between double quotes -/

section Written

variable {multiline : Bool} {c : Char} {w cs rest : List Char} {run : Nat}

/-- How a character is written between double quotes, where it does not count as a quote: it stands
for itself, ends a line, or is escaped. -/
inductive Written (multiline : Bool) (c : Char) : List Char → Prop
  | plain (h : Quoting.basic.isPlain c = true) : Written multiline c [c]
  | newline (hm : multiline = true) (hc : c = '\n') : Written multiline c ['\n']
  | escaped {e : List Char} (he : ∀ rest, escape? (e ++ rest) = some (c, rest))
      (hc : ∀ rest, continuation? (e ++ rest) = none) : Written multiline c ('\\' :: e)

theorem continuation?_of_ne (hb : isBlank c = false) (hn : c ≠ '\n') (hr : c ≠ '\r')
    (cs : List Char) : continuation? (c :: cs) = none := by
  rw [continuation?, skipBlanks, List.dropWhile_cons_of_neg (by rw [hb]; decide)]
  unfold newline?
  split
  · next h => exact absurd (List.cons.inj h).1 hn
  · next h => exact absurd (List.cons.inj h).1 hr
  · rfl

/-- An escape of one letter. -/
theorem Written.letter {l e : Char} (hc : c = e) (hl : ∀ rest, escape? (l :: rest) = some (e, rest))
    (h : isBlank l = false ∧ l ≠ '\n' ∧ l ≠ '\r') : Written multiline c ['\\', l] := by
  subst hc
  exact .escaped (e := [l]) hl fun rest => continuation?_of_ne h.1 h.2.1 h.2.2 rest

theorem hexValue?_upperHexDigit : ∀ n < 16, hexValue? (upperHexDigit n) = some n := by decide

theorem codePoint?_four {a b d e : Char} (h : hexNumber? [a, b, d, e] = some c.toNat)
    (cs : List Char) : codePoint? 4 (a :: b :: d :: e :: cs) = some (c, cs) := by
  have hvalid : c.toNat.isValidChar := c.valid
  simp [codePoint?, h, hvalid]

theorem escape?_hexEscape (h : c.toNat < 256) (rest : List Char) :
    escape? ((hexEscape c).tail ++ rest) = some (c, rest) := by
  have hnumber : hexNumber? ['0', '0', upperHexDigit (c.toNat / 16), upperHexDigit (c.toNat % 16)] =
      some c.toNat := by
    have hzero : hexValue? '0' = some 0 := by decide
    simp only [hexNumber?, List.foldlM_cons, List.foldlM_nil, hzero,
      hexValue?_upperHexDigit (c.toNat / 16) (by omega),
      hexValue?_upperHexDigit (c.toNat % 16) (by omega), Option.map_some, Option.bind_eq_bind,
      Option.bind_some, Option.pure_def, Option.some.injEq]
    omega
  exact codePoint?_four hnumber rest

theorem isVisible_of_not_isHidden (hh : isHidden c = false) (hn : c ≠ '\n') :
    isVisible c = true := by
  simp only [isHidden, Bool.or_eq_false_iff, Bool.and_eq_false_iff, decide_eq_false_iff_not,
    bne_eq_false_iff_eq, beq_eq_false_iff_ne] at hh
  simp only [isVisible, Bool.or_eq_true, Bool.and_eq_true, beq_iff_eq, bne_iff_ne,
    decide_eq_true_eq]
  obtain ⟨(hlow | htab) | hline, hdel⟩ := hh
  · exact .inr ⟨Char.not_lt.mp hlow, hdel⟩
  · exact .inl htab
  · exact absurd hline hn

theorem toNat_lt_of_isHidden (h : isHidden c = true) : c.toNat < 256 := by
  simp only [isHidden, Bool.or_eq_true, Bool.and_eq_true, beq_iff_eq, decide_eq_true_eq] at h
  rcases h with ⟨⟨hlow, -⟩, -⟩ | rfl
  · exact Nat.lt_trans (show c.toNat < 32 from hlow) (by decide)
  · decide

/-- A character is written in one of these ways, unless it is a quote that stands for itself. -/
theorem exists_written (multiline : Bool) (run : Nat) (cs : List Char)
    (h : c = '"' → ¬run < if multiline then 2 else 0) :
    ∃ w, Written multiline c w ∧
      escapeText multiline (c :: cs) run = w ++ escapeText multiline cs 0 := by
  rw [escapeText]
  split
  · next hc =>
      subst hc
      rw [if_neg (h rfl)]
      exact ⟨['\\', '"'], .letter rfl (fun _ => rfl) (by decide), rfl⟩
  · next hq =>
      refine ⟨_, ?_, rfl⟩
      split
      · next hc => exact .letter hc (fun _ => rfl) (by decide)
      split
      · next hc => exact .letter hc (fun _ => rfl) (by decide)
      split
      · next hc => exact .letter hc (fun _ => rfl) (by decide)
      split
      · next hc => exact .letter hc (fun _ => rfl) (by decide)
      split
      · next hc => exact .letter hc (fun _ => rfl) (by decide)
      split
      · next hc =>
          split
          · next hm => exact hc ▸ .newline hm rfl
          · exact .letter hc (fun _ => rfl) (by decide)
      · next hline =>
          split
          · next hhidden =>
              exact .escaped (escape?_hexEscape (toNat_lt_of_isHidden hhidden)) fun rest =>
                continuation?_of_ne (by decide) (by decide) (by decide) _
          · next hhidden =>
              have hvisible := isVisible_of_not_isHidden (by simpa using hhidden) hline
              exact .plain (by simp_all [Quoting.isPlain, Quoting.mark])

theorem escapeText_quote (h : run < 2) (cs : List Char) :
    escapeText true ('"' :: cs) run = '"' :: escapeText true cs (run + 1) := by
  rw [escapeText, if_pos rfl, if_pos (by simpa using h)]

theorem lineBody_written (h : Written false c w) (cs : List Char) :
    lineBody .basic (w ++ cs) = (lineBody .basic cs).map fun (s, after) => (c :: s, after) := by
  cases h with
  | plain h => exact lineBody_plain h cs
  | newline hm => cases hm
  | escaped he => exact lineBody_escape (he cs)

theorem linesBody_written (h : Written multiline c w) (cs : List Char) :
    linesBody .basic (w ++ cs) = (linesBody .basic cs).map fun (s, after) => (c :: s, after) := by
  cases h with
  | plain h => exact linesBody_plain h cs
  | newline _ hc =>
      subst hc
      exact linesBody_newline .basic cs
  | escaped he hc => exact linesBody_escape (he cs) (hc cs)

/-- What is written for a character does not begin with a quote, nor with a line end unless it is
one. -/
theorem Written.head (h : Written multiline c w) : ∃ d v, w = d :: v ∧ d ≠ '"' ∧
    (c ≠ '\n' → d ≠ '\n' ∧ d ≠ '\r') := by
  cases h with
  | plain h =>
      refine ⟨c, [], rfl, ne_mark_of_isPlain h, fun hc => ⟨hc, ?_⟩⟩
      rintro rfl
      exact absurd h (by decide)
  | newline _ hc => exact ⟨'\n', [], rfl, by decide, fun h => absurd hc h⟩
  | escaped => exact ⟨'\\', _, rfl, by decide, fun _ => by decide⟩

/-- Of a run of quotes, those that are written plainly are at most two. -/
theorem leading_escapeText (cs : List Char) (run : Nat) :
    leading '"' (escapeText true cs run) ≤ 2 - run := by
  induction cs generalizing run with
  | nil => exact Nat.zero_le _
  | cons c cs ih =>
      by_cases h : c = '"' ∧ run < 2
      · obtain ⟨rfl, hrun⟩ := h
        have hrest := ih (run + 1)
        rw [escapeText_quote hrun, leading_cons_self]
        omega
      · obtain ⟨w, hw, heq⟩ := exists_written true run cs fun hc hrun => h ⟨hc, hrun⟩
        obtain ⟨d, v, rfl, hd, -⟩ := hw.head
        rw [heq, List.cons_append, leading_cons_of_ne hd]
        exact Nat.zero_le _

theorem leading_escapeText_line (cs : List Char) (run : Nat) :
    leading '"' (escapeText false cs run) = 0 := by
  cases cs with
  | nil => rfl
  | cons c cs =>
      obtain ⟨w, hw, heq⟩ := exists_written false run cs fun _ => Nat.not_lt_zero run
      obtain ⟨d, v, rfl, hd, -⟩ := hw.head
      rw [heq, List.cons_append, leading_cons_of_ne hd]

theorem head_escapeText {d : Char} {v : List Char} (h : '\n' ∉ cs)
    (heq : escapeText true cs 0 = d :: v) : d ≠ '\n' ∧ d ≠ '\r' := by
  cases cs with
  | nil => cases heq
  | cons c cs =>
      by_cases hc : c = '"'
      · subst hc
        rw [escapeText_quote (by decide)] at heq
        cases heq
        decide
      · obtain ⟨w, hw, hwritten⟩ := exists_written true 0 cs fun hq => absurd hq hc
        obtain ⟨e, u, rfl, -, hline⟩ := hw.head
        rw [hwritten] at heq
        cases heq
        exact hline fun hn => h (hn ▸ List.mem_cons_self)

theorem lineBody_escapeText (cs rest : List Char) (run : Nat) :
    lineBody .basic (escapeText false cs run ++ '"' :: rest) = some (cs, rest) := by
  induction cs generalizing run with
  | nil => exact lineBody_mark .basic rest
  | cons c cs ih =>
      obtain ⟨w, hw, heq⟩ := exists_written false run cs fun _ => Nat.not_lt_zero run
      rw [heq, List.append_assoc, lineBody_written hw, ih]
      rfl

theorem linesBody_escapeText (hr : leading '"' rest = 0) (cs : List Char) (run : Nat) :
    linesBody .basic (escapeText true cs run ++ (List.replicate 3 '"' ++ rest)) =
      some (cs, rest) := by
  induction cs generalizing run with
  | nil => exact linesBody_closing (q := .basic) hr
  | cons c cs ih =>
      by_cases h : c = '"' ∧ run < 2
      · obtain ⟨rfl, hrun⟩ := h
        have hlead : leading '"' (escapeText true cs (run + 1)) ≤ 1 :=
          Nat.le_trans (leading_escapeText cs (run + 1)) (by omega)
        have hclosing := leading_append_closing hlead hr
        rw [escapeText_quote hrun]
        refine (linesBody_mark (q := .basic) hclosing.1 hclosing.2).trans ?_
        rw [ih]
        rfl
      · obtain ⟨w, hw, heq⟩ := exists_written true run cs fun hc hrun => h ⟨hc, hrun⟩
        rw [heq, List.append_assoc, linesBody_written hw, ih]
        rfl

end Written

/-! ## Characters between single quotes -/

section Literal

variable {cs rest : List Char}

theorem lineBody_literal (h : ∀ c ∈ cs, Quoting.literal.isPlain c = true) (rest : List Char) :
    lineBody .literal (cs ++ '\'' :: rest) = some (cs, rest) := by
  induction cs with
  | nil => exact lineBody_mark .literal rest
  | cons c cs ih =>
      rw [List.cons_append, lineBody_plain (h c List.mem_cons_self),
        ih fun d hd => h d (List.mem_cons_of_mem c hd)]
      rfl

theorem linesBody_literal (hruns : RunsWithin 2 '\'' cs) (hr : leading '\'' rest = 0)
    (h : ∀ c ∈ cs, Quoting.literal.isPlain c = true ∨ c = '\n' ∨ c = '\'') :
    linesBody .literal (cs ++ (List.replicate 3 '\'' ++ rest)) = some (cs, rest) := by
  induction cs with
  | nil => exact linesBody_closing (q := .literal) hr
  | cons c cs ih =>
      have hrest := ih hruns.tail fun d hd => h d (List.mem_cons_of_mem c hd)
      rw [List.cons_append]
      rcases h c List.mem_cons_self with hc | rfl | rfl
      · rw [linesBody_plain hc, hrest]
        rfl
      · rw [linesBody_newline, hrest]
        rfl
      · have hlead := hruns.leading
        rw [leading_cons_self] at hlead
        have hclosing := leading_append_closing (by omega : leading '\'' cs ≤ 1) hr
        refine (linesBody_mark (q := .literal) hclosing.1 hclosing.2).trans ?_
        rw [hrest]
        rfl

end Literal

/-! ## Whole strings -/

section Strings

variable {q : Quoting} {cs rest : List Char}

theorem readString_line (h : leading q.mark cs < 2) :
    readString true q (q.mark :: cs) =
      (lineBody q cs).map fun (s, after) => (String.ofList s, after) := by
  match cs with
  | [] => simp [readString]
  | [c] => simp [readString]
  | c :: d :: cs =>
      have hnot : ¬(c = q.mark ∧ d = q.mark) := by
        rintro ⟨rfl, rfl⟩
        simp only [leading_cons_self] at h
        omega
      simp only [readString, Bool.true_and, beq_self_eq_true, if_true]
      rw [if_neg (by simpa using hnot)]

theorem readString_lines (q : Quoting) (cs : List Char) :
    readString true q (List.replicate 3 q.mark ++ cs) =
      (linesBody q (skipFirstNewline cs)).map fun (s, after) => (String.ofList s, after) := by
  simp [readString, List.replicate]

/-- A text of one line that can stand between three quotes begins right after them. -/
theorem skipFirstNewline_of_ne {c : Char} (hn : c ≠ '\n') (hr : c ≠ '\r') (cs : List Char) :
    skipFirstNewline (c :: cs) = c :: cs := by
  unfold skipFirstNewline newline?
  split
  · next h => exact absurd (List.cons.inj h).1 hn
  · next h => exact absurd (List.cons.inj h).1 hr
  · rfl

namespace Style

/-- Single quotes can hold the text in this form. Double quotes can hold any. -/
def Holds (s : Style) (cs : List Char) : Prop := s.quoting = .literal →
  RunsWithin 2 '\'' cs ∧ ∀ c ∈ cs, Quoting.literal.isPlain c = true ∨
    s.multiline = true ∧ (c = '\n' ∨ c = '\'')

/-- The form that is taken for a text can hold it. -/
theorem forText_holds (cs : List Char) : (forText cs).Holds cs := by
  have hvisible : cs.any isHidden = false → ∀ c ∈ cs, c ≠ '\n' → c ≠ '\'' →
      Quoting.literal.isPlain c = true := by
    intro hhidden c hc hn hq
    have hh : isHidden c = false := by simpa using List.any_eq_false.mp hhidden c hc
    have hv := isVisible_of_not_isHidden hh hn
    simp [Quoting.isPlain, Quoting.mark, hv, hq]
  unfold forText
  dsimp only
  split
  · exact nofun
  split
  · next h =>
      intro _
      simp only [Bool.and_eq_true, Bool.not_eq_true', beq_iff_eq] at h
      have hruns := runsWithin_of_longestRun (Nat.le_of_eq h.1.2)
      have hline : '\n' ∉ cs := by simpa using h.2
      refine ⟨hruns.mono (by decide), fun c hc => .inl (hvisible h.1.1 c hc ?_ ?_)⟩
      · exact fun heq => hline (heq ▸ hc)
      · exact fun heq => hruns.notMem (heq ▸ hc)
  split
  · exact nofun
  split
  · next h =>
      intro _
      simp only [Bool.and_eq_true, Bool.not_eq_true', decide_eq_true_eq] at h
      refine ⟨runsWithin_of_longestRun h.2, fun c hc => ?_⟩
      by_cases hspecial : c = '\n' ∨ c = '\''
      · exact .inr ⟨rfl, hspecial⟩
      · obtain ⟨hn, hq⟩ := not_or.mp hspecial
        exact .inl (hvisible h.1 c hc hn hq)
  · exact nofun

end Style

theorem readString_of_lineBody {body : List Char} (hlead : leading q.mark body = 0)
    (hr : leading q.mark rest = 0) (h : lineBody q (body ++ q.mark :: rest) = some (cs, rest)) :
    readString true q (q.mark :: (body ++ q.mark :: rest)) = some (String.ofList cs, rest) := by
  have hshort : leading q.mark (body ++ q.mark :: rest) < 2 := by
    rw [leading_append, leading_cons_self, hlead, hr]
    split <;> omega
  rw [readString_line hshort, h]
  rfl

/-- A text begins on a line of its own exactly if it has line ends, so no line end of it is lost. -/
theorem readString_of_linesBody {body : List Char}
    (hhead : '\n' ∉ cs → ∀ c v, body = c :: v → c ≠ '\n' ∧ c ≠ '\r')
    (h : linesBody q (body ++ (List.replicate 3 q.mark ++ rest)) = some (cs, rest)) :
    readString true q (List.replicate 3 q.mark ++ ((if cs.contains '\n' then ['\n'] else []) ++
      (body ++ (List.replicate 3 q.mark ++ rest)))) = some (String.ofList cs, rest) := by
  have hskip : skipFirstNewline ((if cs.contains '\n' then ['\n'] else []) ++
      (body ++ (List.replicate 3 q.mark ++ rest))) =
        body ++ (List.replicate 3 q.mark ++ rest) := by
    split
    · rfl
    · next hline =>
        cases body with
        | nil => cases q <;> rfl
        | cons c v =>
            obtain ⟨hn, hr⟩ := hhead (by simpa using hline) c v rfl
            exact skipFirstNewline_of_ne hn hr _
  rw [readString_lines, hskip, h]
  rfl

/-- A string that is written in a form that can hold it is read back, up to its closing quotes. -/
theorem readString_writeStringAs {s : Style} (h : s.Holds cs)
    (hr : leading s.quoting.mark rest = 0) :
    readString true s.quoting (writeStringAs s cs ++ rest) = some (String.ofList cs, rest) := by
  obtain ⟨q, multiline⟩ := s
  cases multiline with
  | false =>
      have hwritten : ∀ body : List Char, [q.mark] ++ [] ++ body ++ [q.mark] ++ rest =
          q.mark :: (body ++ q.mark :: rest) := fun body => by simp
      cases q with
      | basic =>
          exact (congrArg _ (hwritten _)).trans (readString_of_lineBody
            (leading_escapeText_line cs 0) hr (lineBody_escapeText cs rest 0))
      | literal =>
          obtain ⟨-, hplain⟩ := h rfl
          have hplain' : ∀ c ∈ cs, Quoting.literal.isPlain c = true := fun c hc =>
            (hplain c hc).resolve_right nofun
          have hnone : '\'' ∉ cs := fun hc => ne_mark_of_isPlain (hplain' _ hc) rfl
          exact (congrArg _ (hwritten _)).trans (readString_of_lineBody
            (Nat.le_zero.mp (runsWithin_of_notMem hnone).leading) hr
            (lineBody_literal hplain' rest))
  | true =>
      have hwritten : ∀ first body : List Char,
          List.replicate 3 q.mark ++ first ++ body ++ List.replicate 3 q.mark ++ rest =
            List.replicate 3 q.mark ++ (first ++ (body ++ (List.replicate 3 q.mark ++ rest))) :=
        fun first body => by simp only [List.append_assoc]
      cases q with
      | basic =>
          refine (congrArg _ (hwritten _ _)).trans
            (readString_of_linesBody ?_ (linesBody_escapeText hr cs 0))
          exact fun hline d v hbody => head_escapeText hline hbody
      | literal =>
          obtain ⟨hruns, hplain⟩ := h rfl
          refine (congrArg _ (hwritten _ _)).trans
            (readString_of_linesBody ?_ (linesBody_literal hruns hr fun c hc => ?_))
          · rintro hline d v rfl
            rcases hplain d List.mem_cons_self with hd | ⟨-, rfl | rfl⟩
            · refine ⟨fun heq => hline (heq ▸ List.mem_cons_self), ?_⟩
              rintro rfl
              exact absurd hd (by decide)
            · exact absurd List.mem_cons_self hline
            · decide
          · exact (hplain c hc).imp_right And.right

end Strings

end GreenThreads.Toml
