import GreenThreads.Proofs.Policy.Decision

/-!
# Literal characters and exact rules

A token that is no wildcard stands for one character of the text, so a pattern has no more literal
characters than a name it matches. The specificity of a rule counts the characters of its text that
are not `*`, those of a class and the `/` after `**` among them. Without these an exact rule that
says native is never overridden; with them it can be.
-/

namespace GreenThreads

namespace Glob

variable {cs cs' : List Char} {tokens tokens' : List Token}

/-! ## How long a matched text is -/

/-- Whether the token stands for exactly one character. -/
def Token.isSingle : Token → Bool
  | .anySequence | .anyComponents => false
  | _ => true

/-- Whether the token is a character that stands for itself. -/
def Token.isLiteral : Token → Bool
  | .char _ => true
  | _ => false

theorem Token.isSingle_of_isLiteral {t : Token} (h : t.isLiteral = true) : t.isSingle = true := by
  cases t with
  | char => rfl
  | anyChar | anySequence | anyComponents | within | outside => simp [isLiteral] at h

theorem exists_suffix_of_sweep {rest : List Char → Attempt} {components : Bool}
    (h : sweep rest components cs = .matched) : ∃ cs', cs' <:+ cs ∧ rest cs' = .matched := by
  induction cs with
  | nil => exact ⟨[], List.suffix_refl _, h⟩
  | cons c cs ih =>
    have hlater (h : sweep rest components cs = .matched) :
        ∃ cs', cs' <:+ c :: cs ∧ rest cs' = .matched := by
      obtain ⟨cs', hs, hr⟩ := ih h
      exact ⟨cs', hs.trans (List.suffix_cons c cs), hr⟩
    simp only [sweep] at h
    split at h
    · exact hlater h
    · split at h
      · exact hlater h
      · exact ⟨cs, List.suffix_cons c cs, h⟩

theorem exists_suffix_of_tryWildcard {rest : List Char → Attempt} {components : Bool}
    (h : tryWildcard rest components cs = .matched) : ∃ cs', cs' <:+ cs ∧ rest cs' = .matched := by
  simp only [tryWildcard] at h
  split at h
  · exact exists_suffix_of_sweep h
  · exact ⟨cs, List.suffix_refl _, h⟩

theorem attempt_single {t : Token} (h : t.isSingle = true) (ts : List Token) (cs : List Char) :
    attempt (t :: ts) cs =
      match cs with
      | [] => .exhausted
      | c :: cs => if t.accepts c then attempt ts cs else .mismatch := by
  cases t with
  | anySequence | anyComponents => simp [Token.isSingle] at h
  | char | anyChar | within | outside => cases cs <;> rfl

theorem exists_suffix_of_wildcard {t : Token} (h : t.isSingle = false)
    (hm : attempt (t :: tokens) cs = .matched) :
    ∃ cs', cs' <:+ cs ∧ attempt tokens cs' = .matched := by
  cases t with
  | anySequence | anyComponents => exact exists_suffix_of_tryWildcard hm
  | char | anyChar | within | outside => simp [Token.isSingle] at h

theorem countP_isSingle_le (h : attempt tokens cs = .matched) :
    tokens.countP (·.isSingle) ≤ cs.length := by
  induction tokens generalizing cs with
  | nil => exact Nat.zero_le _
  | cons t ts ih =>
    cases ht : t.isSingle with
    | true =>
      rw [attempt_single ht] at h
      rw [List.countP_cons_of_pos ht]
      split at h
      · cases h
      · split at h
        · exact Nat.succ_le_succ (ih h)
        · cases h
    | false =>
      obtain ⟨cs', hs, hm⟩ := exists_suffix_of_wildcard ht h
      rw [List.countP_cons_of_neg (by simp [ht])]
      exact Nat.le_trans (ih hm) hs.length_le

/-! ## What a text is read as -/

/-- No character of the text has a meaning of its own in a pattern. -/
def Plain (cs : List Char) : Prop := ∀ c ∈ cs, c ≠ '*' ∧ c ≠ '?' ∧ c ≠ '['

instance (cs : List Char) : Decidable (Plain cs) :=
  decidable_of_iff (cs.all fun c => c != '*' && c != '?' && c != '[') (by simp [Plain, and_assoc])

theorem Plain.parseFrom (h : Plain cs) (position : Nat) (boundary : Bool) (tokens : List Token) :
    parseFrom cs position boundary tokens = .ok (tokens ++ cs.map .char) := by
  unfold Plain at h
  fun_induction Glob.parseFrom cs position boundary tokens with
  | case1 => simp
  | case2 | case3 | case4 | case5 | case6 | case7 | case8 | case9 | case10 => simp at h
  | case11 position boundary tokens c rest _ _ _ _ _ ih =>
    rw [ih fun d hd => h d (List.mem_cons_of_mem _ hd)]
    simp

theorem Plain.parse {s : String} (h : Plain s.toList) : parse s = .ok (s.toList.map .char) :=
  h.parseFrom 0 true []

theorem attempt_map_char (cs : List Char) : attempt (cs.map .char) cs = .matched := by
  induction cs with
  | nil => rfl
  | cons c cs ih => simpa [attempt, Token.accepts] using ih

@[simp] theorem countP_isSingle_pushComponents (tokens : List Token) :
    (pushComponents tokens).countP (·.isSingle) = tokens.countP (·.isSingle) := by
  unfold pushComponents
  split
  · rfl
  · simp [Token.isSingle]

/-- Without classes and `**/`, each character of a pattern other than `*` stands for one character
of the text. -/
theorem countP_isSingle_parseFrom {position : Nat} {boundary : Bool}
    (h : parseFrom cs position boundary tokens = .ok tokens') (hclass : '[' ∉ cs)
    (hstars : ¬ ['*', '*', '/'] <:+: cs) :
    tokens'.countP (·.isSingle) = tokens.countP (·.isSingle) + cs.countP (· != '*') := by
  have hrest {c : Char} {cs : List Char} (hclass : '[' ∉ c :: cs)
      (hstars : ¬ ['*', '*', '/'] <:+: c :: cs) : '[' ∉ cs ∧ ¬ ['*', '*', '/'] <:+: cs :=
    ⟨fun h => hclass (List.mem_cons_of_mem c h), fun h => hstars (List.infix_cons h)⟩
  fun_induction parseFrom cs position boundary tokens with
  | case1 =>
    cases h
    simp
  | case2 position boundary tokens rest ih =>
    obtain ⟨hc, hs⟩ := hrest hclass hstars
    rw [ih h hc hs]
    simp +arith [Token.isSingle]
  | case3 => cases h
  | case4 position tokens =>
    cases h
    simp
  | case5 position tokens rest => exact absurd ⟨[], rest, rfl⟩ hstars
  | case6 => cases h
  | case7 => cases h
  | case8 position boundary tokens rest _ _ ih =>
    obtain ⟨hc, hs⟩ := hrest hclass hstars
    rw [ih h hc hs]
    simp [Token.isSingle]
  | case9 => simp at hclass
  | case10 => cases h
  | case11 position boundary tokens c rest _ _ _ hstar _ ih =>
    obtain ⟨hc, hs⟩ := hrest hclass hstars
    rw [ih h hc hs]
    have : (c != '*') = true := by simpa using hstar
    simp +arith [Token.isSingle, this]

end Glob

/-! ## Exact rules -/

namespace ThreadRule

open Glob

variable {r : ThreadRule} {name : String}

/-- The literal characters of the pattern, those that are no part of a wildcard or a class. -/
def literals (r : ThreadRule) : Nat :=
  match parse r.pattern with
  | .ok tokens => tokens.countP (·.isLiteral)
  | .error _ => 0

theorem appliesTo_iff :
    r.appliesTo name = true ↔
      ∃ tokens, parse r.pattern = .ok tokens ∧ attempt tokens name.toList = .matched := by
  unfold appliesTo
  split
  · next tokens h => simp [h, isMatch]
  · next e h => simp [h]

theorem literals_le (h : r.appliesTo name = true) : r.literals ≤ name.toList.length := by
  obtain ⟨tokens, hp, hm⟩ := appliesTo_iff.1 h
  simp only [literals, hp]
  exact Nat.le_trans (List.countP_mono_left fun t _ => Token.isSingle_of_isLiteral)
    (countP_isSingle_le hm)

theorem exact_appliesTo (h : Plain name.toList) (asTask : Bool) :
    (⟨name, asTask⟩ : ThreadRule).appliesTo name = true :=
  appliesTo_iff.2 ⟨_, h.parse, attempt_map_char _⟩

theorem exact_literals (h : Plain name.toList) (asTask : Bool) :
    (⟨name, asTask⟩ : ThreadRule).literals = name.toList.length := by
  simp [literals, h.parse, Token.isLiteral, Function.comp_def]

theorem exact_specificity (h : Plain name.toList) (asTask : Bool) :
    (⟨name, asTask⟩ : ThreadRule).specificity = name.toList.length :=
  List.countP_eq_length.2 fun c hc => by simpa using (h c hc).1

/-- A rule without classes and `**/` is no more specific than a name it speaks about is long. -/
theorem specificity_le (h : r.appliesTo name = true) (hclass : '[' ∉ r.pattern.toList)
    (hstars : ¬ ['*', '*', '/'] <:+: r.pattern.toList) :
    r.specificity ≤ name.toList.length := by
  obtain ⟨tokens, hp, hm⟩ := appliesTo_iff.1 h
  have hcount := countP_isSingle_parseFrom hp hclass hstars
  have hle := countP_isSingle_le hm
  simp only [specificity]
  simp only [List.countP_nil, Nat.zero_add] at hcount
  omega

end ThreadRule

namespace ThreadPolicy

open Glob

variable {p : ThreadPolicy} {name : String}

/-- A rule that is exactly the name and says native has as many literal characters as the name is
long, and no applying rule has more. The thread runs as a task all the same only if an applying
rule says so whose specificity exceeds the length of the name, and that is a rule with a class or
with `**/`. -/
theorem exact_native_rule (hplain : Plain name.toList) (hmem : ⟨name, false⟩ ∈ p.rules) :
    (⟨name, false⟩ : ThreadRule).literals = name.toList.length ∧
    (∀ r ∈ p.rules, r.appliesTo name = true → r.literals ≤ name.toList.length) ∧
    (p.decides name = true → ∃ r ∈ p.rules, r.appliesTo name = true ∧ r.asTask = true ∧
      name.toList.length < r.specificity ∧
      ('[' ∈ r.pattern.toList ∨ ['*', '*', '/'] <:+: r.pattern.toList)) := by
  refine ⟨ThreadRule.exact_literals hplain _, fun r _ => ThreadRule.literals_le, fun hdec => ?_⟩
  have hexact : ⟨name, false⟩ ∈ p.speaking name :=
    mem_speaking.2 ⟨hmem, ThreadRule.exact_appliesTo hplain false⟩
  have hall := (decides_iff (List.ne_nil_of_mem hexact)).1 hdec
  obtain ⟨r, hr⟩ := exists_foremost (List.ne_nil_of_mem hexact)
  obtain ⟨hrules, happ⟩ := mem_speaking.1 hr.1
  -- the exact rule is not foremost: it says native
  have hlt : name.toList.length < r.specificity := by
    have hle := ThreadRule.exact_specificity hplain false ▸ hr.2 _ hexact
    refine Nat.lt_of_le_of_ne hle fun heq => ?_
    have hsame : (⟨name, false⟩ : ThreadRule).specificity = r.specificity :=
      (ThreadRule.exact_specificity hplain false).trans heq
    exact Bool.false_ne_true (hall ⟨name, false⟩ ⟨hexact, fun s hs => hsame ▸ hr.2 s hs⟩)
  refine ⟨r, hrules, happ, hall r hr, hlt, Classical.byContradiction fun h => ?_⟩
  rw [not_or] at h
  exact absurd (ThreadRule.specificity_le happ h.1 h.2) (Nat.not_le_of_lt hlt)

/-- A class of one character overrides an exact native rule. -/
theorem exact_native_rule_of_class :
    (⟨"a", false⟩ : ThreadRule) ∈ (⟨false, [⟨"a", false⟩, ⟨"[a]", true⟩]⟩ : ThreadPolicy).rules ∧
    Plain "a".toList ∧
    ∃ r ∈ (⟨false, [⟨"a", false⟩, ⟨"[a]", true⟩]⟩ : ThreadPolicy).rules,
      r.appliesTo "a" = true ∧ r.asTask = true ∧ 1 < r.specificity ∧ r.literals ≤ 1 := by
  have hplain : Plain "a".toList := by decide
  have hmem : (⟨"a", false⟩ : ThreadRule) ∈
      (⟨false, [⟨"a", false⟩, ⟨"[a]", true⟩]⟩ : ThreadPolicy).rules := by decide
  obtain ⟨-, hle, htask⟩ := exact_native_rule hplain hmem
  obtain ⟨r, hr, happ, hask, hlt, -⟩ := htask (by cbv)
  exact ⟨hmem, hplain, r, hr, happ, hask, hlt, hle r hr happ⟩

/-- An exact native rule for a name without special characters does not keep the thread native. -/
theorem exact_native_rule_overridden :
    ∃ (p : ThreadPolicy) (name : String), Plain name.toList ∧ ⟨name, false⟩ ∈ p.rules ∧
      p.decides name = true :=
  ⟨⟨false, [⟨"a", false⟩, ⟨"[a]", true⟩]⟩, "a", by decide, by decide, by cbv⟩

end ThreadPolicy

end GreenThreads
