import Mathlib.Data.List.Induction
import GreenThreads.ThreadPolicy

/-!
# What the rules decide together

The fold over the applying rules comes to a verdict: the greatest specificity among them, and
whether the rules that have it all say task. A verdict speaks of which rules there are, and so
neither their order nor their repetitions decide anything.
-/

namespace GreenThreads

variable {p : ThreadPolicy} {r s : ThreadRule} {rules other : List ThreadRule} {name : String}

theorem ThreadRule.appliesTo_eq_false (h : r.error?.isSome = true) (name : String) :
    r.appliesTo name = false := by
  unfold ThreadRule.error? at h
  unfold ThreadRule.appliesTo
  split
  · next tokens hok => simp [hok] at h
  · rfl

namespace ThreadPolicy

/-! ## The verdict of some rules -/

/-- `v` is what rules say that all apply: nothing where there are none, and else the greatest
specificity and whether all rules that have it say task. -/
def Verdict (rules : List ThreadRule) : Option (Nat × Bool) → Prop
  | none => rules = []
  | some (n, decision) =>
    (∃ r ∈ rules, r.specificity = n) ∧ (∀ r ∈ rules, r.specificity ≤ n) ∧
      (decision = true ↔ ∀ r ∈ rules, r.specificity = n → r.asTask = true)

theorem Verdict.weigh {best : Option (Nat × Bool)} (h : Verdict rules best) :
    Verdict (rules ++ [r]) (ThreadPolicy.weigh best r) := by
  rcases best with _ | ⟨n, decision⟩
  · obtain rfl : rules = [] := h
    simp [ThreadPolicy.weigh, Verdict]
  obtain ⟨⟨t, ht, htn⟩, hle, hd⟩ := h
  rcases Nat.lt_trichotomy n r.specificity with hlt | heq | hgt
  · -- the rule is alone at the new maximum
    have hbelow : ∀ t ∈ rules, t.specificity ≠ r.specificity := fun t ht => by
      have := hle t ht
      omega
    simp only [ThreadPolicy.weigh, hlt, ↓reduceIte, Verdict, List.mem_append, List.mem_singleton]
    refine ⟨⟨r, .inr rfl, rfl⟩, ?_, ?_⟩
    · rintro t (ht | rfl)
      · exact Nat.le_trans (hle t ht) (Nat.le_of_lt hlt)
      · exact Nat.le_refl _
    · refine ⟨?_, fun h => h r (.inr rfl) rfl⟩
      rintro hr t (ht | rfl) htr
      · exact absurd htr (hbelow t ht)
      · exact hr
  · subst heq
    simp only [ThreadPolicy.weigh, Nat.lt_irrefl, ↓reduceIte, Verdict, List.mem_append,
      List.mem_singleton, Bool.and_eq_true, hd]
    refine ⟨⟨r, .inr rfl, rfl⟩, ?_, ?_⟩
    · rintro t (ht | rfl)
      · exact hle t ht
      · exact Nat.le_refl _
    · refine ⟨?_, fun h => ⟨fun t ht => h t (.inl ht), h r (.inr rfl) rfl⟩⟩
      rintro ⟨hall, hr⟩ t (ht | rfl) htr
      · exact hall t ht htr
      · exact hr
  · have hlt : ¬ n < r.specificity := by omega
    simp only [ThreadPolicy.weigh, hlt, Nat.ne_of_lt hgt, ↓reduceIte, Verdict, List.mem_append,
      List.mem_singleton, hd]
    refine ⟨⟨t, .inl ht, htn⟩, ?_, ?_⟩
    · rintro t (ht | rfl)
      · exact hle t ht
      · exact Nat.le_of_lt hgt
    · refine ⟨?_, fun h t ht => h t (.inl ht)⟩
      rintro hall t (ht | rfl) htr
      · exact hall t ht htr
      · exact absurd htr (Nat.ne_of_lt hgt)

theorem verdict_foldl (rules : List ThreadRule) :
    Verdict rules (rules.foldl ThreadPolicy.weigh none) := by
  induction rules using List.reverseRecOn with
  | nil => rfl
  | append_singleton rules r ih =>
    rw [List.foldl_append]
    exact ih.weigh

/-! ## The foremost rules -/

/-- The rules that speak about a name. -/
def speaking (p : ThreadPolicy) (name : String) : List ThreadRule :=
  p.rules.filter (·.appliesTo name)

theorem mem_speaking : r ∈ p.speaking name ↔ r ∈ p.rules ∧ r.appliesTo name = true :=
  List.mem_filter

/-- A rule that speaks about the name, and none that does so is more specific. -/
def Foremost (p : ThreadPolicy) (name : String) (r : ThreadRule) : Prop :=
  r ∈ p.speaking name ∧ ∀ s ∈ p.speaking name, s.specificity ≤ r.specificity

theorem exists_foremost (h : p.speaking name ≠ []) : ∃ r, p.Foremost name r := by
  have hv := verdict_foldl (p.speaking name)
  rcases hbest : (p.speaking name).foldl ThreadPolicy.weigh none with _ | ⟨n, decision⟩
  · rw [hbest] at hv
    exact absurd hv h
  · rw [hbest] at hv
    obtain ⟨⟨r, hr, rfl⟩, hle, -⟩ := hv
    exact ⟨r, hr, hle⟩

theorem decides_of_speaking_eq_nil (h : p.speaking name = []) : p.decides name = p.enabled := by
  unfold decides
  rw [show p.rules.filter (·.appliesTo name) = [] from h]
  rfl

theorem decides_iff (h : p.speaking name ≠ []) :
    p.decides name = true ↔ ∀ r, p.Foremost name r → r.asTask = true := by
  have hv := verdict_foldl (p.speaking name)
  unfold decides
  rw [show p.rules.filter (·.appliesTo name) = p.speaking name from rfl]
  rcases hbest : (p.speaking name).foldl ThreadPolicy.weigh none with _ | ⟨n, decision⟩
  · rw [hbest] at hv
    exact absurd hv h
  · rw [hbest] at hv
    obtain ⟨⟨t, ht, rfl⟩, hle, hd⟩ := hv
    refine hd.trans ⟨fun hall r hr => hall r hr.1 ?_, fun hall r hr hrt => hall r ⟨hr, ?_⟩⟩
    · exact Nat.le_antisymm (hle r hr.1) (hr.2 t ht)
    · exact hrt ▸ hle

/-! ## What does not change a decision -/

/-- Only which rules speak about the name and which of them are foremost matters. -/
theorem decides_congr {q : ThreadPolicy} (he : q.enabled = p.enabled)
    (hs : q.speaking name = [] ↔ p.speaking name = [])
    (hf : ∀ r, q.Foremost name r ↔ p.Foremost name r) : q.decides name = p.decides name := by
  by_cases h : p.speaking name = []
  · rw [decides_of_speaking_eq_nil h, decides_of_speaking_eq_nil (hs.2 h), he]
  · rw [Bool.eq_iff_iff, decides_iff h, decides_iff (mt hs.1 h)]
    simp only [hf]

theorem decides_eq_of_mem_iff {q : ThreadPolicy} (he : q.enabled = p.enabled)
    (h : ∀ r, r ∈ q.speaking name ↔ r ∈ p.speaking name) : q.decides name = p.decides name := by
  refine decides_congr he ?_ fun r => ?_
  · simp only [List.eq_nil_iff_forall_not_mem, h]
  · simp only [Foremost, h]

theorem decides_insert_of_silent {a b : List ThreadRule} (hr : r.appliesTo name = false) :
    decides { p with rules := a ++ r :: b } name = decides { p with rules := a ++ b } name := by
  unfold decides
  simp [hr]

theorem decides_insert_of_lt {a b : List ThreadRule}
    (hs : s ∈ a ++ b) (happ : s.appliesTo name = true) (hlt : r.specificity < s.specificity) :
    decides { p with rules := a ++ r :: b } name = decides { p with rules := a ++ b } name := by
  have hmem : s ∈ speaking { p with rules := a ++ b } name := mem_speaking.2 ⟨hs, happ⟩
  by_cases hr : r.appliesTo name = true
  · have hiff (t : ThreadRule) : t ∈ speaking { p with rules := a ++ r :: b } name ↔
        t = r ∨ t ∈ speaking { p with rules := a ++ b } name := by
      simp only [mem_speaking, List.mem_append, List.mem_cons]
      constructor
      · rintro ⟨ht | rfl | ht, happ⟩
        · exact .inr ⟨.inl ht, happ⟩
        · exact .inl rfl
        · exact .inr ⟨.inr ht, happ⟩
      · rintro (rfl | ⟨ht | ht, happ⟩)
        · exact ⟨.inr (.inl rfl), hr⟩
        · exact ⟨.inl ht, happ⟩
        · exact ⟨.inr (.inr ht), happ⟩
    refine decides_congr rfl ?_ fun t => ?_
    · exact ⟨fun h => absurd ((hiff s).2 (.inr hmem)) (h ▸ List.not_mem_nil),
        fun h => absurd hmem (h ▸ List.not_mem_nil)⟩
    · simp only [Foremost, hiff]
      constructor
      · rintro ⟨rfl | ht, hall⟩
        · exact absurd (hall s (.inr hmem)) (by omega)
        · exact ⟨ht, fun u hu => hall u (.inr hu)⟩
      · rintro ⟨ht, hall⟩
        refine ⟨.inr ht, ?_⟩
        rintro u (rfl | hu)
        · exact Nat.le_trans (Nat.le_of_lt hlt) (hall s hmem)
        · exact hall u hu
  · exact decides_insert_of_silent (Bool.eq_false_iff.2 hr)

/-! ## Decisions -/

/-- A decision does not depend on the order of the rules. Without an applying rule it is the
default, and otherwise it is for a task exactly if all foremost rules are, of which there are some.
Rules without a valid pattern, rules that do not apply, and rules that are less specific than an
applying one change nothing, wherever they stand. -/
theorem decides_declarative (p : ThreadPolicy) (name : String) :
    (∀ rules, rules.Perm p.rules →
      decides { p with rules } name = p.decides name) ∧
    ((∀ r ∈ p.rules, r.appliesTo name = false) → p.decides name = p.enabled) ∧
    ((∃ r ∈ p.rules, r.appliesTo name = true) →
      (∃ r, p.Foremost name r) ∧
        (p.decides name = true ↔ ∀ r, p.Foremost name r → r.asTask = true)) ∧
    ∀ a b r, p.rules = a ++ b →
      (r.error?.isSome = true ∨ r.appliesTo name = false ∨
        ∃ s ∈ p.rules, s.appliesTo name = true ∧ r.specificity < s.specificity) →
      decides { p with rules := a ++ r :: b } name = p.decides name := by
  refine ⟨fun rules h => ?_, fun h => ?_, fun ⟨r, hr, happ⟩ => ?_, fun a b r hab h => ?_⟩
  · refine decides_eq_of_mem_iff rfl fun r => ?_
    simp only [mem_speaking, h.mem_iff]
  · refine decides_of_speaking_eq_nil (List.filter_eq_nil_iff.2 fun r hr => ?_)
    simp [h r hr]
  · have hne := List.ne_nil_of_mem (mem_speaking.2 ⟨hr, happ⟩)
    exact ⟨exists_foremost hne, decides_iff hne⟩
  · have hp : p = { p with rules := a ++ b } := by rw [← hab]
    conv_rhs => rw [hp]
    rcases h with h | h | ⟨s, hs, happ, hlt⟩
    · exact decides_insert_of_silent (ThreadRule.appliesTo_eq_false h name)
    · exact decides_insert_of_silent h
    · exact decides_insert_of_lt (hab ▸ hs) happ hlt

/-- Rules for and against `ab`, one of them twice, and one that is no pattern. -/
def quarrel : ThreadPolicy :=
  ⟨true, [⟨"a*", true⟩, ⟨"ab", true⟩, ⟨"ab", true⟩, ⟨"ab", false⟩, ⟨"[", true⟩]⟩

/-- The two foremost rules disagree in another order as in this one, and a rule for one character
more or less changes nothing; without rules the default stands. -/
theorem decides_declarative_quarrel :
    quarrel.decides "ab" = false ∧
    [⟨"ab", true⟩, ⟨"[", true⟩, ⟨"a*", true⟩, ⟨"ab", false⟩, ⟨"ab", true⟩].Perm quarrel.rules ∧
    decides ⟨true, [⟨"ab", true⟩, ⟨"[", true⟩, ⟨"a*", true⟩, ⟨"ab", false⟩, ⟨"ab", true⟩]⟩ "ab" =
      false ∧
    decides ⟨true, [⟨"a*", true⟩, ⟨"ab", true⟩, ⟨"?", true⟩, ⟨"ab", true⟩, ⟨"ab", false⟩,
      ⟨"[", true⟩]⟩ "ab" = false ∧
    decides ⟨true, []⟩ "ab" = true := by
  have hperm : [⟨"ab", true⟩, ⟨"[", true⟩, ⟨"a*", true⟩, ⟨"ab", false⟩, ⟨"ab", true⟩].Perm
      quarrel.rules := by decide
  have hmem : ⟨"ab", false⟩ ∈ quarrel.rules := by decide
  have happ : (⟨"ab", false⟩ : ThreadRule).appliesTo "ab" = true := by cbv
  have hle : ∀ s ∈ quarrel.rules, s.specificity ≤ 2 := by decide
  have hforemost : quarrel.Foremost "ab" ⟨"ab", false⟩ :=
    ⟨mem_speaking.2 ⟨hmem, happ⟩, fun s hs => hle s (mem_speaking.1 hs).1⟩
  obtain ⟨horder, -, hmeaning, hinsert⟩ := decides_declarative quarrel "ab"
  have hfalse : quarrel.decides "ab" = false := Bool.eq_false_iff.2 fun h =>
    Bool.false_ne_true ((hmeaning ⟨_, hmem, happ⟩).2.1 h _ hforemost)
  refine ⟨hfalse, hperm, (horder _ hperm).trans hfalse, ?_, ?_⟩
  · refine (hinsert [⟨"a*", true⟩, ⟨"ab", true⟩] _ ⟨"?", true⟩ rfl ?_).trans hfalse
    exact .inr (.inr ⟨_, hmem, happ, by decide⟩)
  · exact (decides_declarative ⟨true, []⟩ "ab").2.1 (by simp)

end ThreadPolicy

end GreenThreads
