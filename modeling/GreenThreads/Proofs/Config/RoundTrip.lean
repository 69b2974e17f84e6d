import GreenThreads.Config.Text
import GreenThreads.Proofs.Toml.Lines

/-!
# Written configurations are read back

A valid configuration can be written exactly if all its numbers are within the range of TOML, and
what is written is read as the same configuration, whatever the patterns of its rules look like.
-/

namespace GreenThreads.Config

open Toml (Draft Entries Header Line Value)

variable {c : Config} {d : Draft} {es policy : Entries} {r : ThreadRule} {rules : List ThreadRule}

/-! ## The lines -/

/-- The lines before the first header. -/
def settings (c : Config) : List Line :=
  [.nat "worker_threads" c.workers, .nat "carrier_cache_size" c.carrierCache,
    .nat "global_cache_size" c.globalCache, .nat "steal_retry" c.stealRetry,
    .nat "push_retry" c.pushRetry, .string "policy" c.placement.text,
    .bool "high_precision_timer" c.preciseTimer, .nat "min_park_nanos" c.minPark,
    .nat "stack_size" c.stackSize]

/-- The line below the header of the thread policy. -/
def enabledLine (b : Bool) : Line := .bool "enabled" b

/-- The line that says that there are no rules. -/
def noRulesLine : Line := ⟨"rules", ['[', ']'], .array []⟩

/-- The lines of a rule. -/
def ruleLines (r : ThreadRule) : List Line :=
  [.string "pattern" r.pattern, .bool "as_task" r.asTask]

theorem good_settings (h : ∀ n ∈ c.numbers, n ≤ maxWritten) : ∀ l ∈ c.settings, l.Good := by
  simp only [numbers, List.forall_mem_cons, List.not_mem_nil, false_implies, implies_true,
    and_true] at h
  obtain ⟨hworkers, hcarrier, hglobal, hsteal, hpush, hpark, hstack⟩ := h
  simp only [settings, List.forall_mem_cons, List.not_mem_nil, false_implies, implies_true,
    and_true]
  exact ⟨Line.good_nat (by decide) hworkers, Line.good_nat (by decide) hcarrier,
    Line.good_nat (by decide) hglobal, Line.good_nat (by decide) hsteal,
    Line.good_nat (by decide) hpush, Line.good_string (by decide) _,
    Line.good_bool (by decide) _, Line.good_nat (by decide) hpark,
    Line.good_nat (by decide) hstack⟩

theorem good_enabledLine (b : Bool) : ∀ l ∈ [enabledLine b], l.Good :=
  List.forall_mem_singleton.mpr (Line.good_bool (by decide) b)

theorem good_policyLines (b : Bool) : ∀ l ∈ [enabledLine b, noRulesLine], l.Good :=
  List.forall_mem_cons.mpr ⟨Line.good_bool (by decide) b,
    List.forall_mem_singleton.mpr ⟨by decide, Toml.shows_empty⟩⟩

theorem good_ruleLines (r : ThreadRule) : ∀ l ∈ ruleLines r, l.Good := by
  simp only [ruleLines, List.forall_mem_cons, List.not_mem_nil, false_implies, implies_true,
    and_true]
  exact ⟨Line.good_string (by decide) _, Line.good_bool (by decide) _⟩

theorem writeSettings_eq (c : Config) : c.writeSettings = c.settings.flatMap Line.write := by
  simp [writeSettings, settings, Line.write, Line.nat, Line.bool, Line.string]

theorem writeRule_eq (r : ThreadRule) : writeRule r =
    Toml.writeHeader "[[thread_as_task.rules]]" ++ (ruleLines r).flatMap Line.write := by
  simp [writeRule, ruleLines, Line.write, Line.bool, Line.string]

theorem keys_settings (c : Config) : c.settings.map (·.key) =
    ["worker_threads", "carrier_cache_size", "global_cache_size", "steal_retry", "push_retry",
      "policy", "high_precision_timer", "min_park_nanos", "stack_size"] := rfl

/-! ## The document -/

/-- The name of the table that the thread policy is written in. -/
def policyKey : String := "thread_as_task"

/-- What a document says that has the settings, and these entries below the header of the policy. -/
def entries (c : Config) (policy : Entries) : Entries :=
  c.settings.map Line.entry ++ [(policyKey, .table .header policy)]

theorem notMem_settings (c : Config) : policyKey ∉ (c.settings.map Line.entry).map (·.1) := by
  rw [List.map_map, show c.settings.map ((·.1) ∘ Line.entry) = c.settings.map (·.key) from rfl,
    keys_settings]
  decide

/-- The table of a rule. -/
def ruleTable (r : ThreadRule) : Value := .table .header ((ruleLines r).map Line.entry)

/-- What stands below the header of the policy, once it is enabled or not and some rules are
written. -/
def policyEntries (enabled : Bool) : List ThreadRule → Entries
  | [] => [(enabledLine enabled).entry]
  | rules => [(enabledLine enabled).entry, ("rules", .tables (rules.map ruleTable))]

theorem modifyAt_entries (f : Entries → Option Entries) :
    Toml.modifyAt [policyKey] f (c.entries policy) = (f policy).map c.entries := by
  have hnot := c.notMem_settings
  rw [entries, Toml.modifyAt, Entries.get?_concat hnot]
  simp only [Toml.modifyAt, Entries.replace_concat hnot]
  rfl

/-- The draft below the header of a rule, with some rules before it. -/
def ruleDraft (c : Config) (enabled : Bool) (rules : List ThreadRule) (current : Entries) :
    Draft where
  root := c.entries [(enabledLine enabled).entry, ("rules", .tables (rules.map ruleTable))]
  header := some ⟨[policyKey], "rules", true⟩
  current := current

theorem openTable_rule {enabled : Bool}
    (hd : d.close = some (c.entries (policyEntries enabled rules))) :
    d.openTable ⟨[policyKey], "rules", true⟩ = some (c.ruleDraft enabled rules []) := by
  rw [Draft.openTable, hd, Option.bind_some, if_pos rfl, Draft.openCollected, modifyAt_entries]
  cases rules <;> rfl

theorem close_ruleDraft (c : Config) (enabled : Bool) (rules : List ThreadRule) (r : ThreadRule) :
    (c.ruleDraft enabled rules ((ruleLines r).map Line.entry)).close =
      some (c.entries (policyEntries enabled (rules ++ [r]))) := by
  have hentries : policyEntries enabled (rules ++ [r]) = [(enabledLine enabled).entry,
      ("rules", .tables (rules.map ruleTable ++ [ruleTable r]))] := by
    cases rules <;> simp [policyEntries]
  rw [hentries, ruleDraft, Draft.close]
  dsimp only
  rw [modifyAt_entries]
  rfl

/-- The lines of a rule add it to the rules before it. -/
theorem takes_rule {enabled : Bool}
    (hd : d.close = some (c.entries (policyEntries enabled rules))) (r : ThreadRule) :
    ∃ d', d.Takes (writeRule r) d' ∧
      d'.close = some (c.entries (policyEntries enabled (rules ++ [r]))) := by
  have hheader := Draft.takes_collects (by decide) (by decide) (openTable_rule hd)
  have hlines := Draft.takes_lines (d := c.ruleDraft enabled rules []) (good_ruleLines r)
    (show ["pattern", "as_task"].Nodup by decide)
  refine ⟨_, ?_, c.close_ruleDraft enabled rules r⟩
  rw [writeRule_eq]
  exact hheader.append hlines

/-- So do the lines of more rules. -/
theorem takes_rules {enabled : Bool} {before : List ThreadRule}
    (hd : d.close = some (c.entries (policyEntries enabled before))) (rules : List ThreadRule) :
    ∃ d', d.Takes (rules.flatMap writeRule) d' ∧
      d'.close = some (c.entries (policyEntries enabled (before ++ rules))) := by
  induction rules generalizing d before with
  | nil => exact ⟨d, .refl d, by rwa [List.append_nil]⟩
  | cons r rules ih =>
      obtain ⟨d', hrule, hd'⟩ := takes_rule hd r
      obtain ⟨d'', hrules, hd''⟩ := ih hd'
      exact ⟨d'', hrule.append hrules, by rwa [List.append_assoc] at hd''⟩

/-- What the rules are written as. -/
def rulesValue : List ThreadRule → Value
  | [] => .array []
  | rules => .tables (rules.map ruleTable)

/-- What the text of a configuration says. -/
def written (c : Config) : Entries :=
  c.entries [(enabledLine c.threadPolicy.enabled).entry, ("rules", rulesValue c.threadPolicy.rules)]

/-- The draft below the header of the thread policy. -/
def policyDraft (c : Config) (current : Entries) : Draft where
  root := c.settings.map Line.entry
  header := some ⟨[], policyKey, false⟩
  current := current

theorem close_policyDraft (c : Config) (current : Entries) :
    (c.policyDraft current).close = some (c.entries current) := rfl

theorem takes_policy (h : ∀ n ∈ c.numbers, n ≤ maxWritten) :
    Draft.Takes {} (c.writeSettings ++ Toml.writeHeader "[thread_as_task]") (c.policyDraft []) := by
  have hsettings := Draft.takes_lines (d := {}) (good_settings h) (by
    rw [keys_settings]
    decide)
  have hopen : Draft.openTable { current := c.settings.map Line.entry } ⟨[], policyKey, false⟩ =
      some (c.policyDraft []) := by
    have hnone := Entries.get?_eq_none c.notMem_settings
    show Draft.openSingle (c.settings.map Line.entry) ⟨[], policyKey, false⟩ = _
    simp [Draft.openSingle, Toml.modifyAt, Draft.reach?, hnone, policyDraft]
  rw [writeSettings_eq]
  exact hsettings.append (Draft.takes_single (by decide) hopen)

theorem write_eq (c : Config) : c.write =
    (c.writeSettings ++ Toml.writeHeader "[thread_as_task]") ++
      ((enabledLine c.threadPolicy.enabled).write ++ writeRules c.threadPolicy.rules) := by
  simp [write, Line.write, enabledLine, Line.bool]

theorem exists_takes_write (h : ∀ n ∈ c.numbers, n ≤ maxWritten) :
    ∃ d, Draft.Takes {} c.write d ∧ d.close = some c.written := by
  have hpolicy := takes_policy h
  rw [write_eq, written]
  cases c.threadPolicy.rules with
  | nil =>
      have hlines := Draft.takes_lines (d := c.policyDraft [])
        (good_policyLines c.threadPolicy.enabled) (show ["enabled", "rules"].Nodup by decide)
      exact ⟨_, hpolicy.append hlines, c.close_policyDraft _⟩
  | cons r rules =>
      have henabled := Draft.takes_lines (d := c.policyDraft [])
        (good_enabledLine c.threadPolicy.enabled) (show ["enabled"].Nodup by decide)
      have hclose := c.close_policyDraft (policyEntries c.threadPolicy.enabled [])
      rw [List.flatMap_singleton] at henabled
      obtain ⟨d, hrules, hd⟩ := takes_rules hclose (r :: rules)
      exact ⟨d, hpolicy.append (henabled.append hrules), hd⟩

theorem readDocument_write (h : ∀ n ∈ c.numbers, n ≤ maxWritten) :
    Toml.readDocument (String.ofList c.write) = some c.written := by
  obtain ⟨d, htakes, hd⟩ := exists_takes_write h
  have hmark : c.write.head? = some 'w' := rfl
  rw [htakes.readDocument (by rw [hmark]; decide), hd]

/-! ## The configuration -/

theorem ruleOf_ruleTable (r : ThreadRule) : ruleOf (ruleTable r) = .ok r := rfl

theorem rulesOf_rulesValue (rules : List ThreadRule) : rulesOf (rulesValue rules) = .ok rules := by
  have hmap : ∀ rules : List ThreadRule, (rules.map ruleTable).mapM ruleOf = .ok rules := by
    intro rules
    induction rules with
    | nil => rfl
    | cons r rules ih =>
        rw [List.map_cons, List.mapM_cons, ruleOf_ruleTable, ih]
        rfl
  cases rules with
  | nil => rfl
  | cons r rules => exact hmap (r :: rules)

theorem natOf_natCast (wanted : String) (n : Nat) : natOf wanted (.integer n) = .ok n := by
  rw [natOf, if_neg (by omega), Int.toNat_natCast]

theorem placementOf_text (p : Placement) : placementOf (.string p.text) = .ok p := by
  cases p <;> rfl

theorem policyOf_written (p : ThreadPolicy) :
    policyOf (.table .header [(enabledLine p.enabled).entry, ("rules", rulesValue p.rules)]) =
      .ok p := by
  show (rulesOf (rulesValue p.rules)).map _ >>= pure = _
  rw [rulesOf_rulesValue]
  rfl

theorem ofEntries_entries (h : policyOf (.table .header policy) = .ok c.threadPolicy) :
    ofEntries (c.entries policy) = .ok c := by
  simp only [ofEntries, entries, settings, List.map_cons, List.map_nil, List.cons_append,
    List.nil_append, Line.entry, Line.nat, Line.bool, Line.string, policyKey, List.foldlM_cons,
    List.foldlM_nil, configField, sizeOf, natOf_natCast, placementOf_text, boolOf, h]
  rfl

theorem toText_eq_ok_iff {text : String} : c.toText = .ok text ↔
    (∀ n ∈ c.numbers, n ≤ maxWritten) ∧ String.ofList c.write = text := by
  have hall : c.numbers.all (· ≤ maxWritten) = true ↔ ∀ n ∈ c.numbers, n ≤ maxWritten := by
    simp only [List.all_eq_true, decide_eq_true_eq]
  rw [toText, ← hall]
  split
  · next h => simp only [h, true_and, Except.ok.injEq]
  · next h => simp only [h, false_and, reduceCtorEq]

/-- A valid configuration can be written exactly if all its numbers are within the range of TOML,
and what is written is read as that configuration. -/
theorem text_roundtrip (hvalid : c.validate = .ok ()) :
    ((∃ text, c.toText = .ok text) ↔
      ∀ n ∈ [c.workers, c.carrierCache, c.globalCache, c.stealRetry, c.pushRetry, c.minPark,
        c.stackSize], (n : Int) ≤ Int64.maxValue.toInt) ∧
    ∀ text, c.toText = .ok text → ofText text = .ok c := by
  have hmax : Int64.maxValue.toInt = ((maxWritten : Nat) : Int) := by decide
  refine ⟨?_, fun text htext => ?_⟩
  · simp only [hmax, Int.ofNat_le]
    exact ⟨fun ⟨_, htext⟩ => (toText_eq_ok_iff.mp htext).1,
      fun hnumbers => ⟨_, toText_eq_ok_iff.mpr ⟨hnumbers, rfl⟩⟩⟩
  · obtain ⟨hnumbers, rfl⟩ := toText_eq_ok_iff.mp htext
    have hentries : ofEntries c.written = .ok c :=
      ofEntries_entries (policyOf_written c.threadPolicy)
    rw [ofText, readDocument_write hnumbers]
    simp only [hentries, hvalid]
    rfl

/-- Patterns with both kinds of quotes, a backslash, a line end and a carriage return. -/
theorem text_roundtrip_quotes :
    ∃ (c : Config) (text : String),
      c.threadPolicy.rules.map (·.pattern) = ["it's \"", "\\'\n''\"\"\"\r", "\n\"\""] ∧
      c.validate = .ok () ∧ c.toText = .ok text ∧ ofText text = .ok c := by
  have hvalid : validate { threadPolicy := { rules := [⟨"it's \"", true⟩,
      ⟨"\\'\n''\"\"\"\r", false⟩, ⟨"\n\"\"", true⟩] } } = .ok () := by
    simp [validate, ThreadPolicy.validate, ThreadRule.error?, Glob.parse, Glob.parseFrom,
      ConfigFault.maxWorkers, ConfigFault.minStack]
  obtain ⟨htext, hread⟩ := text_roundtrip hvalid
  obtain ⟨text, heq⟩ := htext.mpr (by decide)
  exact ⟨_, text, rfl, hvalid, heq, hread text heq⟩

end GreenThreads.Config
