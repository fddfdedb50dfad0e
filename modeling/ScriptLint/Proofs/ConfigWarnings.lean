import Mathlib.Data.List.Nodup
import ScriptLint.Config
import ScriptLint.Proofs.TableKeys

/-!
# Warnings about settings

A document of settings is looked at twice: once for the settings, once for the warnings. Both pass
over the same things. An entry about the severity of a rule is in the settings exactly if no warning
is given about it, and a key has a warning exactly if it means nothing.

The keys of a document are distinct, so sorting its entries only moves them. This is why there is
one warning for each thing that is passed over, and no other.

## Main definitions

* `Remark` — what a warning is about, and its text
* `Remark.Due` — a document gives rise to a remark

## Main results

* `Toml.sortedEntries_perm` — sorting moves entries
* `Config.ensures_ofTable` — where the severities of rules come from
* `Config.warnings_perm` — the warnings of a table
* `Config.parse_exact` — nothing in a document is passed over without a warning
-/

namespace ScriptLint

open Toml

/-! ## Sorting -/

namespace Toml

variable {entries : List (String × Value)}

/-- An entry of a new key is added. -/
theorem insertEntry_perm {entry : String × Value} (h : entry.1 ∉ entries.map Prod.fst) :
    (insertEntry entry entries).Perm (entry :: entries) := by
  induction entries with
  | nil => exact .refl _
  | cons e more ih =>
    rw [List.map_cons, List.mem_cons, not_or] at h
    rw [insertEntry, if_neg (Ne.symm h.1)]
    split
    · exact .refl _
    · exact ((ih h.2).cons e).trans (.swap entry e more)

/-- **Sorting moves entries** if their keys are distinct. -/
theorem sortedEntries_perm (h : (entries.map Prod.fst).Nodup) :
    (sortedEntries entries).Perm entries := by
  -- The entries that come first are sorted already.
  have hfold : ∀ more sorted : List (String × Value),
      ((sorted ++ more).map Prod.fst).Nodup →
        (more.foldl (fun sorted e => insertEntry e sorted) sorted).Perm (sorted ++ more) := by
    intro more
    induction more with
    | nil =>
      intro sorted _
      rw [List.append_nil]
      exact .refl _
    | cons e more ih =>
      intro sorted hnodup
      have hmiddle : (sorted ++ e :: more).Perm (e :: sorted ++ more) := List.perm_middle
      have hnodup' := (hmiddle.map Prod.fst).nodup_iff.mp hnodup
      rw [List.cons_append, List.map_cons, List.nodup_cons, List.map_append, List.mem_append,
        not_or] at hnodup'
      have hinsert := (insertEntry_perm hnodup'.1.1).append_right more
      exact (ih _ (((hinsert.trans hmiddle.symm).map Prod.fst).nodup_iff.mpr hnodup)).trans
        (hinsert.trans hmiddle.symm)
  exact hfold entries [] h

/-- A key of a table with distinct keys stands for its entry. -/
theorem lookup_eq_some_iff_mem {key : String} {v : Value} (h : (entries.map Prod.fst).Nodup) :
    entries.lookup key = some v ↔ (key, v) ∈ entries := by
  refine ⟨mem_of_lookup, fun hmem => ?_⟩
  obtain ⟨before, after, rfl⟩ := List.append_of_mem hmem
  refine List.lookup_eq_some_iff.mpr ⟨before, after, rfl, fun e he => ?_⟩
  rw [List.map_append, List.nodup_append] at h
  have hne := h.2.2 e.1 (List.mem_map_of_mem he) key (by simp)
  simpa using Ne.symm hne

end Toml

theorem Config.insertText_perm (s : String) (texts : List String) :
    (Config.insertText s texts).Perm (s :: texts) := by
  induction texts with
  | nil => exact .refl _
  | cons t more ih =>
    rw [Config.insertText]
    split
    · exact (ih.cons t).trans (.swap s t more)
    · exact .refl _

theorem Config.foldr_insertText_perm (texts : List String) :
    (texts.foldr Config.insertText []).Perm texts := by
  induction texts with
  | nil => exact .refl _
  | cons s texts ih => exact (Config.insertText_perm s _).trans (ih.cons s)

/-! ## Severities of rules -/

theorem Severity.ofName?_eq_some_iff {name : String} {s : Severity} :
    ofName? name = some s ↔ name = s.name := by
  constructor
  · intro h
    have hname := List.find?_some h
    exact (beq_iff_eq.mp hname).symm
  · rintro rfl
    cases s <;> decide

/-- The name of a severity is neither a date nor a time. -/
theorem Severity.ofName?_eq_none {written : String}
    (h : '-' ∈ written.toList ∨ ':' ∈ written.toList) : ofName? written = none := by
  rw [Option.eq_none_iff_forall_not_mem]
  intro s hs
  rw [ofName?_eq_some_iff.mp hs] at h
  revert h
  cases s <;> decide

namespace Toml.Value

theorem severity?_eq_some_iff {v : Value} {s : Severity} :
    v.severity? = some s ↔ v = .text s.name := by
  cases v with
  | text t => simp [severity?, Severity.ofName?_eq_some_iff]
  | _ => simp [severity?]

theorem getOverrides_table (entries : List (String × Value)) : (table entries).getOverrides =
    .ok ((sortedEntries entries).filterMap fun e => e.2.severity?.map fun s => (e.1, s)) :=
  rfl

/-- The rules with a severity are some of the keys. -/
theorem map_fst_filterMap_sublist (entries : List (String × Value)) :
    ((entries.filterMap fun e => e.2.severity?.map fun s => (e.1, s)).map Prod.fst).Sublist
      (entries.map Prod.fst) := by
  induction entries with
  | nil => exact .slnil
  | cons e entries ih =>
    rw [List.filterMap_cons, List.map_cons]
    cases e.2.severity? with
    | none => exact ih.cons e.1
    | some s => exact ih.cons_cons e.1

/-- The severities of rules are those that the entries of a table name. -/
theorem ensures_getOverrides {v : Value} (hv : v.WellFormed) :
    Ensures (fun o => (o.map Prod.fst).Nodup ∧ ∀ rule s, (rule, s) ∈ o ↔
      ∃ inner, v = .table inner ∧ (rule, .text s.name) ∈ inner) v.getOverrides := by
  cases hv with
  | text => exact .error _
  | integer => exact .error _
  | real => exact .error _
  | bool => exact .error _
  | list => exact .error _
  | @moment written h =>
    -- A date or time counts as a table, but its only entry names no severity.
    have hnone : (text written).severity? = none := Severity.ofName?_eq_none h
    refine .ok ?_
    simp [sortedEntries, insertEntry, hnone]
  | @table entries hkeys h =>
    have hsorted := sortedEntries_perm hkeys
    rw [getOverrides_table]
    refine .ok ⟨?_, fun rule s => ?_⟩
    · exact ((hsorted.map Prod.fst).nodup_iff.mpr hkeys).sublist (map_fst_filterMap_sublist _)
    · simp only [List.mem_filterMap, Option.map_eq_some_iff, Prod.mk.injEq, severity?_eq_some_iff,
        Value.table.injEq, exists_eq_left', hsorted.mem_iff]
      constructor
      · rintro ⟨e, he, s', hs', rfl, rfl⟩
        rwa [← hs']
      · exact fun hmem => ⟨_, hmem, s, rfl, rfl, rfl⟩

end Toml.Value

namespace Config

/-- An entry leaves the severities of rules as they are, unless they are what it is about. -/
theorem ensures_readEntry (c : Config) (entry : String × Value) :
    Ensures (fun c' => (entry.1 ≠ "severity_overrides" → c'.overrides = c.overrides) ∧
      (entry.1 = "severity_overrides" → entry.2.getOverrides = .ok c'.overrides))
      (readEntry c entry) := by
  rw [readEntry]
  split
  · next hkey => exact .skip fun _ => .ok ⟨fun _ => rfl, by simp [hkey]⟩
  · next hkey => exact .skip fun _ => .ok ⟨fun _ => rfl, by simp [hkey]⟩
  · next hkey => exact .skip fun _ => .ok ⟨fun _ => rfl, by simp [hkey]⟩
  · next hkey => exact .skip fun _ => .ok ⟨fun _ => rfl, by simp [hkey]⟩
  · next hkey => exact .skip fun _ => .ok ⟨fun _ => rfl, by simp [hkey]⟩
  · next hkey => exact .skip fun _ => .ok ⟨fun _ => rfl, by simp [hkey]⟩
  · next hkey =>
    have hread : Ensures (fun o => entry.2.getOverrides = .ok o) entry.2.getOverrides :=
      fun o h => h
    exact hread.bind fun o h => .ok ⟨fun hne => absurd hkey hne, fun _ => h⟩
  · next hkey => exact .ok ⟨fun _ => rfl, fun h => absurd h hkey⟩

/-- The severities of rules that a table of distinct keys sets. -/
theorem ensures_foldlM_readEntry {entries : List (String × Value)}
    (hkeys : (entries.map Prod.fst).Nodup) (c : Config) :
    Ensures (fun c' => (∀ v, ("severity_overrides", v) ∈ entries →
        v.getOverrides = .ok c'.overrides) ∧
      ("severity_overrides" ∉ entries.map Prod.fst → c'.overrides = c.overrides))
      (entries.foldlM readEntry c) := by
  induction entries generalizing c with
  | nil => exact .ok ⟨nofun, fun _ => rfl⟩
  | cons e entries ih =>
    rw [List.map_cons, List.nodup_cons] at hkeys
    rw [List.foldlM_cons]
    refine (ensures_readEntry c e).bind fun c₁ hfirst => ?_
    intro c' hrun
    obtain ⟨hmem, hnotMem⟩ := ih hkeys.2 c₁ c' hrun
    refine ⟨fun v hv => ?_, fun hkey => ?_⟩
    · obtain rfl | hv := List.mem_cons.mp hv
      · -- The key does not come again.
        rw [hnotMem hkeys.1]
        exact hfirst.2 rfl
      · exact hmem v hv
    · rw [List.map_cons, List.mem_cons, not_or] at hkey
      exact (hnotMem hkey.2).trans (hfirst.1 (Ne.symm hkey.1))

/-- **The severities of rules** are those that the entries of their table name. -/
theorem ensures_ofTable {entries : List (String × Value)} (h : (Value.table entries).WellFormed) :
    Ensures (fun c => (c.overrides.map Prod.fst).Nodup ∧ ∀ rule s, (rule, s) ∈ c.overrides ↔
      ∃ inner, ("severity_overrides", .table inner) ∈ entries ∧ (rule, .text s.name) ∈ inner)
      (ofTable entries) := by
  cases h with | table hkeys h =>
  intro c hrun
  obtain ⟨hmem, hnotMem⟩ := ensures_foldlM_readEntry hkeys default c hrun
  by_cases hkey : "severity_overrides" ∈ entries.map Prod.fst
  · obtain ⟨e, he, hname⟩ := List.mem_map.mp hkey
    obtain ⟨name, v⟩ := e
    obtain rfl : name = "severity_overrides" := hname
    obtain ⟨hnodup, hiff⟩ := Value.ensures_getOverrides (h _ he) c.overrides (hmem v he)
    refine ⟨hnodup, fun rule s => (hiff rule s).trans (exists_congr fun inner => ?_)⟩
    refine and_congr_left fun _ => ?_
    rw [← lookup_eq_some_iff_mem hkeys, (lookup_eq_some_iff_mem hkeys).mpr he, Option.some_inj]
  · rw [hnotMem hkey]
    refine ⟨.nil, fun rule s => iff_of_false nofun ?_⟩
    rintro ⟨inner, hinner, -⟩
    exact hkey (List.mem_map_of_mem hinner)

end Config

/-! ## Warnings -/

/-- What a warning is about. -/
inductive Remark where
  | unknownKey (key : String)
  | unknownAstKey (key : String)
  | invalidSeverity (rule : String) (v : Value)

namespace Remark

/-- The text of a warning. -/
def text : Remark → String
  | unknownKey key => s!"Unknown config option: '{key}'"
  | unknownAstKey key => s!"Unknown config option in [ast]: '{key}'"
  | invalidSeverity rule v => s!"Ignoring invalid severity override for '{rule}': {v.print}"

/-- A document gives rise to a remark: it has a key that means nothing, or it sets a rule to what is
no severity. -/
def Due (entries : List (String × Value)) : Remark → Prop
  | unknownKey key => key ∈ entries.map Prod.fst ∧ key ∉ Config.knownKeys
  | unknownAstKey key => ∃ ast, ("ast", .table ast) ∈ entries ∧ key ∈ ast.map Prod.fst ∧
      key ≠ "enabled"
  | invalidSeverity rule v => ∃ inner, ("severity_overrides", .table inner) ∈ entries ∧
      (rule, v) ∈ inner ∧ ∀ s : Severity, v ≠ .text s.name

/-- The remarks on a document. -/
def all (entries : List (String × Value)) : List Remark :=
  ((entries.map Prod.fst).filter (!Config.knownKeys.contains ·)).map unknownKey ++
    (((Config.inner entries "ast").map Prod.fst).filter (!Config.knownAstKeys.contains ·)).map
      unknownAstKey ++
    ((Config.inner entries "severity_overrides").filter (·.2.severity?.isNone)).map
      fun e => invalidSeverity e.1 e.2

variable {entries : List (String × Value)}

theorem mem_inner_iff (hkeys : (entries.map Prod.fst).Nodup) {key : String} {e : String × Value} :
    e ∈ Config.inner entries key ↔ ∃ inner, (key, .table inner) ∈ entries ∧ e ∈ inner := by
  simp only [← lookup_eq_some_iff_mem hkeys]
  rw [Config.inner]
  cases entries.lookup key with
  | none => simp
  | some v => cases v <;> simp

theorem nodup_inner (h : (Value.table entries).WellFormed) (key : String) :
    ((Config.inner entries key).map Prod.fst).Nodup := by
  cases h with | table hkeys h =>
  rw [Config.inner]
  cases hlookup : entries.lookup key with
  | none => exact .nil
  | some v =>
    have hv := h _ (mem_of_lookup hlookup)
    cases hv with
    | table hinner => exact hinner
    | _ => exact .nil

/-- The remarks on a document are those that are due. -/
theorem mem_all_iff (hkeys : (entries.map Prod.fst).Nodup) {r : Remark} :
    r ∈ all entries ↔ r.Due entries := by
  cases r with
  | unknownKey key => simp [all, Due]
  | unknownAstKey key =>
    have hknown : ∀ key, (!Config.knownAstKeys.contains key) = true ↔ key ≠ "enabled" := by
      simp [Config.knownAstKeys]
    simp only [all, Due, List.mem_append, List.mem_map, List.mem_filter, mem_inner_iff hkeys,
      hknown]
    grind
  | invalidSeverity rule v =>
    have hnone : v.severity?.isNone = true ↔ ∀ s : Severity, v ≠ .text s.name := by
      simp [Option.eq_none_iff_forall_ne_some, Value.severity?_eq_some_iff]
    simp only [all, Due, List.mem_append, List.mem_map, List.mem_filter, mem_inner_iff hkeys]
    grind

/-- No remark is made twice. -/
theorem nodup_all (h : (Value.table entries).WellFormed) : (all entries).Nodup := by
  have hast := nodup_inner h "ast"
  have hoverrides : (Config.inner entries "severity_overrides").Nodup :=
    .of_map Prod.fst (nodup_inner h "severity_overrides")
  cases h with | table hkeys h =>
  refine List.nodup_append'.mpr ⟨List.nodup_append'.mpr ⟨?_, ?_, ?_⟩, ?_, ?_⟩
  · exact (hkeys.filter _).map fun _ _ => unknownKey.inj
  · exact (hast.filter _).map fun _ _ => unknownAstKey.inj
  · intro r h₁ h₂
    obtain ⟨key, -, rfl⟩ := List.mem_map.mp h₁
    obtain ⟨key', -, heq⟩ := List.mem_map.mp h₂
    cases heq
  · refine (hoverrides.filter _).map fun e e' heq => ?_
    exact Prod.ext (invalidSeverity.inj heq).1 (invalidSeverity.inj heq).2
  · intro r h₁ h₂
    obtain ⟨e, -, rfl⟩ := List.mem_map.mp h₂
    obtain h₁ | h₁ := List.mem_append.mp h₁
    · obtain ⟨key, -, heq⟩ := List.mem_map.mp h₁
      cases heq
    · obtain ⟨key, -, heq⟩ := List.mem_map.mp h₁
      cases heq

end Remark

namespace Config

theorem unknownKeys_perm (known : List String) {entries : List (String × Value)}
    (h : (entries.map Prod.fst).Nodup) :
    (unknownKeys known entries).Perm ((entries.map Prod.fst).filter (!known.contains ·)) :=
  ((sortedEntries_perm h).map _).filter _

/-- **The warnings of a table** are the texts of the remarks on it. -/
theorem warnings_perm {entries : List (String × Value)} (h : (Value.table entries).WellFormed) :
    (warnings entries).Perm ((Remark.all entries).map Remark.text) := by
  have hast := Remark.nodup_inner h "ast"
  have hoverrides := sortedEntries_perm (Remark.nodup_inner h "severity_overrides")
  cases h with | table hkeys h =>
  rw [warnings, Remark.all, List.map_append, List.map_append, List.map_map, List.map_map,
    List.map_map]
  refine (((unknownKeys_perm knownKeys hkeys).map _).append
    ((unknownKeys_perm knownAstKeys hast).map _)).append ?_
  exact (foldr_insertText_perm _).trans ((hoverrides.filter _).map _)

theorem ensures_parse (text : List Char) :
    Ensures (fun x => ∃ entries, Toml.parse text = .ok entries ∧ ofTable entries = .ok x.1 ∧
      x.2 = warnings entries) (parse text) := by
  refine Ensures.bind (Q := fun entries => Toml.parse text = .ok entries) (.mapError fun _ h => h)
    fun entries hentries => ?_
  exact Ensures.bind (Q := fun c => ofTable entries = .ok c) (.mapError fun _ h => h)
    fun c hc => .ok ⟨entries, hentries, hc, rfl⟩

/-- **Nothing in a document is passed over without a warning.** Where settings are read from a
document, its severities of rules are in them exactly if they are severities. Each other entry of
their table, each key that means nothing and each such key of the table `ast` has one warning, and
there are no other warnings. -/
theorem parse_exact {text : List Char} {c : Config} {ws : List String}
    (h : parse text = .ok (c, ws)) :
    ∃ (entries : List (String × Value)) (remarks : List Remark),
      Toml.parse text = .ok entries ∧
      remarks.Nodup ∧ (∀ r, r ∈ remarks ↔ r.Due entries) ∧ ws.Perm (remarks.map Remark.text) ∧
      (c.overrides.map Prod.fst).Nodup ∧
      (∀ rule s, (rule, s) ∈ c.overrides ↔
        ∃ inner, ("severity_overrides", .table inner) ∈ entries ∧ (rule, .text s.name) ∈ inner) ∧
      ∀ inner rule v, ("severity_overrides", .table inner) ∈ entries → (rule, v) ∈ inner →
        ((∃ s, v = .text s.name ∧ (rule, s) ∈ c.overrides) ∧
          .invalidSeverity rule v ∉ remarks) ∨
        ((∀ s, (rule, s) ∉ c.overrides) ∧ .invalidSeverity rule v ∈ remarks) := by
  obtain ⟨entries, hentries, hc, rfl⟩ := ensures_parse text (c, ws) h
  have hwellFormed := Toml.ensures_parse text entries hentries
  obtain ⟨hnodup, hmem⟩ := ensures_ofTable hwellFormed c hc
  have hperm := warnings_perm hwellFormed
  have hremarks := Remark.nodup_all hwellFormed
  cases hwellFormed with | table hkeys hvalues =>
  have hdue : ∀ r, r ∈ Remark.all entries ↔ r.Due entries := fun r => Remark.mem_all_iff hkeys
  refine ⟨entries, Remark.all entries, hentries, hremarks, hdue, hperm, hnodup, hmem, ?_⟩
  intro inner rule v hinner hv
  by_cases hseverity : ∃ s : Severity, v = .text s.name
  · obtain ⟨s, rfl⟩ := hseverity
    refine .inl ⟨⟨s, rfl, (hmem rule s).mpr ⟨inner, hinner, hv⟩⟩, fun hremark => ?_⟩
    obtain ⟨-, -, -, hnone⟩ := (hdue _).mp hremark
    exact hnone s rfl
  · rw [not_exists] at hseverity
    refine .inr ⟨fun s hs => ?_, (hdue _).mpr ⟨inner, hinner, hv, hseverity⟩⟩
    -- The table and its entry of this key are the only ones, so the severity is the entry's.
    obtain ⟨inner', hinner', hs⟩ := (hmem rule s).mp hs
    have htable := (lookup_eq_some_iff_mem hkeys).mpr hinner
    rw [(lookup_eq_some_iff_mem hkeys).mpr hinner'] at htable
    obtain rfl := Value.table.inj (Option.some.inj htable)
    cases hvalues _ hinner' with | table hkeys' _ =>
    have hentry := (lookup_eq_some_iff_mem hkeys').mpr hv
    rw [(lookup_eq_some_iff_mem hkeys').mpr hs] at hentry
    exact hseverity s (Option.some.inj hentry).symm

/-- Three entries of a document are passed over, and one is not. -/
theorem parse_exact_fourEntries :
    let text := "colour = 1\nast.x = 2\n[severity_overrides]\na = 'warn'\nb = 'loud'\n".toList
    let c := { default with overrides := [("a", .warn)] }
    let ws := ["Unknown config option: 'colour'", "Unknown config option in [ast]: 'x'",
      "Ignoring invalid severity override for 'b': \"loud\""]
    parse text = .ok (c, ws) ∧
      ∃ (entries : List (String × Value)) (remarks : List Remark),
        Toml.parse text = .ok entries ∧ remarks.Nodup ∧ (∀ r, r ∈ remarks ↔ r.Due entries) ∧
        ws.Perm (remarks.map Remark.text) ∧ remarks.length = 3 ∧
        ∃ inner, ("severity_overrides", .table inner) ∈ entries ∧ ("a", .text "warn") ∈ inner := by
  intro text c ws
  have h : parse text = .ok (c, ws) := by decide +kernel
  obtain ⟨entries, remarks, hentries, hnodup, hdue, hperm, -, hmem, -⟩ := parse_exact h
  have hlength : remarks.length = 3 := by simpa [ws] using hperm.length_eq.symm
  exact ⟨h, entries, remarks, hentries, hnodup, hdue, hperm, hlength,
    (hmem "a" .warn).mp (List.mem_singleton.mpr rfl)⟩

end Config

end ScriptLint
