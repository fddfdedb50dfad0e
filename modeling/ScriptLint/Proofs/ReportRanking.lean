import Mathlib.Data.Finset.Card
import Mathlib.Data.List.Induction
import ScriptLint.Proofs.Verdict

/-!
# What a report keeps and how it ranks rules

A report sorts twice: the issues by severity, and the rules by the number of their issues. Both
sorts are stable, so what counts as equal keeps the order that it had. For issues this is the order
in which they were found, and for rules the order in which they first appear among the issues that
are kept. So neither the issues that are kept nor the rules that are named at the limit are left to
chance.

## Main definitions

* `Outranks` — a rule comes before another one in a ranking

## Main results

* `pairwise_mergeSort_stable`, `filter_mergeSort` — a sort keeps the order of what is equal for it
* `bySeverity_eq` — the issues by severity are all errors, then all warnings, then all others
* `pairwise_ranking` — how rules are ranked
* `build_exact` — what a report holds
-/

namespace ScriptLint

/-! ## Stable sorts -/

section Stable

variable {α : Type} {le : α → α → Bool}
  (trans : ∀ a b c, le a b = true → le b c = true → le a c = true)
  (total : ∀ a b, (le a b || le b a) = true)

include trans total

/-- Of what a sort takes for equal, the order of the list is kept. -/
theorem pairwise_mergeSort_stable {R : α → α → Prop} {l : List α} (h : l.Pairwise R) :
    (l.mergeSort le).Pairwise fun a b => le a b = true ∧ (le b a = true → R a b) := by
  -- The sort is the one that compares places where `le` cannot tell two values apart.
  rw [← List.mergeSort_zipIdx, List.pairwise_map]
  have hsorted := List.pairwise_mergeSort (List.zipIdxLE_trans trans) (List.zipIdxLE_total total)
    l.zipIdx
  have hplaces : (l.zipIdx.mergeSort (List.zipIdxLE le)).Pairwise fun p q => p.2 ≠ q.2 := by
    have hperm := (List.mergeSort_perm l.zipIdx (List.zipIdxLE le)).map Prod.snd
    have hnodup : (l.zipIdx.map Prod.snd).Nodup := by
      rw [List.zipIdx_map_snd]
      exact List.nodup_range'
    exact List.pairwise_map.mp (hperm.nodup_iff.mpr hnodup)
  refine (hsorted.and hplaces).imp_of_mem fun {p q} hp hq hpq => ?_
  obtain ⟨hle, hne⟩ := hpq
  have hat := List.mk_mem_zipIdx_iff_getElem?.mp (List.mem_mergeSort.mp hp)
  have hat' := List.mk_mem_zipIdx_iff_getElem?.mp (List.mem_mergeSort.mp hq)
  rw [List.zipIdxLE] at hle
  by_cases hpq : le p.1 q.1 = true
  · refine ⟨hpq, fun hqp => ?_⟩
    rw [if_pos hpq, if_pos hqp, decide_eq_true_eq] at hle
    obtain ⟨hlt, hp'⟩ := List.getElem?_eq_some_iff.mp hat
    obtain ⟨hlt', hq'⟩ := List.getElem?_eq_some_iff.mp hat'
    rw [← hp', ← hq']
    exact List.pairwise_iff_getElem.mp h _ _ hlt hlt' (Nat.lt_of_le_of_ne hle hne)
  · rw [if_neg hpq] at hle
    cases hle

/-- A sort leaves what it takes for equal as it is. -/
theorem filter_mergeSort {p : α → Bool} (h : ∀ a b, p a = true → p b = true → le a b = true)
    (l : List α) : (l.mergeSort le).filter p = l.filter p := by
  have hequal : (l.filter p).Pairwise fun a b => le a b = true := by
    refine List.pairwise_of_forall_mem_list fun a ha b hb => ?_
    exact h a b (List.mem_filter.mp ha).2 (List.mem_filter.mp hb).2
  have hsub : (l.filter p).Sublist (l.mergeSort le) :=
    List.sublist_mergeSort trans total hequal List.filter_sublist
  have hkept : (l.filter p).Sublist ((l.mergeSort le).filter p) := by
    simpa using hsub.filter p
  refine (hkept.eq_of_length ?_).symm
  exact ((List.mergeSort_perm l le).filter p).length_eq.symm

end Stable

namespace Report

/-! ## Issues by severity -/

/-- Issues with the gravest first are all errors, then all warnings, then all others. -/
theorem eq_append_of_pairwise {issues : List Issue}
    (h : issues.Pairwise fun a b => b.severity.rank ≤ a.severity.rank) :
    issues = issues.filter (·.severity == .error) ++ issues.filter (·.severity == .warn) ++
      issues.filter (·.severity == .info) := by
  induction issues with
  | nil => rfl
  | cons i rest ih =>
    obtain ⟨hi, hrest⟩ := List.pairwise_cons.mp h
    have hnone : ∀ severity : Severity, i.severity.rank < severity.rank →
        rest.filter (·.severity == severity) = [] := by
      intro severity hlt
      refine List.filter_eq_nil_iff.mpr fun j hj heq => ?_
      have := hi j hj
      rw [eq_of_beq heq] at this
      omega
    have hparts := ih hrest
    cases hs : i.severity with
    | error => simpa [hs] using hparts
    | warn =>
      have herror := hnone .error (by rw [hs]; decide)
      simpa [hs, herror] using hparts
    | info =>
      have herror := hnone .error (by rw [hs]; decide)
      have hwarn := hnone .warn (by rw [hs]; decide)
      simpa [hs, herror, hwarn] using hparts

/-- **The issues by severity** are all errors, then all warnings, then all others, each in the order
that they had. -/
theorem bySeverity_eq (issues : List Issue) :
    bySeverity issues = issues.filter (·.severity == .error) ++
      issues.filter (·.severity == .warn) ++ issues.filter (·.severity == .info) := by
  have hfilter : ∀ severity : Severity, (bySeverity issues).filter (·.severity == severity) =
      issues.filter (·.severity == severity) := by
    intro severity
    refine filter_mergeSort (fun a b c hab hbc => ?_) (fun a b => ?_) (fun a b ha hb => ?_) issues
    · simp only [decide_eq_true_eq] at *
      omega
    · simp only [Bool.or_eq_true, decide_eq_true_eq]
      omega
    · rw [eq_of_beq ha, eq_of_beq hb]
      exact decide_eq_true (Nat.le_refl _)
  rw [← hfilter .error, ← hfilter .warn, ← hfilter .info]
  exact eq_append_of_pairwise (pairwise_bySeverity issues)

/-- Sorting what a report keeps changes nothing. -/
theorem bySeverity_kept (issues : List Issue) (limit : Nat) :
    bySeverity ((bySeverity issues).take limit) = (bySeverity issues).take limit := by
  have hsorted := (pairwise_bySeverity issues).sublist (List.take_sublist limit _)
  exact List.mergeSort_of_pairwise (hsorted.imp decide_eq_true)

theorem total_ofIssues (issues : List Issue) : (Counts.ofIssues issues).total = issues.length := by
  induction issues with
  | nil => rfl
  | cons i rest ih =>
    simp only [Counts.total, Counts.ofIssues] at ih ⊢
    cases hs : i.severity <;> simp [hs] <;> omega

/-! ## Ranks of rules -/

/-- The values of a list without repetitions come in the order in which they first appear in it. -/
theorem pairwise_eraseDups (ids : List String) :
    ids.eraseDups.Pairwise fun a b => ids.idxOf a < ids.idxOf b := by
  induction ids using List.reverseRecOn with
  | nil => exact .nil
  | append_singleton ids id ih =>
    -- The places of what stands in `ids` already do not change.
    have hearlier : ids.eraseDups.Pairwise fun a b =>
        (ids ++ [id]).idxOf a < (ids ++ [id]).idxOf b := by
      refine ih.imp_of_mem fun ha hb hlt => ?_
      rw [List.idxOf_append_of_mem (List.mem_eraseDups.mp ha),
        List.idxOf_append_of_mem (List.mem_eraseDups.mp hb)]
      exact hlt
    rw [List.eraseDups_append]
    by_cases hid : id ∈ ids
    · simpa [List.removeAll, hid] using hearlier
    · have hnew : ([id].removeAll ids).eraseDups = [id] := by
        simp [List.removeAll, hid, List.eraseDups_cons]
      rw [hnew, List.pairwise_append]
      refine ⟨hearlier, List.pairwise_singleton _ _, fun a ha b hb => ?_⟩
      have ha := List.mem_eraseDups.mp ha
      rw [List.mem_singleton.mp hb, List.idxOf_append_of_mem ha, List.idxOf_append_of_notMem hid]
      exact Nat.lt_of_lt_of_le (List.idxOf_lt_length_iff.mpr ha) (Nat.le_add_right ..)

/-- A rule comes before another one: it has more issues, or as many and appears first. -/
def Outranks (ids : List String) (a b : RuleCount) : Prop :=
  b.count < a.count ∨ b.count = a.count ∧ ids.idxOf a.id < ids.idxOf b.id

theorem Outranks.id_ne {ids : List String} {a b : RuleCount} (h : Outranks ids a b)
    (ha : a.count = ids.count a.id) (hb : b.count = ids.count b.id) : a.id ≠ b.id := by
  intro heq
  rw [Outranks, ha, hb, heq] at h
  omega

section Ranking

variable (issues : List Issue)

theorem mem_ruleCounts {r : RuleCount} : r ∈ ruleCounts issues ↔
    r.id ∈ issues.map (·.id) ∧ r.count = (issues.map (·.id)).count r.id := by
  rw [ruleCounts, List.mem_map]
  constructor
  · rintro ⟨id, hid, rfl⟩
    exact ⟨List.mem_eraseDups.mp hid, rfl⟩
  · rintro ⟨hid, hcount⟩
    refine ⟨r.id, List.mem_eraseDups.mpr hid, ?_⟩
    rw [← hcount]

/-- All rules with issues, in the order of their ranks. -/
def ranking : List RuleCount :=
  (ruleCounts issues).mergeSort fun a b => b.count ≤ a.count

/-- **How rules are ranked**: by the number of their issues, and those with equally many by where
they first appear. -/
theorem pairwise_ranking : (ranking issues).Pairwise (Outranks (issues.map (·.id))) := by
  have hfirst : (ruleCounts issues).Pairwise fun a b =>
      (issues.map (·.id)).idxOf a.id < (issues.map (·.id)).idxOf b.id :=
    List.pairwise_map.mpr (pairwise_eraseDups _)
  refine (pairwise_mergeSort_stable (fun a b c hab hbc => ?_) (fun a b => ?_) hfirst).imp ?_
  · simp only [decide_eq_true_eq] at *
    omega
  · simp only [Bool.or_eq_true, decide_eq_true_eq]
    omega
  · rintro a b ⟨hle, hstable⟩
    rw [decide_eq_true_eq] at hle
    rcases Nat.lt_or_eq_of_le hle with hlt | heq
    · exact .inl hlt
    · exact .inr ⟨heq, hstable (decide_eq_true (Nat.le_of_eq heq.symm))⟩

theorem mem_ranking {r : RuleCount} : r ∈ ranking issues ↔
    r.id ∈ issues.map (·.id) ∧ r.count = (issues.map (·.id)).count r.id := by
  rw [ranking, List.mem_mergeSort, mem_ruleCounts]

theorem nodup_ranking : ((ranking issues).map (·.id)).Nodup := by
  refine List.pairwise_map.mpr ((pairwise_ranking issues).imp_of_mem fun ha hb h => ?_)
  exact h.id_ne ((mem_ranking issues).mp ha).2 ((mem_ranking issues).mp hb).2

theorem length_ranking : (ranking issues).length = (issues.map (·.id)).toFinset.card := by
  rw [← List.length_map (·.id), ← List.toFinset_card_of_nodup (nodup_ranking issues)]
  congr 1
  ext id
  simp only [List.mem_toFinset, List.mem_map (f := RuleCount.id), mem_ranking]
  constructor
  · rintro ⟨r, ⟨hid, -⟩, rfl⟩
    exact hid
  · exact fun hid => ⟨⟨id, (issues.map (·.id)).count id⟩, ⟨hid, rfl⟩, rfl⟩

/-- A rule with issues is either named or outranked by all that are named. -/
theorem mem_topRulesOf_or_outranked {id : String} (hid : id ∈ issues.map (·.id)) :
    id ∈ (topRulesOf issues).map (·.id) ∨ ∀ r ∈ topRulesOf issues,
      Outranks (issues.map (·.id)) r ⟨id, (issues.map (·.id)).count id⟩ := by
  have hmem := (mem_ranking issues (r := ⟨id, (issues.map (·.id)).count id⟩)).mpr ⟨hid, rfl⟩
  have hpairs := pairwise_ranking issues
  rw [← List.take_append_drop topRulesLimit (ranking issues)] at hmem hpairs
  rcases List.mem_append.mp hmem with htop | hrest
  · exact .inl (List.mem_map_of_mem (f := RuleCount.id) htop)
  · exact .inr fun r hr => (List.pairwise_append.mp hpairs).2.2 r hr _ hrest

end Ranking

/-! ## Reports -/

/-- **What a report holds.** It keeps the first of all errors, warnings and other issues, in this
order and each in the order in which they were found. It counts what it keeps. It names the ten
rules with the most of these issues, or all rules if they are no more than ten, each once and with
its number of issues; of rules with equally many, those that appear first among the issues that are
kept. A report on what a report keeps is that report again. -/
theorem build_exact (issues : List Issue) (limit : Nat) :
    let report := build issues limit
    let kept := report.issues
    let ids := kept.map (·.id)
    (kept = (issues.filter (·.severity == .error) ++ issues.filter (·.severity == .warn) ++
      issues.filter (·.severity == .info)).take limit) ∧
    (report.counts.error = kept.countP (·.severity == .error) ∧
      report.counts.warn = kept.countP (·.severity == .warn) ∧
      report.counts.info = kept.countP (·.severity == .info) ∧
      report.counts.total = min limit issues.length) ∧
    (report.topRules.length = min 10 ids.toFinset.card ∧
      (report.topRules.map (·.id)).Nodup ∧
      (∀ r ∈ report.topRules, r.id ∈ ids ∧ r.count = ids.count r.id) ∧
      report.topRules.Pairwise (fun a b => b.count < a.count ∨
        b.count = a.count ∧ ids.idxOf a.id < ids.idxOf b.id) ∧
      ∀ id ∈ ids, id ∉ report.topRules.map (·.id) → ∀ r ∈ report.topRules,
        ids.count id < r.count ∨ ids.count id = r.count ∧ ids.idxOf r.id < ids.idxOf id) ∧
    build kept limit = report := by
  intro report kept ids
  have hkept : kept = (bySeverity issues).take limit := rfl
  have htop : report.topRules = (ranking kept).take topRulesLimit := rfl
  refine ⟨by rw [hkept, bySeverity_eq], ⟨rfl, rfl, rfl, ?_⟩, ⟨?_, ?_, fun r hr => ?_, ?_, ?_⟩, ?_⟩
  · show (Counts.ofIssues kept).total = _
    rw [total_ofIssues, hkept, List.length_take, bySeverity, List.length_mergeSort]
  · rw [htop, List.length_take, length_ranking]
    rfl
  · rw [htop, List.map_take]
    exact (nodup_ranking kept).sublist (List.take_sublist ..)
  · exact (mem_ranking kept).mp (List.mem_of_mem_take (htop ▸ hr))
  · rw [htop]
    exact (pairwise_ranking kept).sublist (List.take_sublist ..)
  · exact fun id hid hout => (mem_topRulesOf_or_outranked kept hid).resolve_left hout
  · show (⟨(bySeverity kept).take limit, _, _⟩ : Report) = ⟨kept, _, _⟩
    have hagain : (bySeverity kept).take limit = kept := by
      rw [hkept, bySeverity_kept, List.take_take, Nat.min_self]
    simp only [hagain]
    rfl

/-- Issues of eleven rules, one each, and a warning of the last of them. -/
def elevenRules : List Issue :=
  (["a", "b", "c", "d", "e", "f", "g", "h", "i", "j", "k"].map fun id =>
    { id, title := "", description := "", severity := .info }) ++
    [{ id := "k", title := "", description := "", severity := .warn }]

/-- The warning comes first, and so does its rule. Of ten rules with one issue each, the one that
appears last is not named. -/
theorem build_exact_elevenRules :
    let report := build elevenRules 12
    let ids := ["k", "a", "b", "c", "d", "e", "f", "g", "h", "i", "j", "k"]
    report.issues.map (·.id) = ids ∧ report.counts.total = 12 ∧ report.topRules.length = 10 ∧
    "j" ∉ report.topRules.map (·.id) ∧
    (∀ r ∈ report.topRules, 1 < r.count ∨ 1 = r.count ∧ ids.idxOf r.id < 10) ∧
    build report.issues 12 = report := by
  intro report ids
  obtain ⟨hkept, ⟨-, -, -, htotal⟩, ⟨hlength, -, -, -, hout⟩, hagain⟩ := build_exact elevenRules 12
  have hids : report.issues.map (·.id) = ids := by
    rw [hkept]
    decide +kernel
  -- The rules appear in the order of their ranks already.
  have hrules : (ruleCounts report.issues).Pairwise fun a b => b.count ≤ a.count := by
    rw [ruleCounts, hids]
    decide +kernel
  have hnamed : report.topRules.map (·.id) = ids.take 10 := by
    have htop : report.topRules = (ruleCounts report.issues).take 10 :=
      congrArg (List.take 10) (List.mergeSort_of_pairwise (hrules.imp decide_eq_true))
    rw [htop, ruleCounts, hids]
    decide +kernel
  have hj : "j" ∉ report.topRules.map (·.id) := by
    rw [hnamed]
    decide
  have houtranked := hout "j" (show "j" ∈ report.issues.map (·.id) by rw [hids]; decide) hj
  rw [show (build elevenRules 12).issues.map (·.id) = _ from hids] at hlength houtranked
  exact ⟨hids, htotal, hlength, hj, houtranked, hagain⟩

end Report

end ScriptLint
