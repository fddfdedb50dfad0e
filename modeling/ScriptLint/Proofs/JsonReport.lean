import ScriptLint.Proofs.JsonText
import ScriptLint.Report

/-!
# What a reader of a report learns

A report that is written as JSON loses nothing: a reader of JSON finds the numbers of the summary,
the rules with the most issues in their order, and records that read as the issues they were written
for. What an issue does not have is left out of its record, so that nothing stands there as `null`.

## Main definitions

* `Datum.member?`, `Datum.at?` — look into records
* `Issue.optionalParts` — what an issue may lack
* `Issue.IsReadAs`, `Report.IsReadAs` — a datum tells all about an issue, and about a report

## Main results

* `Issue.ofDatum_toDatum` — the record of an issue reads as the issue
* `Report.read?_render_toDatum` — the text of a report reads as the report
-/

namespace ScriptLint

open Number

/-! ## Looking into records -/

namespace Datum

/-- The members of a record. -/
def members : Datum → List (String × Datum)
  | record members => members
  | _ => []

/-- The names of the members of a record. -/
def keys (d : Datum) : List String :=
  d.members.map (·.1)

/-- What a record holds under a name, if the name stands there once. -/
def member? (key : String) (d : Datum) : Option Datum :=
  match d.members.filter (·.1 == key) with
  | [(_, value)] => some value
  | _ => none

/-- What stands at the end of a path of names. -/
def at? (path : List String) (d : Datum) : Option Datum :=
  path.foldlM (fun d key => d.member? key) d

end Datum

/-! ## Issues -/

namespace Issue

theorem forall_mem_member {α : Type} {P : String × Datum → Prop} {key : String} {f : α → Datum}
    {o : Option α} : (∀ p ∈ member key (o.map f), P p) ↔ ∀ a ∈ o, P (key, f a) := by
  cases o with
  | none => simp [member]
  | some a => simp [member]

theorem isWritable_toDatum {i : Issue} (h : ∀ x ∈ i.confidence, x.IsFinite) :
    i.toDatum.IsWritable := by
  refine .record ?_
  simp only [List.forall_mem_append, forall_mem_member, List.forall_mem_cons]
  have htags : (Datum.list (i.tags.map .text)).IsWritable := by
    refine .list fun d hd => ?_
    obtain ⟨tag, -, rfl⟩ := List.mem_map.mp hd
    exact .text tag
  exact ⟨⟨⟨⟨⟨⟨⟨⟨.text _, .text _, .text _, .text _, by simp⟩, fun x hx => .real (h x hx)⟩,
    fun _ _ => .text _⟩, fun _ _ => .integer _⟩, fun _ _ => .integer _⟩, fun _ _ => .text _⟩,
    fun _ _ => .text _⟩, htags, by simp⟩

theorem ne_null_of_mem_toDatum (i : Issue) : ∀ p ∈ i.toDatum.members, p.2 ≠ .null := by
  rw [toDatum, Datum.members]
  simp only [List.forall_mem_append, forall_mem_member, List.forall_mem_cons]
  simp [natDatum]

/-- What an issue may lack, and whether it has it. -/
def optionalParts (i : Issue) : List (String × Bool) :=
  [("confidence", i.confidence.isSome), ("file", i.file.isSome), ("line", i.line.isSome),
    ("column", i.column.isSome), ("snippet", i.snippet.isSome),
    ("suggestion", i.suggestion.isSome)]

/-- The name of a part, if the issue has it. -/
def keyIf (key : String) (present : Bool) : List String :=
  if present then [key] else []

theorem map_fst_member {α : Type} (key : String) (f : α → Datum) (o : Option α) :
    (member key (o.map f)).map (·.1) = keyIf key o.isSome := by
  cases o <;> rfl

theorem mem_keyIf {key key' : String} {present : Bool} :
    key' ∈ keyIf key present ↔ key' = key ∧ present := by
  cases present <;> simp [keyIf]

theorem keyIf_sublist (key : String) (present : Bool) : (keyIf key present).Sublist [key] := by
  cases present <;> simp [keyIf]

/-- The names in the record of an issue. -/
theorem keys_toDatum (i : Issue) : i.toDatum.keys =
    ["id", "title", "description", "severity"] ++ keyIf "confidence" i.confidence.isSome ++
      keyIf "file" i.file.isSome ++ keyIf "line" i.line.isSome ++
      keyIf "column" i.column.isSome ++ keyIf "snippet" i.snippet.isSome ++
      keyIf "suggestion" i.suggestion.isSome ++ ["tags"] := by
  simp only [Datum.keys, toDatum, Datum.members, List.map_append, map_fst_member]
  rfl

theorem nodup_keys_toDatum (i : Issue) : i.toDatum.keys.Nodup := by
  have hall : ["id", "title", "description", "severity", "confidence", "file", "line", "column",
      "snippet", "suggestion", "tags"].Nodup := by decide
  refine hall.sublist ?_
  rw [keys_toDatum]
  exact ((((((List.Sublist.refl ["id", "title", "description", "severity"]).append
    (keyIf_sublist _ _)).append (keyIf_sublist _ _)).append (keyIf_sublist _ _)).append
    (keyIf_sublist _ _)).append (keyIf_sublist _ _)).append (keyIf_sublist _ _) |>.append (.refl _)

/-- A part of an issue has a member exactly if the issue has it. -/
theorem mem_keys_toDatum (i : Issue) : ∀ p ∈ i.optionalParts, p.1 ∈ i.toDatum.keys ↔ p.2 := by
  simp only [optionalParts, List.forall_mem_cons, keys_toDatum, List.mem_append, mem_keyIf]
  simp

/-! ### Reading an issue -/

theorem getTexts_map_text (texts : List String) :
    (Datum.list (texts.map .text)).getTexts = .ok texts := by
  rw [Datum.getTexts]
  induction texts with
  | nil => rfl
  | cons t texts ih =>
    rw [List.map_cons, List.mapM_cons, ih]
    rfl

theorem getSeverity_name (s : Severity) : (Datum.text s.name).getSeverity = .ok s := by
  cases s <;> rfl

theorem optional_getNat_natDatum (n : Nat) :
    Datum.optional Datum.getNat (natDatum n) = .ok (some n) := by
  have hread : (natDatum n).getNat = .ok n := by
    rw [natDatum, Datum.getNat, if_neg (by omega), Int.natAbs_natCast]
  show some <$> (natDatum n).getNat = .ok (some n)
  rw [hread]
  rfl

/-- Reads the members of a record one after the other. -/
def readAll (d : Draft) (members : List (String × Datum)) : Except RecordError Draft :=
  members.foldlM (fun d (key, value) => d.read key value) d

theorem readAll_append {d d' : Draft} {members members' : List (String × Datum)}
    (h : readAll d members = .ok d') : readAll d (members ++ members') = readAll d' members' := by
  rw [readAll, readAll, List.foldlM_append]
  rw [readAll] at h
  rw [h]
  rfl

/-- A member that may be left out sets a part that is missing until then. -/
theorem readAll_member {α : Type} {key : String} {f : α → Datum} {d : Draft}
    (set : Option α → Draft) (hnone : d = set none)
    (hsome : ∀ a, d.read key (f a) = .ok (set (some a))) (o : Option α) :
    readAll d (member key (o.map f)) = .ok (set o) := by
  cases o with
  | none => exact congrArg Except.ok hnone
  | some a =>
    show (d.read key (f a) >>= pure) = .ok (set (some a))
    rw [hsome]
    rfl

/-- What is known of an issue while the parts that it may lack are read in their order. -/
def draft (i : Issue) (confidence : Option Binary64) (file : Option String)
    (line column : Option Nat) (snippet suggestion : Option String) (tags : Option (List String)) :
    Draft :=
  { id := i.id, title := i.title, description := i.description, severity := i.severity
    confidence, file, line, column, snippet, suggestion, tags }

/-- **The record of an issue reads as the issue.** -/
theorem ofDatum_toDatum (i : Issue) : ofDatum i.toDatum = .ok i := by
  have hrequired : readAll {} [("id", .text i.id), ("title", .text i.title),
      ("description", .text i.description), ("severity", .text i.severity.name)] =
      .ok (i.draft none none none none none none none) := by
    simp only [readAll, List.foldlM_cons, Draft.read, getSeverity_name]
    rfl
  have htags : readAll (i.draft i.confidence i.file i.line i.column i.snippet i.suggestion none)
      [("tags", .list (i.tags.map .text))] = .ok (i.draft i.confidence i.file i.line i.column
        i.snippet i.suggestion i.tags) := by
    simp only [readAll, List.foldlM_cons, Draft.read, getTexts_map_text]
    rfl
  have hread : readAll {} i.toDatum.members = .ok (i.draft i.confidence i.file i.line i.column
      i.snippet i.suggestion i.tags) := by
    rw [toDatum, Datum.members]
    simp only [List.append_assoc]
    rw [readAll_append hrequired,
      readAll_append (readAll_member (i.draft · none none none none none none) rfl
        (fun _ => rfl) i.confidence),
      readAll_append (readAll_member (i.draft i.confidence · none none none none none) rfl
        (fun _ => rfl) i.file),
      readAll_append (readAll_member (i.draft i.confidence i.file · none none none none) rfl
        (fun n => by simp only [Draft.read, optional_getNat_natDatum]; rfl) i.line),
      readAll_append (readAll_member (i.draft i.confidence i.file i.line · none none none) rfl
        (fun n => by simp only [Draft.read, optional_getNat_natDatum]; rfl) i.column),
      readAll_append (readAll_member (i.draft i.confidence i.file i.line i.column · none none) rfl
        (fun _ => rfl) i.snippet),
      readAll_append (readAll_member
        (i.draft i.confidence i.file i.line i.column i.snippet · none) rfl
        (fun _ => rfl) i.suggestion), htags]
  show (readAll {} i.toDatum.members >>= Draft.finish) = .ok i
  rw [hread]
  rfl

/-- A datum tells all about an issue: it reads as the issue, no name stands in it twice, what the
issue may lack has a name there exactly if the issue has it, and nothing is `null`. -/
structure IsReadAs (i : Issue) (d : Datum) : Prop where
  read : ofDatum d = .ok i
  nodup : d.keys.Nodup
  optional : ∀ p ∈ i.optionalParts, p.1 ∈ d.keys ↔ p.2
  ne_null : ∀ p ∈ d.members, p.2 ≠ .null

theorem isReadAs_toDatum (i : Issue) : i.IsReadAs i.toDatum where
  read := i.ofDatum_toDatum
  nodup := i.nodup_keys_toDatum
  optional := i.mem_keys_toDatum
  ne_null := i.ne_null_of_mem_toDatum

end Issue

/-! ## Reports -/

/-- A datum tells how many issues a rule has. -/
structure RuleCount.IsReadAs (r : RuleCount) (d : Datum) : Prop where
  id : d.member? "id" = some (.text r.id)
  count : d.member? "count" = some (.integer r.count)

namespace Report

/-- A datum tells all about a report and the number of files that were looked at. -/
structure IsReadAs (r : Report) (filesScanned : Nat) (d : Datum) : Prop where
  filesScanned : d.at? ["summary", "filesScanned"] = some (.integer filesScanned)
  info : d.at? ["summary", "counts", "info"] = some (.integer r.counts.info)
  warn : d.at? ["summary", "counts", "warn"] = some (.integer r.counts.warn)
  error : d.at? ["summary", "counts", "error"] = some (.integer r.counts.error)
  topRules : ∃ rules, d.at? ["summary", "topRules"] = some (.list rules) ∧
    List.Forall₂ RuleCount.IsReadAs r.topRules rules
  issues : ∃ items, d.at? ["issues"] = some (.list items) ∧
    List.Forall₂ Issue.IsReadAs r.issues items

theorem isReadAs_toDatum (r : Report) (filesScanned : Nat) :
    r.IsReadAs filesScanned (r.toDatum filesScanned) where
  filesScanned := rfl
  info := rfl
  warn := rfl
  error := rfl
  topRules := by
    refine ⟨r.topRules.map RuleCount.toDatum, rfl, ?_⟩
    rw [List.forall₂_map_right_iff]
    exact List.forall₂_same.mpr fun c _ => ⟨rfl, rfl⟩
  issues := by
    refine ⟨r.issues.map Issue.toDatum, rfl, ?_⟩
    rw [List.forall₂_map_right_iff]
    exact List.forall₂_same.mpr fun i _ => i.isReadAs_toDatum

theorem isWritable_toDatum {r : Report} (h : ∀ i ∈ r.issues, ∀ x ∈ i.confidence, x.IsFinite)
    (filesScanned : Nat) : (r.toDatum filesScanned).IsWritable := by
  have hcounts : r.counts.toDatum.IsWritable := .record (by simp [Datum.IsWritable.integer])
  have hrule : ∀ c : RuleCount, c.toDatum.IsWritable := fun c =>
    .record (by simp [Datum.IsWritable.integer, Datum.IsWritable.text])
  have hrules : (Datum.list (r.topRules.map RuleCount.toDatum)).IsWritable := by
    refine .list fun d hd => ?_
    obtain ⟨c, -, rfl⟩ := List.mem_map.mp hd
    exact hrule c
  have hissues : (Datum.list (r.issues.map Issue.toDatum)).IsWritable := by
    refine .list fun d hd => ?_
    obtain ⟨i, hi, rfl⟩ := List.mem_map.mp hd
    exact Issue.isWritable_toDatum (h i hi)
  have hsummary : (Datum.record [("filesScanned", .integer filesScanned),
      ("counts", r.counts.toDatum),
      ("topRules", .list (r.topRules.map RuleCount.toDatum))]).IsWritable :=
    .record (by simp [Datum.IsWritable.integer, hcounts, hrules])
  exact .record (by simp [hsummary, hissues])

/-- **A report is written without loss.** If the confidence of every issue that has one is a finite
number, the text of the report is JSON, and the datum that it reads as tells all about the
report. -/
theorem read?_render_toDatum (r : Report) (filesScanned : Nat)
    (h : ∀ i ∈ r.issues, ∀ x ∈ i.confidence, x.IsFinite) :
    ∃ d, Json.read? (r.toDatum filesScanned).render = some d ∧ r.IsReadAs filesScanned d :=
  ⟨r.toDatum filesScanned, Json.read?_render (isWritable_toDatum h filesScanned),
    r.isReadAs_toDatum filesScanned⟩

/-- A report on two issues: one has every part, with characters that need care, the other has none
but what it must have. -/
def fullAndBare : Report where
  issues := [
    { id := "ast.fake_import_symbol", title := "Imported \"symbol\" \\ 'é😀'"
      description := "one\r\n\ttwo\x00\x1f", severity := .warn
      confidence := some (.ofDecimal false 65 (-2)), file := some "src/a.ts", line := some 12
      column := some 3, snippet := some "", suggestion := some "/", tags := ["ast", "import"] },
    { id := "ast.todo_density", title := "", description := "", severity := .info }]
  counts := ⟨1, 1, 0⟩
  topRules := [⟨"ast.fake_import_symbol", 1⟩, ⟨"ast.todo_density", 1⟩]

theorem read?_render_fullAndBare :
    (∀ i ∈ fullAndBare.issues, ∀ x ∈ i.confidence, x.IsFinite) ∧
    ∃ d, Json.read? (fullAndBare.toDatum 42).render = some d ∧ fullAndBare.IsReadAs 42 d := by
  have hfinite : ∀ i ∈ fullAndBare.issues, ∀ x ∈ i.confidence, x.IsFinite := by decide +kernel
  exact ⟨hfinite, read?_render_toDatum fullAndBare 42 hfinite⟩

end Report

end ScriptLint
